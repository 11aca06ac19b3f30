import ChartParsing.Terminal

/-!
# Grammar symbols

A symbol is a nonterminal or one of four kinds of terminals.  Two symbols are the same when they are
of one kind and have the same identity: a pattern's identity includes its options, and all other
symbols are told apart by name.
-/

namespace ChartParsing

/-- A symbol of a grammar. -/
inductive Symbol where
  | nonterminal (name : String)
  | literal (text : String)
  | pattern (terminal : PatternTerminal)
  /-- A terminal that matches the texts of a registered list. -/
  | entity (name : String) (terminal : PatternTerminal)
  | gap (gap : Gap)

/-- The kinds of symbols. -/
inductive SymbolKind where
  | nonterminal
  | literal
  | pattern
  | entity
  | gap
deriving DecidableEq, Repr

namespace Symbol

/-- The kind of a symbol. -/
def kind : Symbol → SymbolKind
  | .nonterminal _ => .nonterminal
  | .literal _ => .literal
  | .pattern _ => .pattern
  | .entity _ _ => .entity
  | .gap _ => .gap

/-- The name of a symbol; a literal's is its text, and a pattern's is the pattern. -/
def name : Symbol → String
  | .nonterminal name => name
  | .literal text => text
  | .pattern t => t.source
  | .entity name _ => name
  | .gap g => g.name

/-- What two symbols of one kind have to share to be the same. -/
def identity : Symbol → String
  | .pattern t => t.render
  | other => other.name

/-- Are the two symbols the same? -/
def same (a b : Symbol) : Bool := a.kind = b.kind ∧ a.identity = b.identity

/-- The text of a symbol. -/
def render : Symbol → String
  | .nonterminal name => name
  | .literal text => "\"" ++ text ++ "\""
  | .pattern t => t.render
  | .entity name _ => "EntityTerminal(" ++ name ++ ")"
  | .gap g => "ApproxTerminal(" ++ g.name ++ ")"

/-- The name of a nonterminal. -/
def nonterminal? : Symbol → Option String
  | .nonterminal name => some name
  | _ => none

/-- The gap that a symbol is. -/
def gap? : Symbol → Option Gap
  | .gap g => some g
  | _ => none

/-- Is the symbol a nonterminal? -/
def isNonterminal (s : Symbol) : Bool := s.kind = .nonterminal

/-- Is the symbol a gap? -/
def isGap (s : Symbol) : Bool := s.kind = .gap

/-- Can the symbol be found by looking through the input? -/
def isScannable (s : Symbol) : Bool := !s.isNonterminal && !s.isGap

/-! ### Matching -/

/-- The match of a literal at an offset. -/
def matchLiteral? (text : String) (input : Text) (start : Nat) : Option Match :=
  match input.seek? start with
  | some c =>
      if c.rest.startsWith text.toList then
        some ⟨[text], start + Text.byteLength text.toList⟩
      else none
  | none => none

/-- The places where a literal stands; an empty one stands nowhere. -/
def literalOccurrences (text : String) (input : Text) : List Occurrence :=
  if text.isEmpty then []
  else
    (input.cursors.filter (fun c => c.rest.startsWith text.toList)).map
      (fun c => ⟨text, c.offset, c.offset + Text.byteLength text.toList⟩)

/-- The match at an offset.  Nonterminals and gaps match nowhere. -/
def matchAt? (s : Symbol) (input : Text) (start : Nat) : Option Match :=
  match s with
  | .literal text => matchLiteral? text input start
  | .pattern t => t.matchAt? input start
  | .entity _ t => t.matchAt? input start
  | .nonterminal _ | .gap _ => none

/-- All matches in a text that are not empty, by their starts. -/
def occurrences (s : Symbol) (input : Text) : List Occurrence :=
  match s with
  | .literal text => literalOccurrences text input
  | .pattern t => t.occurrences input
  | .entity _ t => t.occurrences input
  | .nonterminal _ | .gap _ => []

/-! ### Identity -/

theorem same_iff (a b : Symbol) : a.same b = true ↔ a.kind = b.kind ∧ a.identity = b.identity := by
  simp [same]

@[simp] theorem same_self (a : Symbol) : a.same a = true := (same_iff a a).2 ⟨rfl, rfl⟩

theorem same_comm (a b : Symbol) : a.same b = b.same a := by
  simp only [same, eq_comm]

end Symbol

end ChartParsing
