import ChartParsing.Boundary

/-!
# Terminals

A `PatternTerminal` matches a pattern between boundaries, at the place it is asked about.  A `Gap`
never matches by itself: it accepts or refuses a stretch of the input that others leave over.

`PatternTerminal.occurrences` lists the matches that are not empty, one for each place where there is
one; they may overlap, and each is the one that `PatternTerminal.matchAt?` finds there.
-/

namespace ChartParsing

/-- What a terminal matched: its texts, and where the next symbol may start. -/
structure Match where
  texts : List String
  stop : Nat
deriving DecidableEq, Repr

/-- A match found by looking through a whole text. -/
structure Occurrence where
  text : String
  start : Nat
  stop : Nat
deriving DecidableEq, Repr

/-! ### Patterns as terminals -/

/-- A terminal that matches a pattern. -/
structure PatternTerminal where
  source : String
  caseInsensitive : Bool
  boundary : Boundary
  pattern : Pattern

namespace PatternTerminal

/-- Compiles a terminal. -/
def compile (source : String) (caseInsensitive : Bool) (boundary : Boundary) :
    Except Failure PatternTerminal :=
  match Pattern.compile caseInsensitive source with
  | .ok pattern => .ok ⟨source, caseInsensitive, boundary, pattern⟩
  | .error fault => .error (.invalidTerminal fault)

/-- The match at a place: what was matched, and the place behind it. -/
def matchFrom? (t : PatternTerminal) (c : Cursor) : Option (Text × Cursor) :=
  match t.pattern.matchAt? c with
  | some stop =>
      if t.boundary.accepts c.before stop.after then
        some (c.rest.take (c.rest.length - stop.rest.length), stop)
      else none
  | none => none

/-- The match at an offset. -/
def matchAt? (t : PatternTerminal) (input : Text) (start : Nat) : Option Match :=
  match input.seek? start with
  | some c => (t.matchFrom? c).map (fun (text, stop) => ⟨[String.ofList text], stop.offset⟩)
  | none => none

/-- The match at a place, unless it is empty. -/
def occurrenceFrom? (t : PatternTerminal) (c : Cursor) : Option Occurrence :=
  match t.matchFrom? c with
  | some (text, stop) =>
      if text.isEmpty then none else some ⟨String.ofList text, c.offset, stop.offset⟩
  | none => none

/-- All matches in a text that are not empty, by their starts. -/
def occurrences (t : PatternTerminal) (input : Text) : List Occurrence :=
  input.cursors.filterMap t.occurrenceFrom?

/-- The text of a terminal, which is its identity: its pattern between slashes and its options. -/
def render (t : PatternTerminal) : String :=
  "/" ++ t.source ++ "/" ++ (if t.caseInsensitive then "i" else "")
    ++ (if t.boundary.isAnywhere then ""
        else (if t.caseInsensitive then "," else "") ++ t.boundary.render)

end PatternTerminal

/-! ### Gaps -/

/-- A terminal that fills the stretch between one match and the start of a nonterminal. -/
structure Gap where
  name : String
  /-- The greatest number of bytes of the stretch. -/
  reach : Nat
  /-- Is only the nearest start of the nonterminal tried? -/
  nearestOnly : Bool
  /-- Does the gap accept this stretch of the input? -/
  accepts : Text → Nat → Nat → Bool

namespace Gap

/-- The match over exactly this stretch of the input. -/
def matchSpan? (g : Gap) (input : Text) (start stop : Nat) : Option Match :=
  match input.slice? start stop with
  | some text => if g.accepts input start stop then some ⟨[String.ofList text], stop⟩ else none
  | none => none

/-- The text that shows a gap with its settings. -/
def describe (g : Gap) : String :=
  "ApproxTerminal \x7b name: " ++ quoted g.name ++ ", max_gap: " ++ toString g.reach
    ++ ", only_firsts: " ++ (if g.nearestOnly then "true" else "false") ++ ", .. \x7d"

/-- Accepts every stretch, or none. -/
def always (answer : Bool) (_ : Text) (_ _ : Nat) : Bool := answer

/-- Accepts stretches of at most this many bytes. -/
def atMost (length : Nat) (_ : Text) (start stop : Nat) : Bool := stop - start ≤ length

/-- Accepts stretches in which a text does not occur. -/
def without (part : Text) (input : Text) (start stop : Nat) : Bool :=
  match input.slice? start stop with
  | some text => !text.hasPart part
  | none => false

/-- Accepts stretches that follow a text. -/
def behind (ending : Text) (input : Text) (start _stop : Nat) : Bool :=
  match input.slice? 0 start with
  | some text => text.endsWith ending
  | none => false

end Gap

end ChartParsing
