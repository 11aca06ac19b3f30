import ChartParsing.Grammar.Source
import ChartParsing.Table

/-!
# Grammars with tables

An `IndexedGrammar` keeps the texts of its rules, to see which rules it has, and tables of their numbers
by left side and by first symbol, to find them.  Each new rule is entered once in every table.  Symbols are
the same if their keys are, so the table by first symbols is kept under keys.

Changes to a grammar are data, `Grammar.Change`, and every change has an answer.  Whatever can be done with
a grammar can be done with one with tables; `IndexedGrammar.toGrammar` forgets these.
-/

namespace ChartParsing

/-- What symbols have in common that are the same. -/
def Symbol.key (s : Symbol) : SymbolKind × String := (s.kind, s.identity)

/-- Two symbols are the same if their keys are. -/
theorem Symbol.key_eq_iff (a b : Symbol) : a.key = b.key ↔ a.same b = true := by
  rw [same_iff, key, key, Prod.mk.injEq]

/-! ### Changes -/

namespace Grammar

/-- What can be done with a grammar. -/
inductive Change where
  /-- Add a rule. -/
  | add (r : Rule)
  /-- Start again with the given rules. -/
  | renew (rules : List Rule)
  /-- Add the rules of a text. -/
  | extend (v : Vocabulary) (source : String)

/-- What a change answers. -/
inductive Reply where
  /-- Was the rule new? -/
  | added (new : Bool)
  /-- How many rules were new. -/
  | extended (count : Nat)
  /-- Nothing but that it is done. -/
  | done
  | failure (e : Failure)

/-- Does a change.  A text that cannot be read changes nothing. -/
def perform (g : Grammar) : Change → Grammar × Reply
  | .add r =>
      let (g, new) := g.add r
      (g, .added new)
  | .renew rules => (ofRules rules, .done)
  | .extend v source =>
      match g.extend v source with
      | .ok (g, count) => (g, .extended count)
      | .error e => (g, .failure e)

/-- Does several changes, one after the other. -/
def performAll (g : Grammar) : List Change → Grammar × List Reply
  | [] => (g, [])
  | change :: rest =>
      let (g, reply) := g.perform change
      let (g, replies) := performAll g rest
      (g, reply :: replies)

end Grammar

/-! ### Tables -/

/-- A row of rules with tables for looking them up. -/
structure IndexedGrammar where
  rules : Array Rule
  /-- The texts of the rules. -/
  texts : List String
  /-- The numbers of rules by their left sides. -/
  byLeftSide : Table String
  /-- The numbers of rules by the keys of their first symbols; those of the empty rules are under
  `none`. -/
  byFirst : Table (Option (SymbolKind × String))

namespace IndexedGrammar

/-- The grammar without rules. -/
def empty : IndexedGrammar := ⟨#[], [], [], []⟩

/-- The grammar without its tables. -/
def toGrammar (g : IndexedGrammar) : Grammar := ⟨g.rules⟩

/-- How many rules there are. -/
def length (g : IndexedGrammar) : Nat := g.rules.size

/-- Adds a rule, unless one with the same text is there.  Also says whether it was added. -/
def add (g : IndexedGrammar) (r : Rule) : IndexedGrammar × Bool :=
  if g.texts.contains r.render then (g, false)
  else
    let n := g.rules.size
    (⟨g.rules.push r, r.render :: g.texts, g.byLeftSide.enter r.lhs n,
      g.byFirst.enter (r.first?.map Symbol.key) n⟩, true)

/-- Adds rules; also says how many were added. -/
def addAll (g : IndexedGrammar) (rules : List Rule) : IndexedGrammar × Nat :=
  rules.foldl (fun (g, n) r => match g.add r with
    | (g, true) => (g, n + 1)
    | (g, false) => (g, n)) (g, 0)

/-- The grammar of the given rules, less those whose text came before. -/
def ofRules (rules : List Rule) : IndexedGrammar := (empty.addAll rules).1

/-- Adds the rules of a text; also says how many were new. -/
def extend (g : IndexedGrammar) (v : Vocabulary) (source : String) :
    Except Failure (IndexedGrammar × Nat) := do
  let rules ← Source.readRules v source.toList
  .ok (g.addAll rules)

/-! ### Looking up -/

/-- The numbers of the rules that satisfy `p`, found by going through all of them. -/
def select (g : IndexedGrammar) (p : Rule → Bool) : List Nat :=
  (List.range g.rules.size).filter (fun n => g.rules[n]?.any p)

/-- The rules for a nonterminal. -/
def rulesFor (g : IndexedGrammar) (lhs : String) : List Nat := g.byLeftSide.get lhs

/-- The rules that start with a symbol, or the empty ones. -/
def rulesStarting (g : IndexedGrammar) (first : Option Symbol) : List Nat :=
  g.byFirst.get (first.map Symbol.key)

/-- The rules that start with a nonterminal. -/
def rulesStartingWith (g : IndexedGrammar) (name : String) : List Nat :=
  g.rulesStarting (some (.nonterminal name))

/-- The empty rules for a nonterminal. -/
def emptyRulesFor (g : IndexedGrammar) (lhs : String) : List Nat :=
  (g.rulesFor lhs).filter (fun n => g.rules[n]?.any Rule.isEmpty)

/-- The empty rules. -/
def emptyRules (g : IndexedGrammar) : List Nat := g.rulesStarting none

/-- The rules of entities. -/
def entityRules (g : IndexedGrammar) : List Nat := g.select Rule.entity

/-- The rules that can be found by looking through the input. -/
def terminalRules (g : IndexedGrammar) : List Nat := g.select Rule.startsWithTerminal

/-! ### Changes -/

/-- Does a change.  A text that cannot be read changes nothing. -/
def perform (g : IndexedGrammar) : Grammar.Change → IndexedGrammar × Grammar.Reply
  | .add r =>
      let (g, new) := g.add r
      (g, .added new)
  | .renew rules => (ofRules rules, .done)
  | .extend v source =>
      match g.extend v source with
      | .ok (g, count) => (g, .extended count)
      | .error e => (g, .failure e)

/-- Does several changes, one after the other. -/
def performAll (g : IndexedGrammar) : List Grammar.Change → IndexedGrammar × List Grammar.Reply
  | [] => (g, [])
  | change :: rest =>
      let (g, reply) := g.perform change
      let (g, replies) := performAll g rest
      (g, reply :: replies)

end IndexedGrammar

end ChartParsing
