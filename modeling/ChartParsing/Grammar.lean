import ChartParsing.Rule

/-!
# Grammars

A grammar is a row of rules, no two of which have the same text.  Rules are found by their left side,
by their first symbol, and by what they are good for; every look-up answers in the order in which the
rules were added.

Parsers refer to a rule by its number, so the look-ups answer with numbers and `Grammar.rule` leads
from there to the rule.
-/

namespace ChartParsing

/-- A row of rules. -/
structure Grammar where
  rules : Array Rule

namespace Grammar

/-- The grammar without rules. -/
def empty : Grammar := ⟨#[]⟩

/-- The number of a rule of the grammar. -/
abbrev RuleId (g : Grammar) := Fin g.rules.size

/-- The rule with a number. -/
def rule (g : Grammar) (i : g.RuleId) : Rule := g.rules[i]

/-- How many rules there are. -/
def length (g : Grammar) : Nat := g.rules.size

/-- Is there a rule with the same text? -/
def has (g : Grammar) (r : Rule) : Bool := g.rules.toList.any (fun q => q.render = r.render)

/-- Adds a rule, unless one with the same text is there.  Also says whether it was added. -/
def add (g : Grammar) (r : Rule) : Grammar × Bool :=
  if g.has r then (g, false) else (⟨g.rules.push r⟩, true)

/-- Adds rules; also says how many were added. -/
def addAll (g : Grammar) (rules : List Rule) : Grammar × Nat :=
  rules.foldl (fun (g, n) r => match g.add r with
    | (g, true) => (g, n + 1)
    | (g, false) => (g, n)) (g, 0)

/-- The grammar of the given rules, less those whose text came before. -/
def ofRules (rules : List Rule) : Grammar := (empty.addAll rules).1

/-! ### Looking up -/

/-- The numbers of the rules that satisfy `p`. -/
def select (g : Grammar) (p : Rule → Bool) : List g.RuleId :=
  (List.finRange g.rules.size).filter (fun i => p (g.rule i))

/-- The rules for a nonterminal. -/
def rulesFor (g : Grammar) (lhs : String) : List g.RuleId := g.select (fun r => r.lhs = lhs)

/-- The rules that start with a symbol, or the empty ones. -/
def rulesStarting (g : Grammar) (first : Option Symbol) : List g.RuleId :=
  g.select (fun r => r.startsWith first)

/-- The rules that start with a nonterminal. -/
def rulesStartingWith (g : Grammar) (name : String) : List g.RuleId :=
  g.rulesStarting (some (.nonterminal name))

/-- The empty rules for a nonterminal. -/
def emptyRulesFor (g : Grammar) (lhs : String) : List g.RuleId :=
  (g.rulesFor lhs).filter (fun i => (g.rule i).isEmpty)

/-- The empty rules. -/
def emptyRules (g : Grammar) : List g.RuleId := g.rulesStarting none

/-- The rules of entities. -/
def entityRules (g : Grammar) : List g.RuleId := g.select Rule.entity

/-- The rules that can be found by looking through the input. -/
def terminalRules (g : Grammar) : List g.RuleId := g.select Rule.startsWithTerminal

/-- The text of a grammar: its rules, each on a line. -/
def render (g : Grammar) : String := String.join (g.rules.toList.map (fun r => r.render ++ "\n"))

end Grammar

end ChartParsing
