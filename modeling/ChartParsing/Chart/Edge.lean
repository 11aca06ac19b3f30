import ChartParsing.Position
import ChartParsing.Rule

/-!
# Edges

An item is a rule with a dot in it and the stretch of the input that the symbols left of the dot take.
An edge is an item with the derivations by which it was found.  Rules are referred to by their number,
so two rules that look the same are still two rules here.

Only the item tells an edge from others: what is found a second time in another way is the same edge
with one derivation more.
-/

namespace ChartParsing

/-- A rule, a dot and a span. -/
structure Item (rules : Array Rule) where
  number : Fin rules.size
  dot : Nat
  start : Position
  stop : Position
deriving DecidableEq

/-- One way in which an edge was found: the edge whose dot was moved, and what it was moved over, a
finished edge or the texts of a terminal. -/
structure Derivation where
  base : Option Nat
  child : Option Nat
  texts : Option (List String)
deriving DecidableEq, Repr

/-- Are these the same derivation?  The texts do not count. -/
def Derivation.same (a b : Derivation) : Bool := a.base = b.base ∧ a.child = b.child

/-- The edges that a derivation refers to. -/
def Derivation.links (d : Derivation) : List Nat := d.base.toList ++ d.child.toList

/-- An item and how it was derived. -/
structure Edge (rules : Array Rule) where
  item : Item rules
  derivations : List Derivation

namespace Item

variable {rules : Array Rule}

/-- The item at the start of a rule. -/
def initial (number : Fin rules.size) (place : Position) : Item rules := ⟨number, 0, place, place⟩

/-- The rule of an item. -/
def rule (i : Item rules) : Rule := rules[i.number]

/-- The left side of the rule. -/
def lhs (i : Item rules) : String := i.rule.lhs

/-- The symbol behind the dot. -/
def next? (i : Item rules) : Option Symbol := i.rule.rhs[i.dot]?

/-- The symbol behind the next one. -/
def following? (i : Item rules) : Option Symbol := i.rule.rhs[i.dot + 1]?

/-- The nonterminal behind the dot. -/
def wanted? (i : Item rules) : Option String := i.next?.bind Symbol.nonterminal?

/-- Is the dot behind all symbols? -/
def isReduced (i : Item rules) : Bool := i.rule.length ≤ i.dot

/-- Is the dot in front of all symbols? -/
def isPredicted (i : Item rules) : Bool := i.dot = 0

/-- Is a terminal behind the dot? -/
def isShift (i : Item rules) : Bool := i.next?.any (fun s => !s.isNonterminal)

/-- Is a gap behind the dot? -/
def isAtGap (i : Item rules) : Bool := i.next?.any Symbol.isGap

/-- May the item start anywhere? -/
def isFloating (i : Item rules) : Bool := i.start.isAnywhere

/-- The same rule with the dot moved on, over this span. -/
def step (i : Item rules) (start stop : Position) : Item rules :=
  ⟨i.number, i.dot + 1, start, stop⟩

/-- The item that comes of putting a finished item behind this one.  A place that is known on one side
only is known for both. -/
def joined (i child : Item rules) : Item rules :=
  i.step (i.start.orElse child.start) (child.stop.orElse i.stop)

/-- The symbols of a rule with a dot among them; the dot comes last if there are no more. -/
def renderSymbols (dot : Nat) : Nat → List Symbol → String
  | _, [] => ""
  | n, s :: rest =>
      (if n = dot then " ・" else "") ++ " " ++ s.render ++ renderSymbols dot (n + 1) rest

/-- The text of an item. -/
def render (i : Item rules) : String :=
  i.start.render ++ ".." ++ i.stop.render ++ ": " ++ i.lhs ++ " →"
    ++ renderSymbols i.dot 0 i.rule.rhs ++ (if i.isReduced then " ・" else "")

end Item

namespace Edge

variable {rules : Array Rule}

/-- Adds a derivation, unless it is there already. -/
def learn (e : Edge rules) (d : Derivation) : Edge rules :=
  if e.derivations.any (fun known => known.same d) then e
  else { e with derivations := e.derivations ++ [d] }

/-- Adds several derivations. -/
def learnAll (e : Edge rules) (ds : List Derivation) : Edge rules := ds.foldl learn e

/-- The edges that the derivations refer to. -/
def links (e : Edge rules) : List Nat := e.derivations.flatMap Derivation.links

end Edge

end ChartParsing
