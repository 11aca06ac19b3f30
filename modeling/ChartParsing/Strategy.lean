import ChartParsing.Failure

/-!
# Strategies

A strategy says how a chart is begun and what is predicted.  Top down, the rules of entities are
predicted at the start of the input, and then the rules for every nonterminal that is wanted.  Bottom
up, every place where a rule's first terminal stands is a start, and rules are predicted from the
nonterminals that they start with.  With gaps both are done, and what is left over between two matches
can be filled.
-/

namespace ChartParsing

/-- How a chart is begun and grown. -/
inductive Strategy where
  | topDown
  | bottomUp
  /-- Bottom up, with predictions and gaps. -/
  | bottomUpWithGaps
deriving DecidableEq, Repr

namespace Strategy

/-- The name of a strategy. -/
def name : Strategy → String
  | topDown => "topDown"
  | bottomUp => "bottomUp"
  | bottomUpWithGaps => "bottomUpApprox"

/-- The word for a strategy in texts that show a parser. -/
def word : Strategy → String
  | topDown => "TopDown"
  | bottomUp => "BottomUp"
  | bottomUpWithGaps => "BottomUpApprox"

/-- All strategies. -/
def all : List Strategy := [topDown, bottomUp, bottomUpWithGaps]

/-- The strategy with a name. -/
def ofName (text : String) : Except Failure Strategy :=
  match all.find? (fun s => s.name = text) with
  | some s => .ok s
  | none => .error (.unknownStrategy text)

/-- Are rules found from what they start with? -/
def isBottomUp (s : Strategy) : Bool := s ≠ topDown

/-- Are rules predicted where their nonterminal is wanted? -/
def predictsWanted (s : Strategy) : Bool := s ≠ bottomUp

end Strategy

end ChartParsing
