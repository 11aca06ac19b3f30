/-!
# Operator classes

The rules of a grammar of operators can be tagged: with a precedence in some classes, and with classes
in which they associate to the left, to the right or not at all.  The tags decide which rule may stand
directly below which, and so leave one reading of an expression where there would be many.

Classes are kept in order, and the first class that forbids a pair gives the reason.
-/

namespace ChartParsing

/-! ### Ordered lists of classes -/

/-- Puts a class in its place, unless it is there already. -/
def insertClass (c : String) : List String → List String
  | [] => [c]
  | d :: ds => if c = d then d :: ds else if c < d then c :: d :: ds else d :: insertClass c ds

/-- Sets the precedence in a class. -/
def insertPrecedence (c : String) (value : Int) : List (String × Int) → List (String × Int)
  | [] => [(c, value)]
  | (d, v) :: rest =>
      if c = d then (d, value) :: rest
      else if c < d then (c, value) :: (d, v) :: rest
      else (d, v) :: insertPrecedence c value rest

/-- The tags of a rule. -/
structure Operators where
  precedence : List (String × Int)
  left : List String
  right : List String
  non : List String
deriving DecidableEq, Repr, Inhabited

/-- Why a rule may not stand below another. -/
inductive Veto where
  | precedence (cls : String)
  | left (cls : String)
  | right (cls : String)
  | non (cls : String)
deriving DecidableEq, Repr

namespace Veto

/-- The wording of a veto. -/
def render : Veto → String
  | precedence c => "precedence of " ++ c
  | left c => "left association of " ++ c
  | right c => "right association of " ++ c
  | non c => "non association of " ++ c

end Veto

namespace Operators

/-- No tags. -/
def none : Operators := ⟨[], [], [], []⟩

/-- Has the rule no tags? -/
def isNone (o : Operators) : Bool :=
  o.precedence.isEmpty && o.left.isEmpty && o.right.isEmpty && o.non.isEmpty

/-- The first class of the first list that is in the second one too. -/
def shared? (a b : List String) : Option String := a.find? (fun c => b.contains c)

/-- The first class in which the upper rule binds tighter than the lower one. -/
def tighter? (upper lower : List (String × Int)) : Option String :=
  (upper.find? (fun p => match lower.lookup p.1 with
    | some v => v < p.2
    | .none => false)).map Prod.fst

/-- Why a rule with the tags `upper`, of `length` symbols, may not take one with the tags `lower` for
the symbol at `dot`.

A rule that binds tighter takes no looser one.  A class that associates to the left takes itself in
first place only, one that associates to the right in last place only, and one that does not associate
nowhere. -/
def veto? (upper lower : Operators) (dot length : Nat) : Option Veto :=
  (((tighter? upper.precedence lower.precedence).map Veto.precedence).or
    (if dot ≠ 0 then (shared? upper.left lower.left).map Veto.left else .none)).or
    ((if dot + 1 < length then (shared? upper.right lower.right).map Veto.right else .none).or
      ((shared? upper.non lower.non).map Veto.non))

end Operators

end ChartParsing
