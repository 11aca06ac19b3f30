/-!
# Positions

An edge starts and ends at an offset of the input, or anywhere: edges without any input of their own
are found once for all places, and get a place when something is put beside them.
-/

namespace ChartParsing

/-- A place in the input, or any place. -/
inductive Position where
  | anywhere
  | offset (n : Nat)
deriving DecidableEq, Repr, Inhabited

namespace Position

/-- Is this any place? -/
def isAnywhere : Position → Bool
  | .anywhere => true
  | .offset _ => false

/-- The offset, if the place is known. -/
def offset? : Position → Option Nat
  | .anywhere => none
  | .offset n => some n

theorem offset?_eq_some {p : Position} {n : Nat} : p.offset? = some n ↔ p = .offset n := by
  cases p <;> simp [offset?]

/-- The place if it is known, and the other one if not. -/
def orElse (p other : Position) : Position :=
  match p with
  | .anywhere => other
  | .offset n => .offset n

/-- There is no place only if neither of the two has one. -/
theorem orElse_eq_anywhere {p other : Position} :
    p.orElse other = .anywhere ↔ p = .anywhere ∧ other = .anywhere := by
  cases p with
  | anywhere => simp [orElse]
  | offset n => simp [orElse]

/-- The text of a position; a star stands for any place. -/
def render : Position → String
  | .anywhere => "*"
  | .offset n => toString n

end Position

end ChartParsing
