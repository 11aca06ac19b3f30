/-!
# Sets of natural numbers

A finite set of numbers is kept as the bits of one number.
-/

namespace ChartParsing

/-- A finite set of natural numbers, as the bits of one number. -/
structure NatSet where
  bits : Nat
deriving DecidableEq, Repr

namespace NatSet

/-- No numbers. -/
def empty : NatSet := ⟨0⟩

/-- Is the number in the set? -/
def contains (s : NatSet) (n : Nat) : Bool := s.bits.testBit n

/-- Adds a number. -/
def insert (s : NatSet) (n : Nat) : NatSet := ⟨s.bits ||| 1 <<< n⟩

@[simp] theorem contains_empty (n : Nat) : empty.contains n = false := by
  simp [empty, contains]

@[simp] theorem contains_insert (s : NatSet) (n m : Nat) :
    (s.insert n).contains m = (s.contains m || decide (n = m)) := by
  simp only [contains, insert, Nat.testBit_or, Nat.one_shiftLeft, Nat.testBit_two_pow]

end NatSet

end ChartParsing
