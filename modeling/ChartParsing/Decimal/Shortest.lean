import ChartParsing.Decimal.Binary

/-!
# The fewest digits that read back

A finite positive number is the nearest one to every real number of an interval around it.  Its
shortest text names a point of that interval with as few digits as possible: a point of the coarsest
grid of multiples of a power of ten that has one.  If a grid has a point in the interval then one of
the number's two neighbours on that grid is in it, so only those two are tried; of two that fit the
nearer one is taken, and `Tie` says which when they are equally near.
-/

namespace ChartParsing.Decimal

/-- Which of two equally near neighbours is taken. -/
inductive Tie where
  /-- The larger one. -/
  | up
  /-- The one whose last digit is even. -/
  | even
deriving DecidableEq, Repr

/-- Digits and the power of ten of the last one: `digits * 10 ^ power`. -/
structure Digits where
  digits : Nat
  power : Int
deriving DecidableEq, Repr

/-- A number and the interval of the reals that are rounded to it, all in quarters of the unit of
its significand: `low` and `high` times `2 ^ power`.  The ends belong to the interval if `closed`. -/
structure Neighbourhood where
  low : Nat
  value : Nat
  high : Nat
  power : Int
  closed : Bool

/-- The interval around `significand * 2 ^ power`.  Below a power of two the numbers lie twice as
close, except at the smallest exponent. -/
def Neighbourhood.around (significand : Nat) (power : Int) : Neighbourhood where
  low := 4 * significand - (if significand = pow2 52 ∧ power ≠ -1074 then 1 else 2)
  value := 4 * significand
  high := 4 * significand + 2
  power := power - 2
  closed := significand % 2 = 0

/-- The point of the grid of multiples of `10 ^ power` that stands for the number, if the interval
has one. -/
def Neighbourhood.onGrid? (tie : Tie) (n : Neighbourhood) (power : Int) : Option Digits :=
  let unit := pow2 n.power.toNat * pow10 (-power).toNat
  let step := pow10 power.toNat * pow2 (-n.power).toNat
  let fits (c : Nat) : Bool :=
    if n.closed then n.low * unit ≤ c * step ∧ c * step ≤ n.high * unit
    else n.low * unit < c * step ∧ c * step < n.high * unit
  let below := n.value * unit / step
  let under := n.value * unit - below * step
  let above := (below + 1) * step - n.value * unit
  if below ≠ 0 ∧ fits below then
    if fits (below + 1) then
      if under < above then some ⟨below, power⟩
      else if above < under then some ⟨below + 1, power⟩
      else if tie = .even ∧ below % 2 = 0 then some ⟨below, power⟩
      else some ⟨below + 1, power⟩
    else some ⟨below, power⟩
  else if fits (below + 1) then some ⟨below + 1, power⟩
  else none

/-- Tries finer and finer grids, from `10 ^ power` on, `steps` of them. -/
def Neighbourhood.search (tie : Tie) (n : Neighbourhood) : Nat → Int → Digits
  | 0, power => ⟨0, power⟩
  | steps + 1, power =>
      match n.onGrid? tie power with
      | some d => d
      | none => search tie n steps (power - 1)

/-- Drops the zeros at the end of the digits, at most `steps` of them. -/
def Digits.trim : Nat → Digits → Digits
  | 0, d => d
  | steps + 1, d =>
      if d.digits ≠ 0 ∧ d.digits % 10 = 0 then trim steps ⟨d.digits / 10, d.power + 1⟩ else d

/-- The shortest digits for `significand * 2 ^ power`, which is not zero.

The first grid tried is coarser than the number itself: a number below `2 ^ (k + 1)` lies below
`10 ^ (0.30103 * k + 2)`.  Grids down to the seventeenth digit always contain a hit. -/
def shortest (tie : Tie) (significand : Nat) (power : Int) : Digits :=
  let magnitude : Int := ((significand.log2 : Int) + power) * 30103 / 100000 + 2
  ((Neighbourhood.around significand power).search tie 24 magnitude).trim 24

end ChartParsing.Decimal
