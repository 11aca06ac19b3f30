/-!
# Floating-point numbers taken apart and put together

A finite number is `significand * 2 ^ power` with a sign; `Binary.unpack` reads the three off the
number's bits, and `Binary.nearest` goes the other way: from an exact ratio of natural numbers to
the number nearest to it, halves going to the even significand.  Both work on natural numbers only,
so what they do is a matter of arithmetic.
-/

namespace ChartParsing

/-- The powers of two. -/
def pow2 (n : Nat) : Nat := Nat.pow 2 n

/-- The powers of ten. -/
def pow10 (n : Nat) : Nat := Nat.pow 10 n

/-- What the bits of a floating-point number say. -/
inductive Binary where
  | nan
  | infinite (negative : Bool)
  | finite (negative : Bool) (significand : Nat) (power : Int)
deriving DecidableEq, Repr

namespace Binary

/-- Reads the sign, the significand and the power of two off the bits. -/
def unpack (x : Float) : Binary :=
  let bits : Nat := x.toBits.toNat
  let negative := decide (pow2 63 ≤ bits)
  let exponent : Nat := bits / pow2 52 % pow2 11
  let fraction : Nat := bits % pow2 52
  if exponent = 2047 then (if fraction = 0 then .infinite negative else .nan)
  else if exponent = 0 then .finite negative fraction (-1074)
  else .finite negative (pow2 52 + fraction) ((exponent : Int) - 1075)

/-- The quotient rounded to the nearest natural number, halves to the even one. -/
def divNearest (num den : Nat) : Nat :=
  let q := num / den
  let r := num % den
  if 2 * r > den ∨ (2 * r = den ∧ q % 2 = 1) then q + 1 else q

/-- The ratio `num / den` times `2 ^ (-power)`, rounded. -/
def scaled (num den : Nat) (power : Int) : Nat :=
  if 0 ≤ power then divNearest num (den * pow2 power.toNat)
  else divNearest (num * pow2 (-power).toNat) den

/-- The bits of the floating-point number nearest to `num / den`.

The power of two is the least one, from the smallest possible on, for which the significand fits
into 53 bits; a significand that rounds up to `2 ^ 53` carries into the exponent by itself. -/
def nearestBits (num den : Nat) : Nat :=
  if num = 0 then 0
  else
    let guess : Int := max (-1074) ((num.log2 : Int) - den.log2 - 53)
    let tight : Bool :=
      if 0 ≤ guess then num / (den * pow2 guess.toNat) < pow2 53
      else num * pow2 (-guess).toNat / den < pow2 53
    let power := if tight then guess else guess + 1
    min (0x7FF * pow2 52) ((power + 1074).toNat * pow2 52 + scaled num den power)

/-- The floating-point number nearest to `num / den`, with the given sign. -/
def nearest (negative : Bool) (num den : Nat) : Float :=
  let bits := nearestBits num den
  Float.ofBits (if negative then pow2 63 + bits else bits).toUInt64

end Binary

end ChartParsing
