import ChartParsing.Decimal.Binary

/-!
# Reading numbers

`readFloat?` reads a decimal number: a sign, digits with at most one point among them, and an
exponent after `e`.  There has to be a digit, before the point or after it.  Infinity and the value
that is no number are read by name, in any case.  The number read is the nearest one to the decimal.

`readInt?` reads an integer that fits into 64 bits.
-/

namespace ChartParsing.Decimal

/-- Is the character a decimal digit of ASCII? -/
def isDigit (c : Char) : Bool := '0' ≤ c ∧ c ≤ '9'

/-- The number that a row of digits writes. -/
def digitsValue (ds : List Char) : Nat := ds.foldl (fun n c => 10 * n + (c.toNat - 48)) 0

/-- A sign and what follows it. -/
def splitSign : List Char → Bool × List Char
  | '-' :: rest => (true, rest)
  | '+' :: rest => (false, rest)
  | rest => (false, rest)

/-- The exponent that the rest of a number writes: none at all, or `e` and digits with a sign. -/
def readExponent? : List Char → Option Int
  | [] => some 0
  | e :: rest =>
      if e = 'e' ∨ e = 'E' then
        let (negative, ds) := splitSign rest
        if ds ≠ [] ∧ ds.all isDigit then
          some (if negative then -(digitsValue ds : Int) else digitsValue ds)
        else none
      else none

/-- The number nearest to `digits * 10 ^ power`.  Powers beyond the range of the exponent are decided
without computing them. -/
def nearestDecimal (negative : Bool) (digits : Nat) (power : Int) : Float :=
  let size : Int := (Nat.toDigits 10 digits).length + power
  if digits = 0 ∨ size < -400 then Binary.nearest negative 0 1
  else if 400 < size then Binary.nearest negative (pow10 400) 1
  else if 0 ≤ power then Binary.nearest negative (digits * pow10 power.toNat) 1
  else Binary.nearest negative digits (pow10 (-power).toNat)

/-- A number without its sign. -/
def readUnsigned? (negative : Bool) (cs : List Char) : Option Float :=
  let before := cs.takeWhile isDigit
  let (after, rest) := match cs.dropWhile isDigit with
    | '.' :: more => (more.takeWhile isDigit, more.dropWhile isDigit)
    | more => ([], more)
  if before = [] ∧ after = [] then none
  else (readExponent? rest).map (fun e =>
    nearestDecimal negative (digitsValue (before ++ after)) (e - after.length))

/-- Reads a number. -/
def readFloat? (s : String) : Option Float :=
  let (negative, cs) := splitSign s.toList
  let word := cs.map Char.toLower
  if word = "inf".toList ∨ word = "infinity".toList then
    some (if negative then -1.0 / 0.0 else 1.0 / 0.0)
  else if word = "nan".toList then some (0.0 / 0.0)
  else readUnsigned? negative cs

/-- The least integer of 64 bits. -/
def minInt : Int := -9223372036854775808

/-- The greatest integer of 64 bits. -/
def maxInt : Int := 9223372036854775807

/-- Reads an integer of 64 bits. -/
def readInt? (s : String) : Option Int :=
  let (negative, ds) := splitSign s.toList
  if ds ≠ [] ∧ ds.all isDigit then
    let n : Int := if negative then -(digitsValue ds : Int) else digitsValue ds
    if minInt ≤ n ∧ n ≤ maxInt then some n else none
  else none

end ChartParsing.Decimal
