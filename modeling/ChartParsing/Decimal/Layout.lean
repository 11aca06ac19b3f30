import ChartParsing.Decimal.Shortest

/-!
# How numbers are written

A `Layout` holds the decisions that the shortest digits leave open: where positional notation ends,
how whole numbers and exponents look, what stands for the values that are no numbers.  `plain` is the
layout of texts for people, `json` the one of JSON texts.  `fixed` writes a given number of places
instead of the fewest digits.
-/

namespace ChartParsing.Decimal

/-- The decisions of a written form. -/
structure Layout where
  /-- Which of two equally near decimals is written. -/
  tie : Tie
  /-- The exponents of the first digit for which positional notation is used; `none` for all. -/
  positional : Option (Int × Int)
  /-- What follows a whole number in positional notation. -/
  whole : String
  nan : String
  infinity : String
  negativeInfinity : String

/-- Positional notation always, and nothing after a whole number. -/
def plain : Layout := ⟨.up, none, "", "NaN", "inf", "-inf"⟩

/-- Positional notation from the fifth place after the point to the sixteenth before it, and whole
numbers with one zero after the point.  What JSON cannot write is `null`. -/
def json : Layout := ⟨.even, some (-5, 15), ".0", "null", "null", "null"⟩

/-- The decimal digits of a natural number. -/
def natText (n : Nat) : String := String.ofList (Nat.toDigits 10 n)

/-- The decimal digits of an integer, with a minus sign if it is negative. -/
def intText (n : Int) : String := if n < 0 then "-" ++ natText n.natAbs else natText n.natAbs

/-- A row of zeros. -/
def zeros (n : Nat) : List Char := List.replicate n '0'

/-- Digits in positional notation. -/
def Digits.inPlaces (whole : String) (d : Digits) : String :=
  let ds := Nat.toDigits 10 d.digits
  if 0 ≤ d.power then String.ofList (ds ++ zeros d.power.toNat) ++ whole
  else
    let places := (-d.power).toNat
    if places < ds.length then
      String.ofList (ds.take (ds.length - places)) ++ "."
        ++ String.ofList (ds.drop (ds.length - places))
    else "0." ++ String.ofList (zeros (places - ds.length) ++ ds)

/-- Digits with an exponent: a point after the first digit if there are more, and the sign of the
exponent. -/
def Digits.withExponent (d : Digits) : String :=
  let ds := Nat.toDigits 10 d.digits
  let exponent := d.power + ds.length - 1
  let mantissa := if ds.length = 1 then String.ofList ds
    else String.ofList (ds.take 1) ++ "." ++ String.ofList (ds.drop 1)
  mantissa ++ "e" ++ (if exponent < 0 then "-" else "+") ++ natText exponent.natAbs

/-- The text of a number in a layout. -/
def Layout.write (l : Layout) (x : Float) : String :=
  match Binary.unpack x with
  | .nan => l.nan
  | .infinite true => l.negativeInfinity
  | .infinite false => l.infinity
  | .finite negative significand power =>
      let sign := if negative then "-" else ""
      if significand = 0 then sign ++ Digits.inPlaces l.whole ⟨0, 0⟩
      else
        let d := shortest l.tie significand power
        let exponent := d.power + (Nat.toDigits 10 d.digits).length - 1
        let isPositional := match l.positional with
          | none => true
          | some (low, high) => low ≤ exponent ∧ exponent ≤ high
        sign ++ (if isPositional then d.inPlaces l.whole else d.withExponent)

/-- The text of a number with a fixed number of places, rounded from its exact value; an exact half
goes to the even digit. -/
def fixed (places : Nat) (x : Float) : String :=
  match Binary.unpack x with
  | .nan => plain.nan
  | .infinite true => plain.negativeInfinity
  | .infinite false => plain.infinity
  | .finite negative significand power =>
      let units := Binary.divNearest (significand * pow10 places * pow2 power.toNat)
        (pow2 (-power).toNat)
      let ds := Nat.toDigits 10 units
      let ds := zeros (places + 1 - ds.length) ++ ds
      let text := String.ofList (ds.take (ds.length - places))
      (if negative then "-" else "") ++ text
        ++ (if places = 0 then "" else "." ++ String.ofList (ds.drop (ds.length - places)))

end ChartParsing.Decimal
