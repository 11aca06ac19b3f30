import ChartParsing.Unicode.Property
import ChartParsing.Text.Offset

/-!
# Quoted texts

A quoted text stands between double quotes.  Quotes and backslashes follow a backslash, tabs and line
ends and the null character are written by a letter, and every other character that cannot be shown by
itself is written by its code point, in hexadecimal between braces.
-/

namespace ChartParsing

/-- The hexadecimal digits of a number, in lower case. -/
def hexText (n : Nat) : String := String.ofList (Nat.toDigits 16 n)

/-- How a character is written in a quoted text. -/
def quoteChar (c : Char) : String :=
  if c = '"' then "\\\""
  else if c = '\\' then "\\\\"
  else if c = '\n' then "\\n"
  else if c = '\r' then "\\r"
  else if c = '\t' then "\\t"
  else if c.toNat = 0 then "\\0"
  else if CharClass.showable.contains c then c.toString
  else "\\u\x7b" ++ hexText c.toNat ++ "\x7d"

/-- A text between double quotes. -/
def quoted (s : String) : String :=
  "\"" ++ String.join (s.toList.map quoteChar) ++ "\""

/-- Says which of two endings a count takes: none for one thing, `s` for any other number. -/
def pluralSuffix (n : Nat) : String := if n = 1 then "" else "s"

end ChartParsing
