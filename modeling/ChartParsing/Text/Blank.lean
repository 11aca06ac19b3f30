import ChartParsing.Unicode.CharSet
import ChartParsing.Text.Offset

/-!
# Blank characters

Blanks are the characters with the property White_Space.  A terminal's match is followed by a run of
them that belongs to nothing, `blankRun` bytes long.
-/

namespace ChartParsing

/-- The blank characters. -/
def blanks : CharSet :=
  ⟨[(0x09, 0x0D), (0x20, 0x20), (0x85, 0x85), (0xA0, 0xA0), (0x1680, 0x1680), (0x2000, 0x200A),
    (0x2028, 0x2029), (0x202F, 0x202F), (0x205F, 0x205F), (0x3000, 0x3000)]⟩

/-- Is the character blank? -/
def isBlank (c : Char) : Bool := blanks.contains c

namespace Text

/-- Drops the blanks at the start. -/
def dropBlanks (t : Text) : Text := t.dropWhile isBlank

/-- Drops the blanks at both ends. -/
def trim (t : Text) : Text := (dropBlanks (dropBlanks t).reverse).reverse

/-- The bytes of the blanks that a text starts with. -/
def leadingBlanks (t : Text) : Nat := byteLength (t.takeWhile isBlank)

/-- The bytes of the blanks at an offset; none where there is no place between characters. -/
def blankRun (t : Text) (offset : Nat) : Nat :=
  match t.seek? offset with
  | some c => leadingBlanks c.rest
  | none => 0

/-! ### Parts -/

/-- The parts of a text between the characters that satisfy `p`. -/
def splitAt (p : Char → Bool) : Text → List Text
  | [] => [[]]
  | c :: cs =>
      if p c then [] :: splitAt p cs
      else match splitAt p cs with
        | [] => [[c]]
        | part :: parts => (c :: part) :: parts

/-- The lines of a text: what ends in a line feed, or in a carriage return and a line feed, and what
is left at the end unless it is empty. -/
def lines (t : Text) : List Text :=
  let parts := splitAt (· = '\n') t
  let ended := parts.dropLast.map (fun l => if l.getLast? = some '\r' then l.dropLast else l)
  match parts.getLast? with
  | none | some [] => ended
  | some l => ended ++ [l]

end Text

end ChartParsing
