import ChartParsing.Symbol
import ChartParsing.Text.Blank

/-!
# Lexers

A lexer says what a symbol matches at an offset of the input, and where the next symbol may start.  The
usual one takes the symbol's own match and skips the blanks behind it.  The others differ in what they
skip, in the texts that they answer, or in what they refuse.
-/

namespace ChartParsing

/-- What a symbol matches at an offset. -/
abbrev Lexer := Symbol → Text → Nat → Option Match

namespace Lexer

/-- The match of the symbol itself. -/
def exact : Lexer := Symbol.matchAt?

/-- The match of the symbol, and then the blanks behind it. -/
def skippingBlanks : Lexer := fun s input start =>
  (s.matchAt? input start).map (fun m => ⟨m.texts, m.stop + input.blankRun m.stop⟩)

/-- How many characters of a kind stand at an offset. -/
def countOf (c : Char) (input : Text) (offset : Nat) : Nat :=
  match input.seek? offset with
  | some cursor => (cursor.rest.takeWhile (· = c)).length
  | none => 0

/-- The match of the symbol, and then the hyphens behind it. -/
def skippingHyphens : Lexer := fun s input start =>
  (s.matchAt? input start).map (fun m => ⟨m.texts, m.stop + countOf '-' input m.stop⟩)

/-- The usual match with other texts. -/
def mapTexts (f : List String → List String) : Lexer := fun s input start =>
  (skippingBlanks s input start).map (fun m => ⟨f m.texts, m.stop⟩)

/-- The usual match with one text for each character. -/
def splitting : Lexer :=
  mapTexts (fun texts => texts.flatMap (fun t => t.toList.map Char.toString))

/-- The usual match without its texts. -/
def dropping : Lexer := mapTexts (fun _ => [])

/-- The usual match with the letters of ASCII in upper case. -/
def raising : Lexer := mapTexts (fun texts => texts.map (fun t => t.map Char.toUpper))

/-- The usual match, but nothing for symbols of this name. -/
def refusing (name : String) : Lexer := fun s input start =>
  if s.name = name then none else skippingBlanks s input start

end Lexer

end ChartParsing
