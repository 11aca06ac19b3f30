import ChartParsing.Failure
import ChartParsing.Pattern.Compiled

/-!
# Word boundaries of terminals

A terminal's match can be required to stand apart: `Boundary` says which characters may not be its
neighbours.  A neighbour that does not exist is never in the way.
-/

namespace ChartParsing

/-- A class of characters that was written as a pattern. -/
structure CharTest where
  source : String
  pattern : Pattern

/-- Compiles the pattern of a class, which has to match a character as a whole. -/
def CharTest.compile (source : String) : Except Failure CharTest :=
  match Pattern.compile false ("^(?:" ++ source ++ ")$") with
  | .ok pattern => .ok ⟨source, pattern⟩
  | .error fault => .error (.invalidPattern fault)

/-- Is the character in the class? -/
def CharTest.accepts (t : CharTest) (c : Char) : Bool := t.pattern.occursIn [c]

/-- The neighbours that a terminal's match may not have. -/
inductive Boundary where
  | anywhere
  | alpha
  | alnum
  | custom (before after : CharTest)

namespace Boundary

/-- A boundary with a class of its own for either side. -/
def ofClasses (before after : String) : Except Failure Boundary := do
  let b ← CharTest.compile before
  let a ← CharTest.compile after
  .ok (.custom b a)

/-- May the character not stand in front of a match? -/
def forbidsBefore (b : Boundary) (c : Char) : Bool :=
  match b with
  | .anywhere => false
  | .alpha => CharClass.letters.contains c
  | .alnum => CharClass.letters.contains c || CharClass.numbers.contains c
  | .custom before _ => before.accepts c

/-- May the character not stand behind a match? -/
def forbidsAfter (b : Boundary) (c : Char) : Bool :=
  match b with
  | .custom _ after => after.accepts c
  | other => other.forbidsBefore c

/-- May a match stand between these neighbours? -/
def accepts (b : Boundary) (before after : Option Char) : Bool :=
  !before.any b.forbidsBefore && !after.any b.forbidsAfter

/-- May a match stand from one offset to the other? -/
def acceptsSpan (b : Boundary) (input : Text) (start stop : Nat) : Bool :=
  b.accepts ((input.seek? start).bind Cursor.before) ((input.seek? stop).bind Cursor.after)

/-- The text of a boundary, which is part of a terminal's identity. -/
def render : Boundary → String
  | .anywhere => ""
  | .alpha => "alpha"
  | .alnum => "alnum"
  | .custom before after => "custom(" ++ before.source ++ "," ++ after.source ++ ")"

/-- Does the boundary restrict nothing? -/
def isAnywhere : Boundary → Bool
  | .anywhere => true
  | _ => false

end Boundary

end ChartParsing
