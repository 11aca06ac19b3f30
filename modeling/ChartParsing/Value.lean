import ChartParsing.Decimal.Layout
import ChartParsing.Decimal.Reader
import ChartParsing.Text.Blank

/-!
# Values

Values are what semantic actions compute with: nothing, truth values, numbers, texts and lists.  The
value of a terminal's match is its text.
-/

namespace ChartParsing

/-- Data that actions compute. -/
inductive Value where
  | null
  | bool (b : Bool)
  | number (x : Float)
  | text (s : String)
  | list (items : List Value)
deriving Inhabited

namespace Value

/-- The number that a value is, or that its text writes between blanks. -/
def number? : Value → Option Float
  | .number x => some x
  | .text s => Decimal.readFloat? (String.ofList (Text.trim s.toList))
  | _ => none

/-- The text of a value that is one. -/
def text? : Value → Option String
  | .text s => some s
  | _ => none

/-- Is this the value that says nothing? -/
def isNull : Value → Bool
  | .null => true
  | _ => false

/-- The words for truth values. -/
def boolText (b : Bool) : String := if b then "true" else "false"

mutual

/-- How a value is shown: nothing for `null`, and the items of a list with commas between them. -/
def render : Value → String
  | .null => ""
  | .bool b => boolText b
  | .number x => Decimal.plain.write x
  | .text s => s
  | .list items => String.intercalate "," (renderAll items)

/-- How each of several values is shown. -/
def renderAll : List Value → List String
  | [] => []
  | v :: vs => render v :: renderAll vs

end

mutual

/-- The texts in a value, from left to right. -/
def texts : Value → List String
  | .text s => [s]
  | .list items => textsAll items
  | _ => []

/-- The texts in several values. -/
def textsAll : List Value → List String
  | [] => []
  | v :: vs => texts v ++ textsAll vs

end

end Value

end ChartParsing
