import ChartParsing.Position
import ChartParsing.Value

/-!
# Readings

A reading is one interpretation of a stretch of the input: a value, a weight, and a text that shows
how it came about.  The readings of the symbols of a rule, from left to right, are the `Arguments` of
the rule's reading.
-/

namespace ChartParsing

/-- One interpretation of a stretch of the input. -/
structure Reading where
  value : Value
  weight : Float
  /-- How the reading came about. -/
  trace : String
  start : Position
  stop : Position
deriving Inhabited

/-- The readings of the symbols left of the dot. -/
abbrev Arguments := List Reading

namespace Reading

/-- The reading of a terminal's match. -/
def leaf (text : String) (start stop : Position) : Reading :=
  ⟨.text text, 1.0, "\"" ++ text ++ "\"", start, stop⟩

/-- How a reading is shown. -/
def render (r : Reading) : String :=
  "NodeResult[" ++ r.start.render ++ "-" ++ r.stop.render ++ "](" ++ r.value.render ++ ", "
    ++ Decimal.plain.write r.weight ++ ", " ++ r.trace ++ ")"

end Reading

namespace Arguments

/-- Extends the arguments by each of the readings in turn. -/
def extendBy (args : Arguments) (readings : List Reading) : List Arguments :=
  readings.map (fun r => args ++ [r])

/-- Every list of arguments extended by every reading. -/
def product (lists : List Arguments) (readings : List Reading) : List Arguments :=
  lists.flatMap (fun args => extendBy args readings)

/-- The values of the arguments. -/
def values (args : Arguments) : List Value := args.map Reading.value

/-- The weights of the arguments, multiplied. -/
def weight (args : Arguments) : Float := args.foldl (fun w r => w * r.weight) 1.0

/-- The text that shows how a reading with these arguments came about. -/
def trace (lhs : String) (args : Arguments) : String :=
  lhs ++ "(" ++ String.intercalate ", " (args.map Reading.trace) ++ ")"

/-- How arguments are shown. -/
def render (args : Arguments) : String :=
  "NodeResultArgs(" ++ String.intercalate ", " (args.map Reading.render) ++ ")"

end Arguments

end ChartParsing
