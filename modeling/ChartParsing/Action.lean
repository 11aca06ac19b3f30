import ChartParsing.Reading

/-!
# Semantic actions

An action computes the value of a rule's reading from the values of its arguments.  It may also set
the reading's weight and trace itself.  Its name is part of the identity of the rules that use it.

Without an action a reading takes the value of its only argument, the list of the values of several,
or nothing.
-/

namespace ChartParsing

/-- What an action sees besides the values of the arguments. -/
structure ActionContext where
  lhs : String
  start : Position
  stop : Position
  children : Arguments

/-- What an action answers. -/
inductive Reduction where
  /-- A value; weight and trace are the usual ones. -/
  | value (v : Value)
  /-- A value, with a weight and a trace of its own where they are given. -/
  | node (v : Value) (weight : Option Float) (trace : Option String)

/-- A semantic action. -/
structure Action where
  name : String
  run : ActionContext → List Value → Reduction

namespace Action

/-- An action that only computes a value. -/
def ofFunction (name : String) (f : ActionContext → List Value → Value) : Action :=
  ⟨name, fun ctx args => .value (f ctx args)⟩

/-- The same action under another name. -/
def named (a : Action) (name : String) : Action := { a with name := name }

/-- The action without a name of its own that has this number: it says nothing. -/
def anonymous (number : Nat) : Action :=
  ofFunction ("fn#" ++ toString number) (fun _ _ => .null)

/-- The text that shows an action. -/
def describe (a : Action) : String := "Semantic(" ++ a.name ++ ")"

/-! ### Actions that every grammar can use -/

/-- The shown values, one after the other. -/
def concat : Action :=
  ofFunction "concat" (fun _ args => .text (String.join (args.map Value.render)))

/-- The shown values with blanks between them. -/
def join : Action :=
  ofFunction "join" (fun _ args => .text (String.intercalate " " (args.map Value.render)))

/-- All values as a list. -/
def list : Action := ofFunction "list" (fun _ args => .list args)

/-- The first value as a number. -/
def number : Action :=
  ofFunction "number" (fun _ args =>
    match args.head?.bind Value.number? with
    | some x => .number x
    | none => .null)

/-- Nothing. -/
def null : Action := ofFunction "null" (fun _ _ => .null)

/-- The first value. -/
def first : Action := ofFunction "first" (fun _ args => args.headD .null)

/-- The last value. -/
def last : Action := ofFunction "last" (fun _ args => args.getLastD .null)

/-- The actions that a vocabulary starts with. -/
def standard : List Action := [concat, join, list, number, null, first, last]

end Action

namespace Arguments

/-- The value of a reading without an action. -/
def plainValue (args : Arguments) : Value :=
  match args.values with
  | [] => .null
  | [v] => v
  | vs => .list vs

/-- The reading of a rule over these arguments. -/
def apply (args : Arguments) (action : Option Action) (weight : Float) (lhs : String)
    (start stop : Position) : Reading :=
  let usualWeight := args.weight * weight
  let usualTrace := args.trace lhs
  let reduction := match action with
    | some a => a.run ⟨lhs, start, stop, args⟩ args.values
    | none => .value args.plainValue
  match reduction with
  | .value v => ⟨v, usualWeight, usualTrace, start, stop⟩
  | .node v weight trace =>
      ⟨v, weight.getD usualWeight, trace.getD usualTrace, start, stop⟩

end Arguments

end ChartParsing
