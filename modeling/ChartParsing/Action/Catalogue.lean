import ChartParsing.Action

/-!
# A catalogue of further actions

Arithmetic on two arguments with an operator between them, counts, pairs of texts, and actions that
show what they were given.  A number that is missing, or cannot be read, is not a number, and a text
that is missing is empty.
-/

namespace ChartParsing.Action

/-- The number at a place among the arguments. -/
def numberAt (args : List Value) (i : Nat) : Float :=
  ((args[i]?).bind Value.number?).getD (0.0 / 0.0)

/-- The shown value at a place among the arguments. -/
def textAt (args : List Value) (i : Nat) : String :=
  ((args[i]?).map Value.render).getD ""

/-- An action on two numbers with an operator between them. -/
def arithmetic (name : String) (op : Float → Float → Float) : Action :=
  ofFunction name (fun _ args => .number (op (numberAt args 0) (numberAt args 2)))

/-- The sum of all arguments that are numbers. -/
def total (args : List Value) : Float :=
  args.foldl (fun sum v => match v.number? with
    | some x => sum + x
    | none => sum) 0.0

/-- The place and the children of the reading. -/
def contextText (ctx : ActionContext) : String :=
  ctx.lhs ++ "@" ++ ctx.start.render ++ "-" ++ ctx.stop.render ++ "["
    ++ String.intercalate "|" (ctx.children.map Reading.render) ++ "]"

/-- The weights of the children, added up and halved. -/
def halfWeight (ctx : ActionContext) : Float :=
  (ctx.children.foldl (fun sum r => sum + r.weight) 0.0) / 2.0

/-- The actions of the catalogue. -/
def catalogue : List Action :=
  [arithmetic "add" (· + ·),
   arithmetic "sub" (· - ·),
   arithmetic "mul" (· * ·),
   arithmetic "div" (· / ·),
   arithmetic "pow" Float.pow,
   ofFunction "neg" (fun _ args => .number (-(numberAt args 1))),
   ofFunction "inc" (fun _ args => .number (numberAt args 0 + 1.0)),
   ofFunction "one" (fun _ _ => .number 1.0),
   ofFunction "sum" (fun _ args => .number (total args)),
   ofFunction "count" (fun _ args => .number args.length.toFloat),
   ofFunction "paren" (fun _ args => (args[1]?).getD .null),
   ofFunction "pair" (fun _ args => .text (textAt args 0 ++ ":" ++ textAt args 1)),
   ofFunction "swap" (fun _ args => .text (textAt args 1 ++ " " ++ textAt args 0)),
   ofFunction "yes" (fun _ _ => .bool true),
   ofFunction "blank" (fun _ _ => .text ""),
   ofFunction "ctx" (fun ctx _ => .text (contextText ctx)),
   ofFunction "node_value" (fun _ args => .list args),
   ⟨"heavy", fun _ args => .node (args.headD .null) (some 9.5) none⟩,
   ⟨"rename", fun ctx args => .node (.list args) none (some ("<" ++ ctx.lhs ++ ">"))⟩,
   ⟨"both", fun ctx args =>
     .node (.number args.length.toFloat) (some (halfWeight ctx)) (some "both")⟩]

end ChartParsing.Action
