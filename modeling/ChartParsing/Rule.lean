import ChartParsing.Action
import ChartParsing.Operators
import ChartParsing.Symbol

/-!
# Rules

A rule says that a nonterminal can stand for a row of symbols.  It can have an action, a weight that
readings are multiplied by, a priority among the rules that compete for a place, operator tags, and
the mark of an entity: only entities are reported.

`Rule.render` is the rule's identity: two rules with the same text are the same rule to a grammar.
-/

namespace ChartParsing

/-- A rule of a grammar. -/
structure Rule where
  lhs : String
  rhs : List Symbol
  action : Option Action
  weight : Float
  priority : Option Int
  entity : Bool
  operators : Operators

namespace Rule

/-- A rule without options. -/
def of (lhs : String) (rhs : List Symbol) : Rule :=
  ⟨lhs, rhs, none, 1.0, none, false, Operators.none⟩

/-- A rule whose left side is a symbol, which has to be a nonterminal. -/
def ofSymbols (lhs : Symbol) (rhs : List Symbol) : Except Failure Rule :=
  match lhs with
  | .nonterminal name => .ok (of name rhs)
  | other => .error (.leftSideNotNonterminal other.render)

/-! ### Options -/

/-- Gives the rule an action. -/
def withAction (r : Rule) (a : Action) : Rule := { r with action := some a }

/-- Sets the weight. -/
def withWeight (r : Rule) (w : Float) : Rule := { r with weight := w }

/-- Sets the priority. -/
def withPriority (r : Rule) (p : Int) : Rule := { r with priority := some p }

/-- Marks the rule as an entity, or not. -/
def withEntity (r : Rule) (entity : Bool) : Rule := { r with entity := entity }

/-- Sets the precedence in a class. -/
def withPrecedence (r : Rule) (cls : String) (value : Int) : Rule :=
  { r with operators := { r.operators with
    precedence := insertPrecedence cls value r.operators.precedence } }

/-- Adds a class in which the rule associates to the left. -/
def withLeft (r : Rule) (cls : String) : Rule :=
  { r with operators := { r.operators with left := insertClass cls r.operators.left } }

/-- Adds a class in which the rule associates to the right. -/
def withRight (r : Rule) (cls : String) : Rule :=
  { r with operators := { r.operators with right := insertClass cls r.operators.right } }

/-- Adds a class in which the rule does not associate. -/
def withNon (r : Rule) (cls : String) : Rule :=
  { r with operators := { r.operators with non := insertClass cls r.operators.non } }

/-! ### Properties -/

/-- The number of symbols. -/
def length (r : Rule) : Nat := r.rhs.length

/-- Has the rule no symbols? -/
def isEmpty (r : Rule) : Bool := r.rhs.isEmpty

/-- The first symbol. -/
def first? (r : Rule) : Option Symbol := r.rhs.head?

/-- Does the rule start with a terminal that can be found by looking through the input? -/
def startsWithTerminal (r : Rule) : Bool := r.first?.any Symbol.isScannable

/-- Does the rule start with this symbol, or with none? -/
def startsWith (r : Rule) (first : Option Symbol) : Bool :=
  match first, r.first? with
  | none, none => true
  | some s, some t => s.same t
  | _, _ => false

/-! ### Text -/

/-- The options that a rule's text shows, those of operators last. -/
def options (r : Rule) : List String :=
  (if r.entity then ["entity: true"] else [])
    ++ (if r.weight != 1.0 then ["weight: " ++ Decimal.plain.write r.weight] else [])
    ++ (match r.priority with
      | some p => ["priority: " ++ Decimal.intText p]
      | none => [])
    ++ (if r.operators.precedence.isEmpty then []
        else ["opPrecedence: " ++ String.intercalate ","
          (r.operators.precedence.map (fun (c, v) => c ++ ":" ++ Decimal.intText v))])
    ++ classes "left_assoc" r.operators.left
    ++ classes "right_assoc" r.operators.right
    ++ classes "non_assoc" r.operators.non
where
  /-- An option that lists classes. -/
  classes (key : String) (list : List String) : List String :=
    if list.isEmpty then [] else [key ++ ": " ++ String.intercalate "," list]

/-- The text of a rule. -/
def render (r : Rule) : String :=
  r.lhs ++ " ->" ++ String.join (r.rhs.map (fun s => " " ++ s.render))
    ++ (match r.action with
      | some a => " \x7b% " ++ a.name ++ " %\x7d"
      | none => "")
    ++ (if r.options.isEmpty then "" else " [" ++ String.intercalate ", " r.options ++ "]")

end Rule

end ChartParsing
