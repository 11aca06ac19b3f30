import ChartParsing.Grammar
import ChartParsing.Grammar.Lexeme
import ChartParsing.Vocabulary

/-!
# Grammar texts

A grammar's text is a row of rules `LHS -> ALTERNATIVE || ALTERNATIVE …`.  An alternative is a row of
items in any order: symbols, options `key: value` and at most one action.  It ends where `||` stands,
where the next rule starts, or with the text.

Every reader answers what it read together with the rest of the text.  Loops get the length of the text
as their fuel, for each round takes at least one character.
-/

namespace ChartParsing

namespace Source

/-- The failure at the start of `rest`, where something else was expected. -/
def unexpected (expected : Expected) (rest : Text) : Failure :=
  .grammarSyntax [] (.mismatch expected rest)

/-- What was read, or the failure to find it. -/
def required {α : Type} (expected : Expected) (t : Text) : Option α → Except Failure α
  | some a => .ok a
  | none => .error (unexpected expected t)

/-- Says where the failure of a reader was met. -/
def within {α : Type} (place : String) : Except Failure α → Except Failure α
  | .ok a => .ok a
  | .error e => .error (e.within place)

/-- A name. -/
def readName (t : Text) : Except Failure (String × Text) := do
  let (name, rest) ← within "name" (required .name t (Lexeme.name? t))
  .ok (String.ofList name, rest)

/-! ### Options -/

/-- An option of a rule. -/
inductive RuleOption where
  | entity (flag : Bool)
  | weight (w : Float)
  | priority (p : Int)
  | precedence (classes : List (String × Int))
  | left (classes : List String)
  | right (classes : List String)
  | non (classes : List String)

/-- Sets an option. -/
def RuleOption.addTo (r : Rule) : RuleOption → Rule
  | .entity flag => r.withEntity flag
  | .weight w => r.withWeight w
  | .priority p => r.withPriority p
  | .precedence classes => classes.foldl (fun r (c, v) => r.withPrecedence c v) r
  | .left classes => classes.foldl Rule.withLeft r
  | .right classes => classes.foldl Rule.withRight r
  | .non classes => classes.foldl Rule.withNon r

/-- The keys of options. -/
inductive OptionKey where
  | entity
  | weight
  | priority
  | precedence
  | left
  | right
  | non
deriving DecidableEq, Repr

namespace OptionKey

/-- The word for a key. -/
def word : OptionKey → String
  | entity => "entity"
  | weight => "weight"
  | priority => "priority"
  | precedence => "opPrecedence"
  | left => "left_assoc"
  | right => "right_assoc"
  | non => "non_assoc"

/-- All keys. -/
def all : List OptionKey := [entity, weight, priority, precedence, left, right, non]

end OptionKey

/-- The key of an option and the colon behind it. -/
def optionKey? (t : Text) : Option (OptionKey × Text) :=
  OptionKey.all.findSome? (fun key =>
    match t.dropPrefix? key.word.toList with
    | some rest => (Lexeme.colon? rest).map (fun r => (key, r))
    | none => none)

/-- The value of a precedence, if it is in range. -/
def precedenceValue (p : Lexeme.Precedence) : Except Failure (String × Int) :=
  match Decimal.readInt? (String.ofList p.value) with
  | some v => .ok (String.ofList p.cls, v)
  | none => .error (.grammarSyntax [] (.badPrecedence (String.ofList p.written)))

/-- The value of a weight. -/
def weightValue (text : Text) : Except Failure Float :=
  match Decimal.readFloat? (String.ofList text) with
  | some w => .ok w
  | none => .error (.grammarSyntax [] (.badWeight (String.ofList text)))

/-- The value of a priority, if it is in range. -/
def priorityValue (text : Text) : Except Failure Int :=
  match Decimal.readInt? (String.ofList text) with
  | some p => .ok p
  | none => .error (.grammarSyntax [] (.badPriority (String.ofList text)))

/-- The classes of an option that lists them. -/
def readClasses (place : String) (t : Text) : Except Failure (List String × Text) := do
  let (classes, rest) ← within place (required .classes t (Lexeme.classes? t))
  .ok (classes.map String.ofList, rest)

/-- The value of the option with this key. -/
def readOption (key : OptionKey) (t : Text) : Except Failure (RuleOption × Text) :=
  let place := "option " ++ key.word
  match key with
  | .entity => do
      let (flag, rest) ← within place (required .flag t (Lexeme.flag? t))
      .ok (.entity flag, rest)
  | .weight => do
      let (text, rest) ← within place (required .weight t (Lexeme.decimal? t))
      .ok (.weight (← weightValue text), rest)
  | .priority => do
      let (text, rest) ← within place (required .priority t (Lexeme.integer? t))
      .ok (.priority (← priorityValue text), rest)
  | .precedence => do
      let (list, rest) ← within place (required .precedences t (Lexeme.precedences? t))
      .ok (.precedence (← list.mapM precedenceValue), rest)
  | .left => do
      let (classes, rest) ← readClasses place t
      .ok (.left classes, rest)
  | .right => do
      let (classes, rest) ← readClasses place t
      .ok (.right classes, rest)
  | .non => do
      let (classes, rest) ← readClasses place t
      .ok (.non classes, rest)

/-! ### Items -/

/-- One item of an alternative. -/
inductive Item where
  | symbol (s : Symbol)
  | action (a : Action)
  | option (o : RuleOption)

/-- The next item.  What looks like none of the others has to be a nonterminal. -/
def readItem (v : Vocabulary) (t : Text) : Except Failure (Item × Text) :=
  if let some (key, rest) := optionKey? t then do
    let (o, rest) ← readOption key rest
    .ok (.option o, rest)
  else if let some (name, rest) := Lexeme.action? t then do
    .ok (.action (← v.action (String.ofList name)), rest)
  else if let some (text, rest) := Lexeme.literal? t then
    .ok (.symbol (.literal (String.ofList text)), rest)
  else if let some (source, rest) := Lexeme.pattern? t then do
    let terminal ← PatternTerminal.compile (String.ofList source) false .anywhere
    .ok (.symbol (.pattern terminal), rest)
  else if let some (name, rest) := Lexeme.entity? t then do
    .ok (.symbol (← v.entity (String.ofList name)), rest)
  else if let some (name, rest) := Lexeme.gap? t then do
    .ok (.symbol (← v.gap (String.ofList name)), rest)
  else do
    let (name, rest) ← within "symbol" (readName t)
    .ok (.symbol (.nonterminal name), rest)

/-- Puts an item into a rule, which may have one action only. -/
def Item.addTo (r : Rule) : Item → Except Failure Rule
  | .symbol s => .ok { r with rhs := r.rhs ++ [s] }
  | .action a =>
      if r.action.isSome then .error (.grammarSyntax ["rule " ++ r.lhs] .secondAction)
      else .ok (r.withAction a)
  | .option o => .ok (o.addTo r)

/-! ### Rules -/

/-- The text between two alternatives. -/
def bar : Text := "||".toList

/-- Does an alternative end here? -/
def endsAlternative (t : Text) : Bool := t.isEmpty || t.startsWith bar || Lexeme.isRuleStart t

/-- Reads the items that are left of an alternative into its rule. -/
def readItems (v : Vocabulary) : Nat → Rule → Text → Except Failure (Rule × Text)
  | 0, r, t => .ok (r, Lexeme.dropSpace t)
  | fuel + 1, r, t =>
      let t := Lexeme.dropSpace t
      if endsAlternative t then .ok (r, t)
      else do
        let (item, rest) ← within ("rule " ++ r.lhs) (readItem v t)
        readItems v fuel (← item.addTo r) rest

/-- One alternative of a rule for `lhs`. -/
def readAlternative (v : Vocabulary) (lhs : String) (t : Text) : Except Failure (Rule × Text) :=
  readItems v t.length (Rule.of lhs []) t

/-- The alternatives of a rule. -/
def readAlternatives (v : Vocabulary) (lhs : String) :
    Nat → Text → Except Failure (List Rule × Text)
  | 0, t => .ok ([], t)
  | fuel + 1, t => do
      let (rule, rest) ← readAlternative v lhs t
      match rest.dropPrefix? bar with
      | none => .ok ([rule], rest)
      | some rest =>
          let (rules, rest) ← readAlternatives v lhs fuel rest
          .ok (rule :: rules, rest)

/-- A left side, an arrow, and alternatives. -/
def readRule (v : Vocabulary) (t : Text) : Except Failure (List Rule × Text) := do
  let (lhs, rest) ← within "rule symbol" (readName t)
  let rest := Lexeme.dropSpace rest
  let rest ← within "rule arrow" (required .arrow rest (rest.dropPrefix? "->".toList))
  readAlternatives v lhs (rest.length + 1) rest

/-- All rules up to the end of the text. -/
def readRulesFrom (v : Vocabulary) : Nat → Text → Except Failure (List Rule)
  | 0, _ => .ok []
  | fuel + 1, t =>
      let t := Lexeme.dropSpace t
      if t.isEmpty then .ok []
      else do
        let (rules, rest) ← readRule v t
        let others ← readRulesFrom v fuel rest
        .ok (rules ++ others)

/-- All rules of a text. -/
def readRules (v : Vocabulary) (t : Text) : Except Failure (List Rule) :=
  readRulesFrom v (t.length + 1) t

end Source

namespace Grammar

/-- Adds the rules of a text; also says how many were new. -/
def extend (g : Grammar) (v : Vocabulary) (source : String) : Except Failure (Grammar × Nat) := do
  let rules ← Source.readRules v source.toList
  .ok (g.addAll rules)

/-- The grammar of a text, which has to have a rule. -/
def load (v : Vocabulary) (source : String) : Except Failure Grammar := do
  let (g, added) ← empty.extend v source
  if added = 0 then .error (.grammarSyntax [] .noRules) else .ok g

end Grammar

end ChartParsing
