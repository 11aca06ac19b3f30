import ChartParsing.Pattern.Syntax
import ChartParsing.Text.Quoted

/-!
# What can go wrong

`Failure` lists the causes for which building a grammar, parsing or reading results can fail, and
`Failure.message` words them.  Faults of a grammar's text are a type of their own, `SyntaxFault`, with
the places in the text where they were met around them.
-/

namespace ChartParsing

/-- What the reader of grammar texts looks for, where nothing else will do. -/
inductive Expected where
  | name
  | arrow
  | flag
  | weight
  | priority
  | classes
  | precedences
deriving DecidableEq, Repr

/-- The pattern by which a message describes what was looked for. -/
def Expected.description : Expected → String
  | .name => "^[A-Za-z_][A-Za-z0-9_]*"
  | .arrow => "^->"
  | .flag => "^(?:true|false)\\b"
  | .weight => "^-?\\d+(?:\\.\\d+)?"
  | .priority => "^-?\\d+"
  | .classes => "^[A-Za-z0-9_]+(?:\\s*,\\s*[A-Za-z0-9_]+)*"
  | .precedences =>
      "^[A-Za-z0-9_]+\\s*:\\s*-?\\d+(?:\\s*,\\s*[A-Za-z0-9_]+\\s*:\\s*-?\\d+)*"

/-- What can be wrong with a grammar's text. -/
inductive SyntaxFault where
  /-- Something else was expected in front of the rest of the text. -/
  | mismatch (expected : Expected) (rest : Text)
  | badWeight (text : String)
  | badPriority (text : String)
  | badPrecedence (text : String)
  /-- A rule has more than one action. -/
  | secondAction
  /-- The text adds no rule. -/
  | noRules
deriving Repr

/-- How many characters of the rest a message shows. -/
def shownRest : Nat := 24

/-- The start of the rest of a text, quoted; dots follow if there is more. -/
def nearText (rest : Text) : String :=
  quoted (String.ofList (rest.take shownRest)) ++ (if shownRest < rest.length then "..." else "")

/-- The wording of a fault. -/
def SyntaxFault.message : SyntaxFault → String
  | .mismatch expected rest =>
      "couldn't match " ++ expected.description ++ " at " ++ nearText rest
  | .badWeight text => "bad weight " ++ text
  | .badPriority text => "bad priority " ++ text
  | .badPrecedence text => "bad precedence " ++ text
  | .secondAction => "more than one action"
  | .noRules => "empty ruleset"

/-- The causes of failure. -/
inductive Failure where
  | unknownStrategy (name : String)
  | unregisteredEntity (name : String)
  | unregisteredGap (name : String)
  | unknownAction (name : String)
  /-- An edge was to be continued over a gap but does not wait for one. -/
  | notAtGap (edge : String)
  /-- A gap has no nonterminal behind it. -/
  | gapNotFollowed (gap rule : String)
  /-- Results were asked for before anything was parsed. -/
  | inputNotSet
  /-- The left side of a rule is not a nonterminal. -/
  | leftSideNotNonterminal (symbol : String)
  /-- Derivations of one edge were to be added to another. -/
  | differentEdges (source target : String)
  | invalidPattern (fault : Pattern.Fault)
  | invalidTerminal (fault : Pattern.Fault)
  /-- A fault of a grammar's text, with the places around it, the outermost one first. -/
  | grammarSyntax (places : List String) (fault : SyntaxFault)
  /-- A parse took more steps than a lexer that stays within the input can cause. -/
  | outOfSteps
deriving Repr

namespace Failure

/-- What a message about a gap says after its heading. -/
def gapDetail : Failure → String
  | notAtGap edge => edge ++ " is not waiting on an approx terminal"
  | gapNotFollowed gap rule => gap ++ " must be followed by a nonterminal in " ++ rule
  | _ => ""

/-- What a message about a grammar's text says after its heading. -/
def syntaxDetail (places : List String) (fault : SyntaxFault) : String :=
  String.join (places.map (· ++ ": ")) ++ fault.message

/-- The wording of a failure. -/
def message : Failure → String
  | unknownStrategy name =>
      "unknown parser type `" ++ name ++ "` (expected topDown, bottomUp or bottomUpApprox)"
  | unregisteredEntity name => "unregistered entity `" ++ name ++ "`"
  | unregisteredGap name => "unregistered approx terminal `" ++ name ++ "`"
  | unknownAction name => "unknown semantic action `" ++ name ++ "`"
  | notAtGap edge => "approx terminal misuse: " ++ gapDetail (notAtGap edge)
  | gapNotFollowed gap rule => "approx terminal misuse: " ++ gapDetail (gapNotFollowed gap rule)
  | inputNotSet => "input not set (parse() was not called)"
  | leftSideNotNonterminal symbol =>
      "malformed rule: lhs must be a nonterminal, got " ++ symbol
  | differentEdges source target =>
      "cannot merge history of `" ++ source ++ "` into different edge `" ++ target ++ "`"
  | invalidPattern _ => "invalid pattern"
  | invalidTerminal _ => "invalid terminal pattern"
  | grammarSyntax places fault => "grammar syntax: " ++ syntaxDetail places fault
  | outOfSteps => "out of steps"

/-- Says where a fault of a grammar's text was met; other failures stay as they are. -/
def within (place : String) : Failure → Failure
  | grammarSyntax places fault => grammarSyntax (place :: places) fault
  | other => other

end Failure

end ChartParsing
