/-!
# Arguments of the command

The command takes one grammar file and some switches.  A switch has a long name after two hyphens, and
most have a letter after one.  Letters can be written together.  The value of a switch is what follows
its letter or the `=` behind its name, or else the next argument, which may not look like a switch.
After `--` there are no switches any more.

Arguments are read from left to right, and the first one that is wrong, or that asks for help or for the
version, decides what becomes of the whole.
-/

namespace ChartParsing.CommandLine

/-- What the command was asked to do. -/
structure Options where
  grammar : String
  strategy : String
  partialToo : Bool
  json : Bool
  chart : Bool
  entities : List String
  ignoreCase : Bool
deriving DecidableEq, Repr

/-- The switches. -/
inductive Switch where
  | parser
  | partialToo
  | json
  | chart
  | entity
  | ignoreCase
  | help
  | version
deriving DecidableEq, Repr

namespace Switch

/-- All switches. -/
def all : List Switch := [parser, partialToo, json, chart, entity, ignoreCase, help, version]

/-- The long name. -/
def name : Switch → String
  | parser => "parser"
  | partialToo => "partial"
  | json => "json"
  | chart => "chart"
  | entity => "entity"
  | ignoreCase => "ignore-case"
  | help => "help"
  | version => "version"

/-- The letter. -/
def letter? : Switch → Option Char
  | parser => some 'p'
  | partialToo => none
  | json => some 'j'
  | chart => some 'c'
  | entity => some 'e'
  | ignoreCase => some 'i'
  | help => some 'h'
  | version => some 'V'

/-- Has the switch a value? -/
def hasValue (s : Switch) : Bool := s = parser || s = entity

/-- May the switch be given more than once? -/
def isRepeatable (s : Switch) : Bool := s = entity

/-- The switch with this long name. -/
def ofName? (text : String) : Option Switch := all.find? (fun s => s.name = text)

/-- The switch with this letter. -/
def ofLetter? (c : Char) : Option Switch := all.find? (fun s => s.letter? = some c)

end Switch

/-- What the arguments come to. -/
inductive Request where
  | run (o : Options)
  | help
  | version
  /-- The arguments are wrong. -/
  | refused
deriving DecidableEq, Repr

/-- What the arguments said so far. -/
structure Draft where
  grammar : Option String
  given : List Switch
  options : Options
deriving DecidableEq, Repr

namespace Draft

/-- Nothing was said yet. -/
def start : Draft := ⟨none, [], ⟨"", "topDown", false, false, false, [], false⟩⟩

/-- Takes a switch with its value, empty for those that have none. -/
def take (d : Draft) (s : Switch) (value : String) : Except Request Draft :=
  if d.given.contains s && !s.isRepeatable then .error .refused
  else
    let d := { d with given := s :: d.given }
    match s with
    | .parser => .ok { d with options.strategy := value }
    | .partialToo => .ok { d with options.partialToo := true }
    | .json => .ok { d with options.json := true }
    | .chart => .ok { d with options.chart := true }
    | .entity => .ok { d with options.entities := d.options.entities ++ [value] }
    | .ignoreCase => .ok { d with options.ignoreCase := true }
    | .help => .error .help
    | .version => .error .version

/-- Takes the grammar file, which there is one of and has a name. -/
def takeGrammar (d : Draft) (path : String) : Except Request Draft :=
  if d.grammar.isSome || path.isEmpty then .error .refused else .ok { d with grammar := some path }

/-- Takes switches by their letters.  Also answers the switch that still needs a value, if there is
one. -/
def takeLetters (d : Draft) : List Char → Except Request (Draft × Option Switch)
  | [] => .ok (d, none)
  | c :: rest =>
      match Switch.ofLetter? c with
      | none => .error .refused
      | some s =>
          if s.hasValue then
            match rest with
            | [] => .ok (d, some s)
            | '=' :: value => do .ok (← d.take s (String.ofList value), none)
            | value => do .ok (← d.take s (String.ofList value), none)
          else do takeLetters (← d.take s "") rest

/-- Takes a switch by its name, with the value behind `=` if there is one.  Also answers the switch if
it still needs a value. -/
def takeName (d : Draft) (text : List Char) : Except Request (Draft × Option Switch) :=
  let name := String.ofList (text.takeWhile (· ≠ '='))
  match Switch.ofName? name, text.dropWhile (· ≠ '=') with
  | none, _ => .error .refused
  | some s, [] => if s.hasValue then .ok (d, some s) else do .ok (← d.take s "", none)
  | some s, _ :: value =>
      if s.hasValue then do .ok (← d.take s (String.ofList value), none) else .error .refused

/-- What a draft comes to in the end. -/
def finish (d : Draft) : Request :=
  match d.grammar with
  | some path => .run { d.options with grammar := path }
  | none => .refused

end Draft

/-- Does an argument look like a switch? -/
def looksLikeSwitch (arg : String) : Bool :=
  match arg.toList with
  | '-' :: _ :: _ => true
  | _ => false

/-- Reads arguments; `waiting` is a switch that needs the next one as its value. -/
def readFrom (d : Draft) (waiting : Option Switch) : List String → Except Request Draft
  | [] => if waiting.isSome then .error .refused else .ok d
  | arg :: rest =>
      match waiting with
      | some s =>
          if looksLikeSwitch arg then .error .refused
          else do readFrom (← d.take s arg) none rest
      | none =>
          match arg.toList with
          | ['-', '-'] => rest.foldlM takeGrammar d
          | '-' :: '-' :: text => do
              let (d, waiting) ← d.takeName text
              readFrom d waiting rest
          | '-' :: c :: letters => do
              let (d, waiting) ← d.takeLetters (c :: letters)
              readFrom d waiting rest
          | _ => do readFrom (← d.takeGrammar arg) none rest
where
  /-- Takes an argument behind the last switch. -/
  takeGrammar (d : Draft) (arg : String) : Except Request Draft := d.takeGrammar arg

/-- Reads all arguments. -/
def read (args : List String) : Request :=
  match readFrom .start none args with
  | .ok d => d.finish
  | .error r => r

/-- The text of the help. -/
def helpText : String :=
  "Reads a grammar file, then parses each line of stdin against it\n"
    ++ "\n"
    ++ "Usage: chartwise [OPTIONS] <GRAMMAR>\n"
    ++ "\n"
    ++ "Arguments:\n"
    ++ "  <GRAMMAR>  Grammar file\n"
    ++ "\n"
    ++ "Options:\n"
    ++ "  -p, --parser <PARSER>     Parsing strategy: topDown, bottomUp or bottomUpApprox "
    ++ "[default: topDown]\n"
    ++ "      --partial             Also report entities that don't span the whole line\n"
    ++ "  -j, --json                Print results as JSON\n"
    ++ "  -c, --chart               Print the parse chart\n"
    ++ "  -e, --entity <NAME=FILE>  Entity list as NAME=FILE, one entity per line\n"
    ++ "  -i, --ignore-case         Match entities case-insensitively\n"
    ++ "  -h, --help                Print help\n"
    ++ "  -V, --version             Print version\n"

/-- The text of the version. -/
def versionText : String := "chartwise 0.1.0\n"

end ChartParsing.CommandLine
