import ChartParsing.CommandLine.Arguments
import ChartParsing.Grammar.Source
import ChartParsing.Parser
import ChartParsing.Timings
import ChartParsing.Value.Json

/-!
# Sessions of the command

A session begins with reading the grammar and the lexicons, and then answers one line of input after the
other.  Files are read through a function that is given, so that all of it is plain computation; what is
printed, and how long things took, is left to the command itself.
-/

namespace ChartParsing.CommandLine

/-! ### Files -/

/-- Why a file could not be read. -/
inductive FileFault where
  | missing
  | denied
  | isDirectory
  | notInDirectory
  | longName
  | notText
deriving DecidableEq, Repr

/-- The text that shows an error of the system. -/
def systemError (code : Nat) (kind message : String) : String :=
  "Os \x7b code: " ++ toString code ++ ", kind: " ++ kind ++ ", message: " ++ quoted message ++ " \x7d"

/-- How the fault is shown. -/
def FileFault.describe : FileFault → String
  | missing => systemError 2 "NotFound" "No such file or directory"
  | denied => systemError 13 "PermissionDenied" "Permission denied"
  | isDirectory => systemError 21 "IsADirectory" "Is a directory"
  | notInDirectory => systemError 20 "NotADirectory" "Not a directory"
  | longName => systemError 36 "InvalidFilename" "File name too long"
  | notText =>
      "Error \x7b kind: InvalidData, message: "
        ++ quoted "stream did not contain valid UTF-8" ++ " \x7d"

/-- The content of the file at a path. -/
abbrev FileReader := String → Except FileFault String

/-! ### Beginning -/

/-- Why a session could not begin. -/
inductive StartFault where
  | failure (f : Failure)
  | file (f : FileFault)
  /-- A lexicon was not given as a name and a file. -/
  | notPair (text : String)

/-- How a failure that ends the command is shown: its cause, and the texts that belong to it. -/
def describeFailure : Failure → String
  | .unknownStrategy name => "UnknownParserType(" ++ quoted name ++ ")"
  | .unregisteredEntity name => "UnregisteredEntity(" ++ quoted name ++ ")"
  | .unregisteredGap name => "UnregisteredApprox(" ++ quoted name ++ ")"
  | .unknownAction name => "UnknownAction(" ++ quoted name ++ ")"
  | .notAtGap edge => "ApproxTerminalMisuse(" ++ quoted (Failure.gapDetail (.notAtGap edge)) ++ ")"
  | .gapNotFollowed gap rule =>
      "ApproxTerminalMisuse(" ++ quoted (Failure.gapDetail (.gapNotFollowed gap rule)) ++ ")"
  | .inputNotSet => "InputNotSet"
  | .leftSideNotNonterminal symbol =>
      "MalformedRule(" ++ quoted ("lhs must be a nonterminal, got " ++ symbol) ++ ")"
  | .differentEdges source target =>
      "HistoryMismatch \x7b from: " ++ quoted source ++ ", into: " ++ quoted target ++ " \x7d"
  | .invalidPattern _ => "InvalidPattern"
  | .invalidTerminal _ => "InvalidTerminal"
  | .grammarSyntax places fault =>
      "GrammarSyntax(" ++ quoted (Failure.syntaxDetail places fault) ++ ")"
  | .outOfSteps => "OutOfSteps"

/-- How it is shown that a session could not begin. -/
def StartFault.describe : StartFault → String
  | failure f => describeFailure f
  | file f => f.describe
  | notPair text => quoted ("entity `" ++ text ++ "` is not NAME=FILE")

/-- A failure as the reason why a session could not begin. -/
def failing {α : Type} : Except Failure α → Except StartFault α
  | .ok a => .ok a
  | .error f => .error (.failure f)

/-- The content of a file, or the reason why the session could not begin. -/
def content (file : FileReader) (path : String) : Except StartFault String :=
  match file path with
  | .ok text => .ok text
  | .error f => .error (.file f)

/-- The texts of a lexicon: the lines of its file without the blanks around them, if anything is left. -/
def lexiconTexts (text : String) : List String :=
  let lines := (Text.lines text.toList).map Text.trim
  (lines.filter (fun l => !l.isEmpty)).map String.ofList

/-- Adds a lexicon that was given as `NAME=FILE`. -/
def addLexicon (file : FileReader) (ignoreCase : Bool) (v : Vocabulary) (pair : String) :
    Except StartFault Vocabulary :=
  let cs := pair.toList
  match cs.dropWhile (· ≠ '=') with
  | [] => .error (.notPair pair)
  | _ :: path => do
      let text ← content file (String.ofList path)
      failing (v.addEntity (String.ofList (cs.takeWhile (· ≠ '='))) (lexiconTexts text) ignoreCase
        .anywhere Lexicon.escape)

/-- A grammar, a parser for it, and what is to be printed. -/
structure Session where
  options : Options
  grammar : Grammar
  parser : Parser grammar

/-- Begins a session: the strategy comes first, then the lexicons, then the grammar. -/
def Session.begin (file : FileReader) (o : Options) : Except StartFault Session := do
  let strategy ← failing (Strategy.ofName o.strategy)
  let vocabulary ← o.entities.foldlM (addLexicon file o.ignoreCase) Vocabulary.standard
  let source ← content file o.grammar
  let grammar ← failing (Grammar.load vocabulary source)
  .ok ⟨o, grammar, .new grammar strategy .skippingBlanks⟩

/-! ### Answering lines -/

/-- What is written before each line is read. -/
def prompt : String := "> "

/-- What is printed for a line. -/
structure Reply where
  out : String
  err : String
deriving DecidableEq, Repr

/-- The lines of a chart, with a heading and an empty line behind them. -/
def chartText {rules : Array Rule} (c : Chart rules) : String :=
  "chart:\n" ++ String.join (c.renderLines.map (· ++ "\n")) ++ "\n"

/-- The two lines that tell a reading. -/
def readingText (r : Reading) : String :=
  r.trace ++ "\n  => " ++ r.value.render ++ " (weight " ++ Decimal.plain.write r.weight ++ ", "
    ++ r.start.render ++ ".." ++ r.stop.render ++ ")\n"

/-- The text that tells results. -/
def resultsText (json : Bool) (results : List Reading) (timings : Timings) : String :=
  if json then Json.pretty 0 (.array (results.map Json.ofReading)) ++ "\n"
  else
    "Parsed " ++ toString results.length ++ " result" ++ pluralSuffix results.length ++ "\n"
      ++ String.join (results.map readingText) ++ timings.render ++ "\n"

/-- The line that tells why a line of input could not be answered. -/
def failureText (f : Failure) : String := "error: " ++ f.message ++ "\n"

namespace Session

/-- The line without the ends of lines behind it. -/
def strip (line : Text) : Text := (line.reverse.dropWhile (fun c => c = '\n' || c = '\r')).reverse

/-- Parses a line. -/
def parse (s : Session) (line : Text) : Session × Option Failure :=
  let (parser, failure) := s.parser.parse line
  ({ s with parser }, failure)

/-- The readings of the line that was parsed last. -/
def results (s : Session) : Except Failure (List Reading) :=
  s.parser.results (!s.options.partialToo)

/-- What is printed for the line that was parsed last, with these results. -/
def reply (s : Session) (results : Except Failure (List Reading)) (timings : Timings) : Reply :=
  let chart := if s.options.chart then chartText s.parser.chart else ""
  match results with
  | .ok results => ⟨chart ++ resultsText s.options.json results timings, ""⟩
  | .error f => ⟨chart, failureText f⟩

/-- Answers a line; an empty one is passed over. -/
def answer (s : Session) (line : Text) : Session × Reply :=
  let line := strip line
  if line.isEmpty then (s, ⟨"", ""⟩)
  else
    match s.parse line with
    | (s, some f) => (s, ⟨"", failureText f⟩)
    | (s, none) => (s, s.reply s.results ⟨0, 0, 0⟩)

/-- Answers lines until there are no more; each one comes after a prompt, and so does the end. -/
def answerAll (s : Session) : List Text → Reply
  | [] => ⟨prompt, ""⟩
  | line :: rest =>
      let (s, r) := s.answer line
      let others := s.answerAll rest
      ⟨prompt ++ r.out ++ others.out, r.err ++ others.err⟩

end Session

/-! ### The whole command -/

/-- How a run of the command ended: its exit code and what it printed. -/
structure Transcript where
  code : Nat
  out : String
  err : String
deriving DecidableEq, Repr

/-- Runs the command on a text as its input. -/
def run (file : FileReader) (args : List String) (input : Text) : Transcript :=
  match read args with
  | .help => ⟨0, helpText, ""⟩
  | .version => ⟨0, versionText, ""⟩
  | .refused => ⟨2, "", ""⟩
  | .run o =>
      match Session.begin file o with
      | .error f => ⟨1, "", "Error: " ++ f.describe ++ "\n"⟩
      | .ok s =>
          let r := s.answerAll input.lines
          ⟨0, r.out, r.err⟩

end ChartParsing.CommandLine
