import ChartParsing.CommandLine.Session

/-!
# The command

Reads files, the lines of the input and the clock, and prints what the session answers.
-/

namespace ChartParsing.CommandLine

/-- What an error of the system says about a file. -/
def faultOf : IO.Error → FileFault
  | .inappropriateType _ code _ => if code = 21 then .isDirectory else .notInDirectory
  | .permissionDenied .. => .denied
  | .invalidArgument .. => .longName
  | _ => .missing

/-- Reads a file. -/
def readFile (path : String) : IO (Except FileFault String) := do
  try
    let bytes ← IO.FS.readBinFile path
    match String.fromUTF8? bytes with
    | some text => return .ok text
    | none => return .error .notText
  catch e => return .error (faultOf e)

/-- The files that the options name. -/
def filesOf (o : Options) : List String :=
  o.grammar :: o.entities.map (fun pair =>
    String.ofList ((pair.toList.dropWhile (· ≠ '=')).drop 1))

/-- Reads files, and answers a function that knows them. -/
def readFiles (paths : List String) : IO FileReader := do
  let contents ← paths.mapM (fun path => do return (path, ← readFile path))
  return fun path => (contents.lookup path).getD (.error .missing)

/-- Parses a line, prints what comes of it, and says how long it took. -/
def serve (s : Session) (line : Text) : IO Session := do
  let started ← IO.monoNanosNow
  let (s, failure) ← IO.lazyPure (fun _ => s.parse line)
  let parsed ← IO.monoNanosNow
  match failure with
  | some f => IO.eprint (failureText f)
  | none =>
      let results ← IO.lazyPure (fun _ => s.results)
      let finished ← IO.monoNanosNow
      let reply := s.reply results ⟨0, parsed - started, finished - parsed⟩
      IO.print reply.out
      IO.eprint reply.err
  return s

/-- Answers lines until there are no more. -/
partial def answerLines (s : Session) (input : IO.FS.Stream) : IO UInt32 := do
  IO.print prompt
  (← IO.getStdout).flush
  let line ← input.getLine
  if line.isEmpty then return 0
  let text := Session.strip line.toList
  if text.isEmpty then answerLines s input
  else answerLines (← serve s text) input

/-- Runs the command. -/
def execute (args : List String) : IO UInt32 := do
  match read args with
  | .help => IO.print helpText; return 0
  | .version => IO.print versionText; return 0
  | .refused => IO.eprint helpText; return 2
  | .run o =>
      match Session.begin (← readFiles (filesOf o)) o with
      | .error f =>
          IO.eprintln ("Error: " ++ f.describe)
          return 1
      | .ok s => answerLines s (← IO.getStdin)

end ChartParsing.CommandLine

def main (args : List String) : IO UInt32 := ChartParsing.CommandLine.execute args
