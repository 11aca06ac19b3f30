import ChartParsing.Pattern.Meaning
import ChartParsing.Pattern.Search

/-!
# Compiled patterns

A `Pattern` is read, freed of its flags and turned into a program once, by `Pattern.compile`.  After
that `Pattern.matchAt?` says where its match at a place ends.
-/

namespace ChartParsing

/-- A pattern that can be searched for. -/
structure Pattern where
  node : Pattern.Node
  program : Pattern.Program
deriving Inhabited

namespace Pattern

/-- Reads and compiles a pattern; case may be ignored from the start. -/
def compile (caseInsensitive : Bool) (source : String) : Except Fault Pattern := do
  let ast ← readPattern source.toList
  let node ← ast.toNode caseInsensitive
  if sizeLimit < node.size then .error .tooLarge
  else .ok ⟨node, node.program⟩

/-- The end of the preferred match that starts at the cursor. -/
def matchAt? (p : Pattern) (c : Cursor) : Option Cursor := p.program.search c

/-- Does the pattern match anywhere in the text? -/
def occursIn (p : Pattern) (t : Text) : Bool := t.cursors.any (fun c => (p.matchAt? c).isSome)

end Pattern

end ChartParsing
