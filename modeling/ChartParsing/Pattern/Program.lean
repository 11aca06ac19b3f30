import ChartParsing.Pattern.Node
import ChartParsing.Text.Offset

/-!
# Patterns as programs

A program is an array of instructions.  Most of them test something and go on at an address; `split`
goes on at two addresses and prefers the first; `accept` ends a match.  `Node.emit` adds the
instructions of a pattern to a program, given the address at which to go on after it, and answers with
the address at which the pattern starts.

A loop whose body can match the empty text is entered by a `split` of its own.  That keeps the order
of preference right: the way around the loop and the way past it are weighed anew only after the body
has been tried.

## Size

`Node.size` is the memory that the states of an automaton for the pattern take, in bytes.  Patterns beyond
`sizeLimit` are refused, before any instruction is made.  Two parts of it are estimates: a set beyond
ASCII is weighed by its runs, not by the automaton over bytes that it takes, and branches that begin with
the same characters are weighed one by one.
-/

namespace ChartParsing.Pattern

/-- An instruction of a program. -/
inductive Inst where
  | char (c : Char) (next : Nat)
  | set (members : CharSet) (next : Nat)
  | look (condition : Look) (next : Nat)
  | split (preferred other : Nat)
  | accept
  | fail
deriving DecidableEq, Repr, Inhabited

/-- A program, and the address at which it starts. -/
structure Program where
  code : Array Inst
  entry : Nat
deriving Inhabited

namespace Program

/-- Adds an instruction; answers with its address too. -/
def push (code : Array Inst) (i : Inst) : Array Inst × Nat := (code.push i, code.size)

/-- A choice between going around and going on; a lazy one prefers to go on. -/
def branch (greedy : Bool) (around on : Nat) : Inst :=
  if greedy then .split around on else .split on around

/-- Adds the instructions of a row of characters. -/
def chars (next : Nat) (code : Array Inst) : List Char → Array Inst × Nat
  | [] => (code, next)
  | c :: cs =>
      let (code, entry) := chars next code cs
      push code (.char c entry)

/-- Adds a choice between addresses, the first one preferred. -/
def choose (code : Array Inst) : List Nat → Array Inst × Nat
  | [] => push code .fail
  | [entry] => (code, entry)
  | entry :: others =>
      let (code, other) := choose code others
      push code (.split entry other)

/-- Adds copies of a pattern, one after the other. -/
def copies (emit : Nat → Array Inst → Array Inst × Nat) :
    Nat → Nat → Array Inst → Array Inst × Nat
  | 0, next, code => (code, next)
  | count + 1, next, code =>
      let (code, entry) := emit next code
      copies emit count entry code

/-- Adds copies of a pattern, each of them left out together with all that follow. -/
def options (emit : Nat → Array Inst → Array Inst × Nat) (greedy : Bool) (stop : Nat) :
    Nat → Nat → Array Inst → Array Inst × Nat
  | 0, next, code => (code, next)
  | count + 1, next, code =>
      let (code, entry) := emit next code
      let (code, entry) := push code (branch greedy entry stop)
      options emit greedy stop count entry code

/-- Adds a loop that goes through the pattern once at least.  The instruction at the end of the body
is reserved first, since the body goes on there. -/
def loop (emit : Nat → Array Inst → Array Inst × Nat) (greedy : Bool) (next : Nat)
    (code : Array Inst) : Array Inst × Nat :=
  let (code, back) := push code .fail
  let (code, entry) := emit back code
  (code.setIfInBounds back (branch greedy entry next), entry)

/-- Adds a loop that may be passed by.  If the body always takes a character, the instruction at its
end is also the one at which the loop is entered. -/
def star (emit : Nat → Array Inst → Array Inst × Nat) (moves greedy : Bool) (next : Nat)
    (code : Array Inst) : Array Inst × Nat :=
  if moves then
    let back := code.size
    let (code, _) := loop emit greedy next code
    (code, back)
  else
    let (code, entry) := loop emit greedy next code
    push code (branch greedy entry next)

/-- Adds a repetition. -/
def repetition (emit : Nat → Array Inst → Array Inst × Nat) (moves greedy : Bool) (min : Nat)
    (max : Option Nat) (next : Nat) (code : Array Inst) : Array Inst × Nat :=
  match min, max with
  | 0, none => star emit moves greedy next code
  | min + 1, none =>
      let (code, entry) := loop emit greedy next code
      copies emit min entry code
  | min, some max =>
      let (code, entry) := options emit greedy next (max - min) next code
      copies emit min entry code

end Program

mutual

/-- Adds the instructions of a pattern that goes on at `next`. -/
def Node.emit : Node → Nat → Array Inst → Array Inst × Nat
  | .empty, next, code => (code, next)
  | .literal cs, next, code => Program.chars next code cs
  | .set s, next, code => Program.push code (.set s next)
  | .look condition, next, code => Program.push code (.look condition next)
  | .repetition min max greedy body, next, code =>
      Program.repetition (Node.emit body) body.alwaysMoves greedy min max next code
  | .capture _ body, next, code => Node.emit body next code
  | .concat parts, next, code => Node.emitAll parts next code
  | .alternation branches, next, code =>
      let (code, entries) := Node.emitEach branches next code
      Program.choose code entries

/-- Adds the instructions of patterns that follow one another. -/
def Node.emitAll : List Node → Nat → Array Inst → Array Inst × Nat
  | [], next, code => (code, next)
  | part :: rest, next, code =>
      let (code, entry) := Node.emitAll rest next code
      Node.emit part entry code

/-- Adds the instructions of patterns that all go on at one address. -/
def Node.emitEach : List Node → Nat → Array Inst → Array Inst × List Nat
  | [], _, code => (code, [])
  | branch :: rest, next, code =>
      let (code, entry) := Node.emit branch next code
      let (code, entries) := Node.emitEach rest next code
      (code, entry :: entries)

end

/-! ### Size -/

/-- The memory that a program may take, in bytes. -/
def sizeLimit : Nat := 10 * 1048576

/-- The memory of a state without a table. -/
def instSize : Nat := 32

/-- The memory of a choice between two ways. -/
def splitSize : Nat := 40

/-- The memory of the states for a set, from which one goes on at one state: a table with an entry for
each run, if there are several, or a small automaton over bytes when there are characters beyond
ASCII. -/
def setSize (s : CharSet) : Nat :=
  if s.isAscii then 2 * instSize + (if s.runs.length ≤ 1 then 0 else 8 * s.runs.length)
  else instSize + 26 * s.runs.length

/-- The memory of a repetition, given that of what is repeated and whether it always takes a character.
What may be left out has a choice of its own, and one state at which all of these meet. -/
def repetitionSize (min : Nat) (max : Option Nat) (moves : Bool) (body : Nat) : Nat :=
  match min, max with
  | 0, none => if moves then body + splitSize else body + 2 * splitSize + instSize
  | min + 1, none => (min + 1) * body + splitSize
  | 0, some 1 => splitSize + body + instSize
  | 0, some max => 2 * instSize + max * (body + splitSize)
  | min + 1, some max =>
      if max ≤ min + 1 then (min + 1) * body
      else (min + 1) * body + instSize + (max - (min + 1)) * (body + splitSize)

mutual

/-- The memory that the states of a pattern take. -/
def Node.size : Node → Nat
  | .empty => instSize
  | .literal cs => instSize * Text.byteLength cs
  | .set s => setSize s
  | .look _ => instSize
  | .repetition min max _ body => repetitionSize min max body.alwaysMoves (Node.size body)
  | .capture _ body => 2 * instSize + Node.size body
  | .concat parts => Node.sizeAll parts
  | .alternation branches => 2 * instSize + 4 * branches.length + Node.sizeAll branches

/-- The memory that the states of several patterns take. -/
def Node.sizeAll : List Node → Nat
  | [] => 0
  | part :: rest => Node.size part + Node.sizeAll rest

end

/-- The program of a pattern. -/
def Node.program (n : Node) : Program :=
  let (code, entry) := Node.emit n 0 #[.accept]
  ⟨code, entry⟩

end ChartParsing.Pattern
