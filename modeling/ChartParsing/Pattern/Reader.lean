import ChartParsing.Pattern.Syntax
import ChartParsing.Text.Blank
import ChartParsing.Unicode.Property

/-!
# Reading patterns

`readPattern` turns the characters of a pattern into its `Ast`.  The reader goes through the pattern
once, from left to right.  It keeps the parts of the sequence that it is in, the finished branches of
the choice around it, and a stack of the groups that are still open; classes in brackets have a stack
of their own.

With the flag `x` on, blanks and comments between the pieces of a pattern are skipped.  `skip` does
that, and `skip false` does nothing.

Each step takes at least one character, so as many steps as there are characters are enough: that is
where the step counts of the loops come from.
-/

namespace ChartParsing.Pattern

/-! ### Blanks and comments -/

/-- Drops a comment's characters up to the end of its line. -/
def dropComment (cs : Text) : Text := (cs.dropWhile (· ≠ '\n')).drop 1

/-- Drops blanks and comments, in at most `steps` rounds. -/
def skipLoop : Nat → Text → Text
  | 0, cs => cs
  | steps + 1, cs =>
      match cs.dropWhile isBlank with
      | '#' :: rest => skipLoop steps (dropComment rest)
      | rest => rest

/-- Drops what is not part of the pattern when blanks are ignored. -/
def skip (ignore : Bool) (cs : Text) : Text := if ignore then skipLoop (cs.length + 1) cs else cs

/-- The character that decides whether a hyphen in a class stands for itself: the one behind it.  When
blanks are ignored, blanks and one `#` in front of it do not count. -/
def peekPastBlanks (ignore : Bool) (cs : Text) : Option Char :=
  if ignore then
    let rest := cs.dropWhile isBlank
    let rest := match rest with
      | '#' :: more => more.dropWhile isBlank
      | more => more
    (rest.head?).or cs.head?
  else cs.head?

/-! ### Numbers and code points -/

/-- Is the character a hexadecimal digit? -/
def isHexDigit (c : Char) : Bool :=
  ('0' ≤ c ∧ c ≤ '9') ∨ ('a' ≤ c ∧ c ≤ 'f') ∨ ('A' ≤ c ∧ c ≤ 'F')

/-- Is the character a decimal digit of ASCII? -/
def isAsciiDigit (c : Char) : Bool := '0' ≤ c ∧ c ≤ '9'

/-- Reads decimal digits, in at most `steps` rounds. -/
def readDigits (ignore : Bool) : Nat → Text → Text × Text
  | 0, cs => ([], cs)
  | steps + 1, cs =>
      match cs with
      | c :: rest =>
          if isAsciiDigit c then
            let (ds, after) := readDigits ignore steps (skip ignore rest)
            (c :: ds, after)
          else ([], cs)
      | [] => ([], [])

/-- The largest count of a repetition. -/
def maxCount : Nat := 4294967295

/-- Reads a decimal number between blanks: `none` if there is no digit. -/
def readCount (ignore : Bool) (cs : Text) : Except Fault (Option Nat × Text) :=
  let (ds, rest) := readDigits ignore cs.length (cs.dropWhile isBlank)
  let rest := skip ignore (rest.dropWhile isBlank)
  let n := ds.foldl (fun n c => 10 * n + (c.toNat - 48)) 0
  if ds = [] then .ok (none, rest)
  else if n ≤ maxCount then .ok (some n, rest)
  else .error .badCount

/-- The character with a code point, if there is one. -/
def charOfCode? (n : Nat) : Option Char :=
  if h : n.isValidChar then some (Char.ofNatAux n h) else none

/-- The value of hexadecimal digits. -/
def hexValue (ds : List Char) : Nat := ds.foldl (fun n c => 16 * n + CharSet.hexDigit c) 0

/-- Reads this many hexadecimal digits. -/
def readHexDigits (ignore : Bool) : Nat → Text → Except Fault (List Char × Text)
  | 0, cs => .ok ([], cs)
  | count + 1, cs =>
      match cs with
      | c :: rest =>
          if isHexDigit c then do
            let (ds, after) ← readHexDigits ignore count (skip ignore rest)
            .ok (c :: ds, after)
          else .error .badCodePoint
      | [] => .error .badEscape

/-- Reads hexadecimal digits up to a closing brace, in at most `steps` rounds. -/
def readHexBraced (ignore : Bool) : Nat → Text → Except Fault (List Char × Text)
  | 0, _ => .error .badEscape
  | steps + 1, cs =>
      match cs with
      | [] => .error .badEscape
      | '\x7d' :: rest => .ok ([], skip ignore rest)
      | c :: rest =>
          if isHexDigit c then do
            let (ds, after) ← readHexBraced ignore steps (skip ignore rest)
            .ok (c :: ds, after)
          else .error .badCodePoint

/-- Reads a code point behind `\x`, `\u` or `\U`: a fixed count of digits or digits in braces. -/
def readCodePoint (ignore : Bool) (kind : Char) (cs : Text) : Except Fault (Literal × Text) :=
  let count := if kind = 'x' then 2 else if kind = 'u' then 4 else 8
  match skip ignore cs with
  | [] => .error .badEscape
  | '\x7b' :: rest => do
      let rest := skip ignore rest
      let (ds, after) ← readHexBraced ignore (rest.length + 1) rest
      if ds = [] then .error .badCodePoint
      else match charOfCode? (hexValue ds) with
        | some c => .ok (⟨c, false⟩, after)
        | none => .error .badCodePoint
  | rest => do
      let (ds, after) ← readHexDigits ignore count rest
      match charOfCode? (hexValue ds) with
      | some c => .ok (⟨c, kind = 'x'⟩, after)
      | none => .error .badCodePoint

/-! ### Escapes -/

/-- The characters with a meaning of their own in a pattern. -/
def isMeta (c : Char) : Bool :=
  ['\\', '.', '+', '*', '?', '(', ')', '|', '[', ']', '\x7b', '\x7d', '^', '$', '#', '&', '-',
    '~'].contains c

/-- May a backslash stand before the character without a meaning of its own? -/
def isEscapable (c : Char) : Bool :=
  isMeta c || (c.toNat < 128 && !c.isAlphanum && c != '<' && c != '>')

/-- A piece of a pattern that takes no other piece in: what can follow a backslash. -/
inductive Atom where
  | literal (l : Literal)
  | dot
  | assertion (kind : Assertion)
  | shorthand (kind : Shorthand) (negated : Bool)
  | named (name : ClassName) (negated : Bool)

/-- The pattern that an atom is. -/
def Atom.toAst : Atom → Ast
  | .literal l => .literal l
  | .dot => .dot
  | .assertion kind => .assertion kind
  | .shorthand kind negated => .shorthand kind negated
  | .named name negated => .named name negated

/-- Splits a name at the first place where a separator of several characters stands. -/
def splitAtPart? (part : Text) : Text → Option (Text × Text)
  | [] => none
  | c :: cs =>
      match Text.dropPrefix? (c :: cs) part with
      | some rest => some ([], rest)
      | none => (splitAtPart? part cs).map (fun (before, after) => (c :: before, after))

/-- The class that a name in braces stands for: a value of a property, or a name by itself. -/
def className (cs : Text) : ClassName :=
  match splitAtPart? ['!', '='] cs with
  | some (p, v) => .valued (String.ofList p) (String.ofList v) true
  | none =>
      match (splitAtPart? [':'] cs).or (splitAtPart? ['='] cs) with
      | some (p, v) => .valued (String.ofList p) (String.ofList v) false
      | none => .alone (String.ofList cs)

/-- Reads the name up to a closing brace, in at most `steps` rounds. -/
def readNameBraced (ignore : Bool) : Nat → Text → Except Fault (Text × Text)
  | 0, _ => .error .badEscape
  | steps + 1, cs =>
      match cs with
      | [] => .error .badEscape
      | '\x7d' :: rest => .ok ([], rest)
      | c :: rest => do
          let (name, after) ← readNameBraced ignore steps (skip ignore rest)
          .ok (c :: name, after)

/-- Reads the name of a class behind `\p` or `\P`: one letter, or a name in braces. -/
def readClassName (ignore : Bool) (cs : Text) : Except Fault (ClassName × Text) :=
  match skip ignore cs with
  | [] => .error .badEscape
  | '\x7b' :: rest => do
      let rest := skip ignore rest
      let (name, after) ← readNameBraced ignore (rest.length + 1) rest
      .ok (className name, after)
  | '\\' :: _ => .error .unknownProperty
  | c :: rest => .ok (.alone c.toString, skip ignore rest)

/-- Reads letters and hyphens, in at most `steps` rounds. -/
def readBoundaryName (ignore : Bool) : Nat → Text → Text × Text
  | 0, cs => ([], cs)
  | steps + 1, cs =>
      match cs with
      | c :: rest =>
          if c.isAlpha ∨ c = '-' then
            let (name, after) := readBoundaryName ignore steps (skip ignore rest)
            (c :: name, after)
          else ([], cs)
      | [] => ([], [])

/-- Reads what can follow `\b` in braces.  Braces that do not start with a letter or a hyphen belong to
a repetition. -/
def readWordBoundary (ignore : Bool) (cs : Text) : Except Fault (Assertion × Text) :=
  match cs with
  | '\x7b' :: rest =>
      let inside := skip ignore rest
      match inside with
      | [] => .error .badWordBoundary
      | c :: _ =>
          if c.isAlpha ∨ c = '-' then
            let (name, after) := readBoundaryName ignore inside.length inside
            match after with
            | '\x7d' :: more =>
                if name = "start".toList then .ok (.wordStart, more)
                else if name = "end".toList then .ok (.wordEnd, more)
                else if name = "start-half".toList then .ok (.wordStartHalf, more)
                else if name = "end-half".toList then .ok (.wordEndHalf, more)
                else .error .badWordBoundary
            | _ => .error .badWordBoundary
          else .ok (.wordBoundary, cs)
  | _ => .ok (.wordBoundary, cs)

/-- The character that a backslash and a letter stand for. -/
def controlChar? (c : Char) : Option Char :=
  match c with
  | 'a' => some '\x07'
  | 'f' => some '\x0c'
  | 't' => some '\t'
  | 'n' => some '\n'
  | 'r' => some '\r'
  | 'v' => some '\x0b'
  | _ => none

/-- Reads what follows a backslash. -/
def readEscape (ignore : Bool) (cs : Text) : Except Fault (Atom × Text) :=
  match cs with
  | [] => .error .badEscape
  | c :: rest =>
      if isAsciiDigit c then .error .backReference
      else if c = 'x' ∨ c = 'u' ∨ c = 'U' then
        (readCodePoint ignore c rest).map (fun (l, after) => (.literal l, after))
      else if c = 'p' ∨ c = 'P' then
        (readClassName ignore rest).map (fun (name, after) => (.named name (c = 'P'), after))
      else if c = 'd' ∨ c = 'D' then .ok (.shorthand .digit (c = 'D'), rest)
      else if c = 's' ∨ c = 'S' then .ok (.shorthand .space (c = 'S'), rest)
      else if c = 'w' ∨ c = 'W' then .ok (.shorthand .word (c = 'W'), rest)
      else if isEscapable c then .ok (.literal ⟨c, false⟩, rest)
      else match controlChar? c with
        | some d => .ok (.literal ⟨d, false⟩, rest)
        | none =>
            if c = 'A' then .ok (.assertion .textStart, rest)
            else if c = 'z' then .ok (.assertion .textEnd, rest)
            else if c = 'B' then .ok (.assertion .notWordBoundary, rest)
            else if c = '<' then .ok (.assertion .wordStart, rest)
            else if c = '>' then .ok (.assertion .wordEnd, rest)
            else if c = 'b' then
              (readWordBoundary ignore rest).map (fun (a, after) => (.assertion a, after))
            else .error .badEscape

/-- Reads one atom: an escape, a dot, an assertion or a character that stands for itself. -/
def readAtom (ignore : Bool) (c : Char) (rest : Text) : Except Fault (Atom × Text) :=
  match c with
  | '\\' => readEscape ignore rest
  | '.' => .ok (.dot, rest)
  | '^' => .ok (.assertion .lineStart, rest)
  | '$' => .ok (.assertion .lineEnd, rest)
  | c => .ok (.literal ⟨c, false⟩, rest)

/-! ### Classes in brackets -/

/-- What is open while a class is read: brackets, with the items around them, or the left side of an
operation. -/
inductive ClassFrame where
  | brackets (outer : List ClassItem) (negated : Bool)
  | operation (op : SetOp) (left : ClassSet)

/-- The state of reading a class: what is open, the items of the innermost set, last one first, and
the characters to come. -/
structure ClassState where
  frames : List ClassFrame
  items : List ClassItem
  rest : Text

/-- Reads the opening of brackets: a caret, hyphens that stand for themselves, and a closing bracket
that stands for itself because nothing is in front of it. -/
def openBrackets (ignore : Bool) (cs : Text) : Except Fault (Bool × List ClassItem × Text) :=
  let rest := skip ignore cs
  let (negated, rest) := match rest with
    | '^' :: more => (true, skip ignore more)
    | more => (false, more)
  let (hyphens, rest) := takeHyphens rest.length rest
  if rest = [] then .error .classUnclosed
  else match hyphens, rest with
    | [], ']' :: more =>
        let more := skip ignore more
        if more = [] then .error .classUnclosed
        else .ok (negated, [.char ⟨']', false⟩], more)
    | _, _ => .ok (negated, hyphens, rest)
where
  /-- The hyphens at the start, in at most this many rounds. -/
  takeHyphens : Nat → Text → List ClassItem × Text
    | 0, cs => ([], cs)
    | steps + 1, cs =>
        match cs with
        | '-' :: more =>
            let (items, after) := takeHyphens steps (skip ignore more)
            (.char ⟨'-', false⟩ :: items, after)
        | _ => ([], cs)

/-- The names of the ASCII classes. -/
def asciiClass? (name : String) : Option AsciiClass :=
  match name with
  | "alnum" => some .alnum
  | "alpha" => some .alpha
  | "ascii" => some .ascii
  | "blank" => some .blank
  | "cntrl" => some .cntrl
  | "digit" => some .digit
  | "graph" => some .graph
  | "lower" => some .lower
  | "print" => some .print
  | "punct" => some .punct
  | "space" => some .space
  | "upper" => some .upper
  | "word" => some .word
  | "xdigit" => some .xdigit
  | _ => none

/-- Reads a named ASCII class behind its opening bracket; `none` if there is none, and then the bracket
opens a class as any other does. -/
def readAsciiClass? (cs : Text) : Option (ClassItem × Text) :=
  match cs with
  | ':' :: rest =>
      let (negated, rest) := match rest with
        | '^' :: more => (true, more)
        | more => (false, more)
      let name := rest.takeWhile (· ≠ ':')
      match rest.dropWhile (· ≠ ':') with
      | ':' :: ']' :: after =>
          (asciiClass? (String.ofList name)).map (fun kind => (.ascii kind negated, after))
      | _ => none
  | _ => none

/-- Ends an operation that waits for its right side. -/
def foldOperation (right : ClassSet) : List ClassFrame → ClassSet × List ClassFrame
  | .operation op left :: frames => (.operation op left right, frames)
  | frames => (right, frames)

/-- An item of a class, from an atom; assertions and the dot are none. -/
def Atom.toItem : Atom → Except Fault ClassItem
  | .literal l => .ok (.char l)
  | .shorthand kind negated => .ok (.shorthand kind negated)
  | .named name negated => .ok (.named name negated)
  | .dot | .assertion _ => .error .notInClass

/-- An end of a range, from an atom. -/
def Atom.toLiteral : Atom → Except Fault Literal
  | .literal l => .ok l
  | _ => .error .badRange

/-- Reads one member of a class: an escape, or the character itself. -/
def readMember (ignore : Bool) : Text → Except Fault (Atom × Text)
  | [] => .error .classUnclosed
  | '\\' :: rest => readEscape ignore rest
  | c :: rest => .ok (.literal ⟨c, false⟩, rest)

/-- Reads a member or a range.  A hyphen before a closing bracket or another hyphen makes no range. -/
def readRange (ignore : Bool) (cs : Text) : Except Fault (ClassItem × Text) := do
  let (first, rest) ← readMember ignore cs
  let rest := skip ignore rest
  match rest with
  | [] => .error .classUnclosed
  | '-' :: more =>
      let peek := peekPastBlanks ignore more
      if peek = some ']' ∨ peek = some '-' then
        let item ← first.toItem
        .ok (item, rest)
      else
        let more := skip ignore more
        if more = [] then .error .classUnclosed
        else
          let (second, after) ← readMember ignore more
          let low ← first.toLiteral
          let high ← second.toLiteral
          if low.char ≤ high.char then .ok (.range low high, after) else .error .badRange
  | _ =>
      let item ← first.toItem
      .ok (item, rest)

/-- What one step of reading a class leads to: more of it, or the whole class. -/
inductive ClassStep where
  | more (s : ClassState)
  | done (negated : Bool) (set : ClassSet) (rest : Text)

/-- Starts an operation: what was read so far is its left side. -/
def ClassState.operate (s : ClassState) (op : SetOp) (rest : Text) : ClassState :=
  let (left, frames) := foldOperation (.items s.items.reverse) s.frames
  ⟨.operation op left :: frames, [], rest⟩

/-- Closes the innermost brackets. -/
def ClassState.close (s : ClassState) (rest : Text) : Except Fault ClassStep :=
  let (set, frames) := foldOperation (.items s.items.reverse) s.frames
  match frames with
  | .brackets outer negated :: frames =>
      if frames.isEmpty then .ok (.done negated set rest)
      else .ok (.more ⟨frames, .bracketed negated set :: outer, rest⟩)
  | _ => .error .classUnclosed

/-- Reads one piece of a class. -/
def ClassState.step (ignore : Bool) (s : ClassState) : Except Fault ClassStep :=
  match skip ignore s.rest with
  | [] => .error .classUnclosed
  | '[' :: rest =>
      match readAsciiClass? rest with
      | some (item, after) => .ok (.more { s with items := item :: s.items, rest := after })
      | none => do
          let (negated, items, after) ← openBrackets ignore rest
          .ok (.more ⟨.brackets s.items negated :: s.frames, items.reverse, after⟩)
  | ']' :: rest => s.close rest
  | '&' :: '&' :: rest => .ok (.more (s.operate .intersection rest))
  | '-' :: '-' :: rest => .ok (.more (s.operate .difference rest))
  | '~' :: '~' :: rest => .ok (.more (s.operate .symmetricDifference rest))
  | cs => do
      let (item, after) ← readRange ignore cs
      .ok (.more { s with items := item :: s.items, rest := after })

/-- Reads the pieces of a class, in at most `steps` rounds. -/
def ClassState.run (ignore : Bool) : Nat → ClassState → Except Fault (Ast × Text)
  | 0, _ => .error .classUnclosed
  | steps + 1, s => do
      match ← s.step ignore with
      | .done negated set rest => .ok (.bracketed negated set, rest)
      | .more s => run ignore steps s

/-- Reads a class behind its opening bracket. -/
def readClass (ignore : Bool) (cs : Text) : Except Fault (Ast × Text) := do
  let (negated, items, rest) ← openBrackets ignore cs
  ClassState.run ignore (rest.length + 1) ⟨[.brackets [] negated], items.reverse, rest⟩

/-! ### Groups -/

/-- The kinds of groups. -/
inductive GroupKind where
  | capture (index : Nat)
  | plain (settings : List (Flag × Bool))

/-- A group that is open: its kind, and what was read around it. -/
structure GroupFrame where
  kind : GroupKind
  outerParts : List Ast
  outerBranches : List Ast
  outerIgnore : Bool

/-- The state of reading a pattern.  Parts and branches are those of the innermost group, the last one
first. -/
structure State where
  rest : Text
  parts : List Ast
  branches : List Ast
  frames : List GroupFrame
  /-- How many groups keep their match. -/
  captures : Nat
  /-- The names of groups so far. -/
  names : List Text
  /-- Are blanks and comments ignored? -/
  ignore : Bool

/-- The pattern that the innermost group holds. -/
def State.inside (s : State) : Ast :=
  Ast.choice (Ast.sequence s.parts.reverse :: s.branches).reverse

/-- The flag that a letter stands for. -/
def flag? (c : Char) : Option Flag :=
  match c with
  | 'i' => some .caseInsensitive
  | 'm' => some .multiLine
  | 's' => some .dotAll
  | 'U' => some .swapGreed
  | 'u' => some .unicode
  | 'R' => some .crlf
  | 'x' => some .ignoreBlanks
  | _ => none

/-- Reads flags up to a colon or a closing parenthesis, which stays.  `minus` says that the flags to
come are turned off, and `dangling` that none came yet. -/
def readFlags (settings : List (Flag × Bool)) (minus dangling : Bool) :
    Text → Except Fault (List (Flag × Bool) × Text)
  | [] => .error .badFlags
  | c :: rest =>
      if c = ':' ∨ c = ')' then
        if dangling then .error .badFlags else .ok (settings.reverse, c :: rest)
      else if c = '-' then
        if minus then .error .badFlags else readFlags settings true true rest
      else match flag? c with
        | none => .error .badFlags
        | some f =>
            if settings.any (fun p => p.1 = f) then .error .badFlags
            else readFlags ((f, !minus) :: settings) minus false rest

/-- May the character stand in a group's name? -/
def isNameChar (first : Bool) (c : Char) : Bool :=
  if first then c = '_' || CharClass.letters.contains c
  else ['_', '.', '[', ']'].contains c || CharClass.letters.contains c
    || CharClass.numbers.contains c

/-- Reads a group's name up to the closing angle bracket. -/
def readGroupName (cs : Text) : Except Fault (Text × Text) :=
  let name := cs.takeWhile (· ≠ '>')
  match cs.dropWhile (· ≠ '>') with
  | [] => .error .badGroupName
  | _ :: rest =>
      match name with
      | [] => .error .badGroupName
      | c :: more =>
          if isNameChar true c && more.all (isNameChar false) then .ok (name, rest)
          else .error .badGroupName

/-- Are blanks ignored under these flags? -/
def ignoreUnder (settings : List (Flag × Bool)) (ignore : Bool) : Bool :=
  match settings.find? (fun p => p.1 = .ignoreBlanks) with
  | some p => p.2
  | none => ignore

/-- Opens a group. -/
def State.openGroup (s : State) (kind : GroupKind) (ignore : Bool) (rest : Text) : State :=
  { s with
    rest := rest, parts := [], branches := [], ignore := ignore,
    frames := ⟨kind, s.parts, s.branches, s.ignore⟩ :: s.frames }

/-- Opens a group whose match is kept. -/
def State.openCapture (s : State) (rest : Text) : State :=
  { s.openGroup (.capture (s.captures + 1)) s.ignore rest with captures := s.captures + 1 }

/-- Opens a group with a name. -/
def State.openNamed (s : State) (rest : Text) : Except Fault State := do
  let (name, after) ← readGroupName rest
  if s.names.contains name then .error .duplicateGroupName
  else .ok { s.openCapture after with names := name :: s.names }

/-- Reads what follows an opening parenthesis and a question mark: flags, for a group or for what
follows. -/
def State.openFlags (s : State) (rest : Text) : Except Fault State :=
  if rest = [] then .error .groupUnclosed
  else do
    match ← readFlags [] false false rest with
    | (settings, ')' :: after) =>
        if settings = [] then .error .nothingToRepeat
        else .ok { s with
          rest := after, parts := .flags settings :: s.parts,
          ignore := ignoreUnder settings s.ignore }
    | (settings, after) =>
        .ok (s.openGroup (.plain settings) (ignoreUnder settings s.ignore) (after.drop 1))

/-- Reads what follows an opening parenthesis. -/
def State.startGroup (s : State) (rest : Text) : Except Fault State :=
  match skip s.ignore rest with
  | '?' :: '=' :: _ | '?' :: '!' :: _ | '?' :: '<' :: '=' :: _ | '?' :: '<' :: '!' :: _ =>
      .error .lookAround
  | '?' :: 'P' :: '<' :: after => s.openNamed after
  | '?' :: '<' :: after => s.openNamed after
  | '?' :: after => s.openFlags after
  | after => .ok (s.openCapture after)

/-- Closes the innermost group. -/
def State.endGroup (s : State) (rest : Text) : Except Fault State :=
  match s.frames with
  | [] => .error .groupUnopened
  | f :: frames =>
      let group := match f.kind with
        | .capture index => Ast.capture index s.inside
        | .plain settings => Ast.group settings s.inside
      .ok { s with
        rest := rest, parts := group :: f.outerParts, branches := f.outerBranches,
        frames := frames, ignore := f.outerIgnore }

/-- Ends a branch of a choice. -/
def State.endBranch (s : State) (rest : Text) : State :=
  { s with rest := rest, parts := [], branches := Ast.sequence s.parts.reverse :: s.branches }

/-! ### Repetitions -/

/-- Repeats the last part. -/
def State.repeatLast (s : State) (min : Nat) (max : Option Nat) (greedy : Bool) (rest : Text) :
    Except Fault State :=
  match s.parts with
  | [] => .error .nothingToRepeat
  | part :: parts =>
      if part.isUnrepeatable then .error .nothingToRepeat
      else .ok { s with rest := rest, parts := .repetition min max greedy part :: parts }

/-- A question mark behind a repetition makes it lazy. -/
def splitLazy : Text → Bool × Text
  | '?' :: rest => (false, rest)
  | rest => (true, rest)

/-- Reads a repetition written by one character. -/
def State.repeatSimply (s : State) (min : Nat) (max : Option Nat) (rest : Text) :
    Except Fault State :=
  let (greedy, after) := splitLazy rest
  s.repeatLast min max greedy after

/-- Ends a counted repetition: reads the closing brace and checks the bounds. -/
def State.endCount (s : State) (min : Nat) (max : Option Nat) (rest : Text) : Except Fault State :=
  match rest with
  | '\x7d' :: after =>
      let (greedy, after) := splitLazy (skip s.ignore after)
      match max with
      | some m => if min ≤ m then s.repeatLast min max greedy after else .error .badCount
      | none => s.repeatLast min max greedy after
  | _ => .error .badCount

/-- Reads a repetition between braces: an exact count, a least count, or both bounds. -/
def State.repeatCounted (s : State) (rest : Text) : Except Fault State :=
  match s.parts with
  | [] => .error .nothingToRepeat
  | part :: _ =>
      if part.isUnrepeatable then .error .nothingToRepeat
      else do
        let (least, rest) ← readCount s.ignore (skip s.ignore rest)
        match least with
        | none => .error .badCount
        | some min =>
            match rest with
            | ',' :: rest =>
                match skip s.ignore rest with
                | '\x7d' :: rest => s.endCount min none ('\x7d' :: rest)
                | rest => do
                    let (greatest, rest) ← readCount s.ignore rest
                    match greatest with
                    | none => .error .badCount
                    | some max => s.endCount min (some max) rest
            | rest => s.endCount min (some min) rest

/-! ### Patterns -/

/-- Reads one piece of a pattern, which starts with the character `c`. -/
def State.step (s : State) (c : Char) (rest : Text) : Except Fault State :=
  match c with
  | '(' => s.startGroup rest
  | ')' => s.endGroup rest
  | '|' => .ok (s.endBranch rest)
  | '[' => do
      let (part, after) ← readClass s.ignore rest
      .ok { s with rest := after, parts := part :: s.parts }
  | '?' => s.repeatSimply 0 (some 1) rest
  | '*' => s.repeatSimply 0 none rest
  | '+' => s.repeatSimply 1 none rest
  | '\x7b' => s.repeatCounted rest
  | c => do
      let (atom, after) ← readAtom s.ignore c rest
      .ok { s with rest := after, parts := atom.toAst :: s.parts }

/-- Reads the pieces of a pattern, in at most `steps` rounds. -/
def State.run : Nat → State → Except Fault Ast
  | 0, _ => .error .groupUnclosed
  | steps + 1, s =>
      match skip s.ignore s.rest with
      | [] => if s.frames.isEmpty then .ok s.inside else .error .groupUnclosed
      | c :: rest => do
          let s ← s.step c rest
          run steps s

/-- Reads a pattern. -/
def readPattern (cs : Text) : Except Fault Ast := do
  let ast ← State.run (cs.length + 1) ⟨cs, [], [], [], 0, [], false⟩
  if ast.depth ≤ nestLimit then .ok ast else .error .tooDeep

end ChartParsing.Pattern
