import ChartParsing.Text.Blank
import ChartParsing.Text.Offset

/-!
# Lexicons as patterns

A lexicon is a list of texts that one terminal matches.  `Lexicon.pattern` writes it as one pattern:
texts that start with the same character share it, and what follows is written in the same way, so
that the pattern is a tree of first characters.  A text that ends where others go on comes last, for
the longer ones are to be preferred.

Each piece of a text is written by an escaping function.  The usual one, `Lexicon.escape`, takes
characters with a meaning of their own literally, lets a hyphen stand between up to four blanks on
either side, and lets a run of spaces stand for one to four blanks.
-/

namespace ChartParsing.Lexicon

/-! ### Escaping -/

/-- The characters that get a backslash. -/
def isSpecial (c : Char) : Bool :=
  ['-', '[', ']', '/', '\x7b', '\x7d', '(', ')', '*', '+', '?', '.', '\\', '^', '$', '|'].contains c

/-- Puts a backslash before special characters. -/
def escapeSpecial (t : Text) : Text :=
  t.flatMap (fun c => if isSpecial c then ['\\', c] else [c])

/-- A hyphen with up to four blanks on either side. -/
def looseHyphen : Text := "\\s\x7b0,4\x7d\\-\\s\x7b0,4\x7d".toList

/-- One to four blanks. -/
def looseSpace : Text := "\\s\x7b1,4\x7d".toList

/-- Replaces escaped hyphens, together with the blanks around them.  `behind` says that a hyphen was
just replaced, and `held` are blanks that may turn out to stand in front of one. -/
def loosenHyphens (behind : Bool) (held : Text) : Text → Text
  | [] => held
  | '\\' :: '-' :: rest => looseHyphen ++ loosenHyphens true [] rest
  | c :: rest =>
      if isBlank c then
        (if behind then loosenHyphens true [] rest else loosenHyphens false (held ++ [c]) rest)
      else held ++ c :: loosenHyphens false [] rest

/-- Replaces runs of spaces; `inside` says that the run was replaced already. -/
def loosenSpaces (inside : Bool) : Text → Text
  | [] => []
  | c :: rest =>
      if c = ' ' then
        (if inside then loosenSpaces true rest else looseSpace ++ loosenSpaces true rest)
      else c :: loosenSpaces false rest

/-- The usual escaping function. -/
def escape (t : Text) : Text := loosenSpaces false (loosenHyphens false [] (escapeSpecial t))

/-! ### Grouping -/

/-- Texts that share their first character, or are empty: the character, and what follows it. -/
structure Group where
  first : Option Char
  rests : List Text
deriving DecidableEq, Repr

/-- Adds a text to the group of its first character; a text that is there already is not added again,
and a new group comes last. -/
def addToGroup (first : Option Char) (rest : Text) : List Group → List Group
  | [] => [⟨first, [rest]⟩]
  | g :: gs =>
      if g.first = first then
        (if g.rests.contains rest then g :: gs else { g with rests := g.rests ++ [rest] } :: gs)
      else g :: addToGroup first rest gs

/-- Groups texts by their first character, in the order of first appearance; the group of the empty
text comes last. -/
def groups (list : List Text) : List Group :=
  let all := list.foldl (fun gs t => addToGroup t.head? t.tail gs) []
  all.filter (fun g => g.first.isSome) ++ all.filter (fun g => g.first.isNone)

/-! ### The tree -/

/-- The pattern of a lexicon whose texts have fewer than `depth` characters. -/
def tree (escape : Text → Text) : Nat → List Text → Text
  | 0, _ => []
  | depth + 1, list =>
      List.intercalate ['|'] ((groups list).map (fun g =>
        escape g.first.toList ++
          match g.rests with
          | [] => []
          | [rest] => escape rest
          | rests => "(?:".toList ++ tree escape depth rests ++ [')']))

/-- The length of the longest text. -/
def longest (list : List Text) : Nat := list.foldl (fun n t => max n t.length) 0

/-- The pattern of a lexicon. -/
def pattern (escape : Text → Text) (list : List Text) : Text := tree escape (longest list + 1) list

end ChartParsing.Lexicon
