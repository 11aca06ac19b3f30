/-!
# The syntax of patterns

A pattern is a regular expression.  This module holds what reading one yields, before flags are
applied: `Ast` for patterns, `ClassSet` for classes in brackets, and the faults that a pattern can
have.

Patterns nest at most `nestLimit` deep, where brackets, groups, repetitions, sequences and choices
each count as one level.
-/

namespace ChartParsing.Pattern

/-! ### Faults -/

/-- What can be wrong with a pattern. -/
inductive Fault where
  /-- A group is not closed. -/
  | groupUnclosed
  /-- A closing parenthesis has no group to close. -/
  | groupUnopened
  /-- A group's name is empty, not closed, or has a character that names do not have. -/
  | badGroupName
  /-- Two groups have one name. -/
  | duplicateGroupName
  /-- Flags that do not exist, stand twice, or are not closed. -/
  | badFlags
  /-- Look-around is not part of the syntax. -/
  | lookAround
  /-- References to groups are not part of the syntax. -/
  | backReference
  /-- There is nothing in front that could be repeated. -/
  | nothingToRepeat
  /-- The bounds of a counted repetition cannot be read, or the lower one exceeds the upper one. -/
  | badCount
  /-- A backslash with nothing, or nothing known, behind it. -/
  | badEscape
  /-- The digits of a code point cannot be read, or no character has it. -/
  | badCodePoint
  /-- A special word boundary cannot be read. -/
  | badWordBoundary
  /-- A class in brackets is not closed. -/
  | classUnclosed
  /-- The ends of a range in a class are no characters, or in the wrong order. -/
  | badRange
  /-- Something stands in a class that cannot be a member. -/
  | notInClass
  /-- No property, category or script has this name. -/
  | unknownProperty
  /-- Properties are not available without the Unicode flag. -/
  | unicodeOff
  /-- The pattern could match text that is not UTF-8. -/
  | notUtf8
  /-- The pattern nests too deep. -/
  | tooDeep
  /-- The compiled pattern would be too large. -/
  | tooLarge
deriving DecidableEq, Repr

/-! ### Pieces -/

/-- The flags of a pattern. -/
inductive Flag where
  | caseInsensitive
  | multiLine
  | dotAll
  | swapGreed
  | unicode
  | crlf
  | ignoreBlanks
deriving DecidableEq, Repr

/-- Conditions on the place of a match that need no text. -/
inductive Assertion where
  | lineStart
  | lineEnd
  | textStart
  | textEnd
  | wordBoundary
  | notWordBoundary
  | wordStart
  | wordEnd
  | wordStartHalf
  | wordEndHalf
deriving DecidableEq, Repr

/-- The classes with a letter of their own. -/
inductive Shorthand where
  | digit
  | space
  | word
deriving DecidableEq, Repr

/-- A character in a pattern; `byte` says that it was written as two hexadecimal digits. -/
structure Literal where
  char : Char
  byte : Bool
deriving DecidableEq, Repr

/-- How a class is named: by itself, or as the value of a property, or as any other value of it. -/
inductive ClassName where
  | alone (name : String)
  | valued (property value : String) (differs : Bool)
deriving DecidableEq, Repr

/-- The classes of ASCII characters with a name. -/
inductive AsciiClass where
  | alnum | alpha | ascii | blank | cntrl | digit | graph | lower | print | punct | space | upper
  | word | xdigit
deriving DecidableEq, Repr

/-- The operations between sets of a class. -/
inductive SetOp where
  | intersection
  | difference
  | symmetricDifference
deriving DecidableEq, Repr

mutual

/-- A member, or several, of a class in brackets. -/
inductive ClassItem where
  | char (l : Literal)
  | range (low high : Literal)
  | ascii (kind : AsciiClass) (negated : Bool)
  | shorthand (kind : Shorthand) (negated : Bool)
  | named (name : ClassName) (negated : Bool)
  | bracketed (negated : Bool) (set : ClassSet)

/-- What stands between the brackets of a class. -/
inductive ClassSet where
  | items (list : List ClassItem)
  | operation (op : SetOp) (left right : ClassSet)

end

/-- A pattern as it is written. -/
inductive Ast where
  | empty
  /-- Flags for what follows in the group. -/
  | flags (settings : List (Flag × Bool))
  | literal (l : Literal)
  | dot
  | assertion (kind : Assertion)
  | shorthand (kind : Shorthand) (negated : Bool)
  | named (name : ClassName) (negated : Bool)
  | bracketed (negated : Bool) (set : ClassSet)
  | repetition (min : Nat) (max : Option Nat) (greedy : Bool) (body : Ast)
  /-- A group whose match is kept, by its number. -/
  | capture (index : Nat) (body : Ast)
  /-- A group with flags of its own. -/
  | group (settings : List (Flag × Bool)) (body : Ast)
  | concat (parts : List Ast)
  | alternation (branches : List Ast)

namespace Ast

/-- A sequence of parts; one part stands for itself. -/
def sequence : List Ast → Ast
  | [] => .empty
  | [part] => part
  | parts => .concat parts

/-- A choice between branches; one branch stands for itself. -/
def choice : List Ast → Ast
  | [branch] => branch
  | branches => .alternation branches

/-- Can this not be repeated? -/
def isUnrepeatable : Ast → Bool
  | .empty | .flags _ => true
  | _ => false

end Ast

/-! ### Depth -/

/-- How deep a pattern may nest. -/
def nestLimit : Nat := 250

mutual

/-- How deep an item of a class nests. -/
def ClassItem.depth : ClassItem → Nat
  | .bracketed _ set => set.depth + 1
  | _ => 0

/-- How deep the inside of a class nests.  Two items or more make a level of their own. -/
def ClassSet.depth : ClassSet → Nat
  | .items list => if list.length ≤ 1 then itemsDepth list else itemsDepth list + 1
  | .operation _ left right => max left.depth right.depth + 1

/-- The depth of the deepest item. -/
def itemsDepth : List ClassItem → Nat
  | [] => 0
  | item :: rest => max item.depth (itemsDepth rest)

end

mutual

/-- How deep a pattern nests. -/
def Ast.depth : Ast → Nat
  | .bracketed _ set => set.depth + 1
  | .repetition _ _ _ body => body.depth + 1
  | .capture _ body => body.depth + 1
  | .group _ body => body.depth + 1
  | .concat parts => listDepth parts + 1
  | .alternation branches => listDepth branches + 1
  | _ => 0

/-- The depth of the deepest pattern. -/
def listDepth : List Ast → Nat
  | [] => 0
  | part :: rest => max part.depth (listDepth rest)

end

end ChartParsing.Pattern
