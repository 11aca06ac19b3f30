import ChartParsing.Unicode.CharSet

/-!
# Patterns without flags

A `Node` is a pattern after all flags are applied.  Nodes are made by the functions `Node.class`,
`Node.repeated`, `Node.joined` and `Node.either`, which keep them simple: sequences hold no empty
parts, no sequences and no two literals in a row; choices hold no choices, and a choice between
single characters is a class.

A choice whose branches are all sequences that start alike is turned into the common beginning
followed by a choice between what remains.  Where the beginning can match in several ways this decides
which match is preferred: in the choice between `x*y` and `x*z`, the longest run that either ending
follows.
-/

namespace ChartParsing.Pattern

/-- Conditions on a place in a text. -/
inductive Look where
  | start
  | stop
  | lineStart
  | lineEnd
  | crlfStart
  | crlfEnd
  | boundary (unicode : Bool)
  | notBoundary (unicode : Bool)
  | wordStart (unicode : Bool)
  | wordEnd (unicode : Bool)
  | wordStartHalf (unicode : Bool)
  | wordEndHalf (unicode : Bool)
deriving DecidableEq, Repr

/-- A pattern without flags. -/
inductive Node where
  | empty
  | literal (chars : List Char)
  | set (members : CharSet)
  | look (condition : Look)
  | repetition (min : Nat) (max : Option Nat) (greedy : Bool) (body : Node)
  | capture (index : Nat) (body : Node)
  | concat (parts : List Node)
  | alternation (branches : List Node)
deriving Inhabited

namespace Node

/-! ### Equality -/

mutual

/-- Are the two patterns the same? -/
def same : Node → Node → Bool
  | .empty, .empty => true
  | .literal cs, .literal ds => cs == ds
  | .set s, .set t => s == t
  | .look a, .look b => a == b
  | .repetition m n g x, .repetition m' n' g' y => m == m' && n == n' && g == g' && same x y
  | .capture i x, .capture j y => i == j && same x y
  | .concat xs, .concat ys => sameList xs ys
  | .alternation xs, .alternation ys => sameList xs ys
  | _, _ => false

/-- Are the two lists of patterns the same? -/
def sameList : List Node → List Node → Bool
  | [], [] => true
  | x :: xs, y :: ys => same x y && sameList xs ys
  | _, _ => false

end

/-! ### Lengths of matches -/

/-- Adds lengths that may be unknown. -/
def addLengths (m n : Option Nat) : Option Nat :=
  match m, n with
  | some m, some n => some (m + n)
  | _, _ => none

/-- Combines lengths that may be unknown. -/
def pickLength (pick : Nat → Nat → Nat) (m n : Option Nat) : Option Nat :=
  match m, n with
  | some m, some n => some (pick m n)
  | _, _ => none

mutual

/-- The least number of characters of a match, if the pattern can match. -/
def minLength? : Node → Option Nat
  | .empty | .look _ => some 0
  | .literal cs => some cs.length
  | .set s => if s.isEmpty then none else some 1
  | .repetition min _ _ body => (minLength? body).map (min * ·)
  | .capture _ body => minLength? body
  | .concat parts => minLengthAll parts
  | .alternation branches => minLengthAny branches

/-- The least number of characters of a match of all patterns in a row. -/
def minLengthAll : List Node → Option Nat
  | [] => some 0
  | x :: xs => addLengths (minLength? x) (minLengthAll xs)

/-- The least number of characters of a match of any of the patterns. -/
def minLengthAny : List Node → Option Nat
  | [] => none
  | [x] => minLength? x
  | x :: xs => pickLength min (minLength? x) (minLengthAny xs)

end

mutual

/-- The greatest number of characters of a match, if there is one. -/
def maxLength? : Node → Option Nat
  | .empty | .look _ => some 0
  | .literal cs => some cs.length
  | .set s => if s.isEmpty then none else some 1
  | .repetition _ max _ body =>
      match max, maxLength? body with
      | some m, some n => some (m * n)
      | _, _ => none
  | .capture _ body => maxLength? body
  | .concat parts => maxLengthAll parts
  | .alternation branches => maxLengthAny branches

/-- The greatest number of characters of a match of all patterns in a row. -/
def maxLengthAll : List Node → Option Nat
  | [] => some 0
  | x :: xs => addLengths (maxLength? x) (maxLengthAll xs)

/-- The greatest number of characters of a match of any of the patterns. -/
def maxLengthAny : List Node → Option Nat
  | [] => none
  | [x] => maxLength? x
  | x :: xs => pickLength max (maxLength? x) (maxLengthAny xs)

end

/-- Does every match of the pattern have a character? -/
def alwaysMoves (n : Node) : Bool :=
  match n.minLength? with
  | some m => 0 < m
  | none => false

/-! ### Making nodes -/

/-- The pattern of one character out of a set; a set of one is a literal. -/
def «class» (s : CharSet) : Node :=
  match s.only? with
  | some c => .literal [c]
  | none => .set s

/-- A repetition.  What matches nothing but the empty text is repeated once at most, no repetition at
all is the empty pattern, and one repetition is the pattern itself. -/
def repeated (min : Nat) (max : Option Nat) (greedy : Bool) (body : Node) : Node :=
  let still := body.maxLength? = some 0
  let min := if still then Min.min min 1 else min
  let max := if still then some (Min.min (max.getD 1) 1) else max
  if min = 0 ∧ max = some 0 then .empty
  else if min = 1 ∧ max = some 1 then body
  else .repetition min max greedy body

/-- The parts of a sequence, when it is one. -/
def partsOf : Node → List Node
  | .empty => []
  | .concat parts => parts
  | n => [n]

/-- Puts literals that follow one another together. -/
def mergeLiterals : List Node → List Node
  | [] => []
  | .literal cs :: rest =>
      match mergeLiterals rest with
      | .literal ds :: more => .literal (cs ++ ds) :: more
      | merged => .literal cs :: merged
  | n :: rest => n :: mergeLiterals rest

/-- A sequence. -/
def joined (parts : List Node) : Node :=
  match mergeLiterals (parts.flatMap partsOf) with
  | [] => .empty
  | [n] => n
  | merged => .concat merged

/-- The branches of a choice, when it is one. -/
def branchesOf : Node → List Node
  | .alternation branches => branches
  | n => [n]

/-- The character of a pattern that is one. -/
def singleChar? : Node → Option Char
  | .literal [c] => some c
  | _ => none

/-- The set of a pattern that is one. -/
def members? : Node → Option CharSet
  | .set s => some s
  | _ => none

/-- The parts of a pattern that is a sequence. -/
def sequence? : Node → Option (List Node)
  | .concat parts => some parts
  | _ => none

/-- How many parts two sequences share at their starts. -/
def commonLength : List Node → List Node → Nat
  | x :: xs, y :: ys => if same x y then commonLength xs ys + 1 else 0
  | _, _ => 0

/-- How many parts all sequences share at their starts. -/
def sharedLength : List (List Node) → Nat
  | [] => 0
  | first :: others => others.foldl (fun n parts => min n (commonLength first parts)) first.length

/-- A choice.  `lifts` bounds how often a common beginning is taken out. -/
def eitherOf : Nat → List Node → Node
  | lifts, branches =>
      let flat := branches.flatMap branchesOf
      match flat with
      | [] => .set CharSet.empty
      | [n] => n
      | _ =>
          match flat.mapM singleChar?, flat.mapM members? with
          | some cs, _ => Node.class (CharSet.ofList cs)
          | _, some sets => Node.class (sets.foldl CharSet.union CharSet.empty)
          | _, _ =>
              match lifts, flat.mapM sequence? with
              | lifts + 1, some sequences =>
                  let n := sharedLength sequences
                  if n = 0 then .alternation flat
                  else
                    let shared := (sequences.headD []).take n
                    let endings := sequences.map (fun parts => joined (parts.drop n))
                    joined (shared ++ [eitherOf lifts endings])
              | _, _ => .alternation flat

/-- A choice. -/
def either (branches : List Node) : Node :=
  eitherOf (branches.foldl (fun total n => total + (partsOf n).length) 1) branches

end Node

end ChartParsing.Pattern
