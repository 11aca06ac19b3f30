/-!
# Sets of characters as ordered runs of code points

A `CharSet` lists its members as runs `(first, last)` of code points: in increasing order, apart
from each other by at least one code point, and clear of the surrogate gap.  Two sets with the same
members therefore have the same runs, and equality of sets is equality of lists.

Every operation is built from two: `insertRun` adds one run, and `gaps` lists what lies between the
runs.  Complement, intersection and difference follow from these by the laws of Boolean algebra.

## What is left open

The order of the runs is kept by the operations below, not by the type: a list written by hand has
to be in order itself.
-/

namespace ChartParsing

/-- A set of characters, as its runs of consecutive code points in increasing order. -/
structure CharSet where
  runs : List (Nat × Nat)
deriving DecidableEq, Repr, Inhabited

namespace CharSet

/-! ### Runs -/

/-- Adds the run from `lo` to `hi`, joining it with every run that it meets or touches. -/
def insertRun (lo hi : Nat) : List (Nat × Nat) → List (Nat × Nat)
  | [] => [(lo, hi)]
  | (a, b) :: rest =>
      if hi + 1 < a then (lo, hi) :: (a, b) :: rest
      else if b + 1 < lo then (a, b) :: insertRun lo hi rest
      else insertRun (min lo a) (max hi b) rest

/-- The runs of code points from `lo` to `hi` that the given runs leave out. -/
def gaps (lo hi : Nat) : List (Nat × Nat) → List (Nat × Nat)
  | [] => if lo ≤ hi then [(lo, hi)] else []
  | (a, b) :: rest =>
      if hi < a then (if lo ≤ hi then [(lo, hi)] else [])
      else if lo < a then (lo, a - 1) :: gaps (max lo (b + 1)) hi rest
      else gaps (max lo (b + 1)) hi rest

/-- Is the code point in one of the runs?  The search stops at the first run beyond it. -/
def hasCode (n : Nat) : List (Nat × Nat) → Bool
  | [] => false
  | (a, b) :: rest => if n < a then false else if n ≤ b then true else hasCode n rest

/-! ### Sets -/

/-- The set without members. -/
def empty : CharSet := ⟨[]⟩

/-- All characters: every code point outside the surrogate gap. -/
def all : CharSet := ⟨[(0, 0xD7FF), (0xE000, 0x10FFFF)]⟩

/-- Membership. -/
def contains (s : CharSet) (c : Char) : Bool := hasCode c.toNat s.runs

/-- The set of the characters from code point `lo` to code point `hi`. -/
def range (lo hi : Nat) : CharSet :=
  let low := if lo ≤ min hi 0xD7FF then [(lo, min hi 0xD7FF)] else []
  let high := if max lo 0xE000 ≤ min hi 0x10FFFF then [(max lo 0xE000, min hi 0x10FFFF)] else []
  ⟨low ++ high⟩

/-- The set with one member. -/
def single (c : Char) : CharSet := ⟨[(c.toNat, c.toNat)]⟩

/-- The members of either set. -/
def union (s t : CharSet) : CharSet :=
  ⟨t.runs.foldr (fun r acc => insertRun r.1 r.2 acc) s.runs⟩

/-- The characters that are not members. -/
def complement (s : CharSet) : CharSet :=
  ⟨gaps 0 0xD7FF s.runs ++ gaps 0xE000 0x10FFFF s.runs⟩

/-- The members of both sets. -/
def inter (s t : CharSet) : CharSet := (s.complement.union t.complement).complement

/-- The members of the first set that are not in the second. -/
def diff (s t : CharSet) : CharSet := s.inter t.complement

/-- The members of exactly one of the sets. -/
def symmDiff (s t : CharSet) : CharSet := (s.union t).diff (s.inter t)

/-- The set of the given characters. -/
def ofList (cs : List Char) : CharSet := cs.foldl (fun s c => s.union (single c)) empty

/-- Has the set no members? -/
def isEmpty (s : CharSet) : Bool := s.runs.isEmpty

/-- The only member of a set that has exactly one. -/
def only? (s : CharSet) : Option Char :=
  match s.runs with
  | [(a, b)] => if a = b then some (Char.ofNat a) else none
  | _ => none

/-- Does the set hold ASCII characters only? -/
def isAscii (s : CharSet) : Bool := s.runs.all (fun r => r.2 < 128)

/-! ### Sets written as text

Tables write a set as its runs in hexadecimal, parted by blanks and ends of lines:
`41-5A 61-7A AA`. -/

/-- The value of a hexadecimal digit, and zero for any other character. -/
def hexDigit (c : Char) : Nat :=
  if '0' ≤ c ∧ c ≤ '9' then c.toNat - 48
  else if 'A' ≤ c ∧ c ≤ 'F' then c.toNat - 55
  else if 'a' ≤ c ∧ c ≤ 'f' then c.toNat - 87
  else 0

/-- Reads the runs of a table: `first` is the start of the run being read, when its `-` was seen,
and `value` is the number read so far, when a digit was seen. -/
def readRuns (first value : Option Nat) : List Char → List (Nat × Nat)
  | [] => flush
  | ' ' :: rest => flush ++ readRuns none none rest
  | '\n' :: rest => flush ++ readRuns none none rest
  | '-' :: rest => readRuns value none rest
  | c :: rest => readRuns first (some (16 * value.getD 0 + hexDigit c)) rest
where
  /-- The run that ends here, if one was begun. -/
  flush : List (Nat × Nat) :=
    match value with
    | some b => [(first.getD b, b)]
    | none => []

/-- The set that a table writes; its runs have to be in order. -/
def ofTable (text : String) : CharSet := ⟨readRuns none none text.toList⟩

/-! ### Membership -/

@[simp] theorem contains_empty (c : Char) : empty.contains c = false := rfl

theorem contains_single (c d : Char) : (single c).contains d = decide (d = c) := by
  simp only [single, contains, hasCode]
  by_cases h : d = c
  · subst h
    simp
  · have hn : d.toNat ≠ c.toNat := fun e => h (Char.toNat_inj.1 e)
    rw [decide_eq_false h]
    split
    · rfl
    · rw [if_neg (by omega)]

end CharSet

end ChartParsing
