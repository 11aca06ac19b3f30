import ChartParsing.Symbol

/-!
# Sweeping a text for occurrences

`Symbol.occurrences` asks for a match at every place of a text.  Where something can be searched for from a
place on, a sweep finds the same: it searches, reports what was found, and goes on one character behind the
place where that starts, so that occurrences can overlap.

How patterns are searched for is left open.  A sweep takes a `Search` as an argument, and `Search.Leftmost`
says what is relied on.  `Search.placewise` is the search that asks at one place after the other.
-/

namespace ChartParsing

/-- Where a match starts and where it stops. -/
structure Span where
  start : Nat
  stop : Nat
deriving DecidableEq, Repr

namespace Text

/-- How many bytes stand in front of the first place where the given text stands. -/
def offsetOf? : Text → Text → Option Nat
  | [], part => if part.isEmpty then some 0 else none
  | x :: xs, part =>
      if startsWith (x :: xs) part then some 0
      else (offsetOf? xs part).map (fun n => x.utf8Size + n)

/-- The offset behind the character at an offset, or one byte further on where there is none. -/
def behind (t : Text) (offset : Nat) : Nat :=
  match (t.seek? offset).bind Cursor.after with
  | some x => offset + x.utf8Size
  | none => offset + 1

/-- Searches from an offset on, and then from the character behind the start of what was found, and so on,
`rounds` times at most. -/
def sweep (t : Text) (next? : Nat → Option Span) (report? : Span → Option Occurrence) :
    Nat → Nat → List Occurrence
  | 0, _ => []
  | rounds + 1, offset =>
      match next? offset with
      | none => []
      | some span =>
          (report? span).toList ++ sweep t next? report? rounds (t.behind span.start)

end Text

/-! ### Searching for patterns -/

/-- The stop of the match that starts at an offset. -/
def Pattern.stopAt? (p : Pattern) (input : Text) (start : Nat) : Option Nat :=
  (input.seek? start).bind (fun c => (p.matchAt? c).map Cursor.offset)

/-- The match that starts at a cursor. -/
def Pattern.spanAt? (p : Pattern) (c : Cursor) : Option Span :=
  (p.matchAt? c).map (fun stop => ⟨c.offset, stop.offset⟩)

/-- A way to search for patterns from an offset on. -/
abbrev Search := Pattern → Text → Nat → Option Span

namespace Search

/-- From any place of a text on, a search answers the match at the first place where there is one. -/
structure Leftmost (search : Search) : Prop where
  found : ∀ p input offset span, (input.seek? offset).isSome = true →
    search p input offset = some span → offset ≤ span.start ∧
      p.stopAt? input span.start = some span.stop ∧
        ∀ start, offset ≤ start → start < span.start → p.stopAt? input start = none
  missing : ∀ p input offset, (input.seek? offset).isSome = true →
    search p input offset = none → ∀ start, offset ≤ start → p.stopAt? input start = none

/-- Asks at one place after the other. -/
def placewise : Search := fun p input offset =>
  (input.cursors.filter (fun c => offset ≤ c.offset)).findSome? p.spanAt?

end Search

/-! ### Sweeps of symbols -/

namespace PatternTerminal

/-- The next match from an offset on; there is none at the end of the text. -/
def next? (t : PatternTerminal) (search : Search) (input : Text) (offset : Nat) : Option Span :=
  if offset < input.byteLength then search t.pattern input offset else none

/-- A match is reported if it is not empty and stands between boundaries. -/
def report? (t : PatternTerminal) (input : Text) (span : Span) : Option Occurrence :=
  if span.start ≠ span.stop ∧ t.boundary.acceptsSpan input span.start span.stop = true then
    (input.slice? span.start span.stop).map (fun text =>
      ⟨String.ofList text, span.start, span.stop⟩)
  else none

/-- All matches that a sweep reports. -/
def sweep (t : PatternTerminal) (search : Search) (rounds : Nat) (input : Text) :
    List Occurrence :=
  input.sweep (t.next? search input) (t.report? input) rounds 0

end PatternTerminal

namespace Symbol

/-- Where a literal stands next, from an offset on. -/
def nextLiteral? (text : String) (input : Text) (offset : Nat) : Option Span :=
  (input.seek? offset).bind (fun c => (c.rest.offsetOf? text.toList).map (fun n =>
    ⟨offset + n, offset + n + Text.byteLength text.toList⟩))

/-- All occurrences that a sweep reports.  An empty literal stands nowhere. -/
def sweep (s : Symbol) (search : Search) (rounds : Nat) (input : Text) : List Occurrence :=
  match s with
  | .literal text =>
      if text.isEmpty then []
      else input.sweep (nextLiteral? text input)
        (fun span => some ⟨text, span.start, span.stop⟩) rounds 0
  | .pattern t => t.sweep search rounds input
  | .entity _ t => t.sweep search rounds input
  | .nonterminal _ | .gap _ => []

end Symbol

end ChartParsing
