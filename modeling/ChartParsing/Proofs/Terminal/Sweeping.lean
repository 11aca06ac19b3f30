import ChartParsing.Symbol.Sweep
import ChartParsing.Proofs.Terminal.Matches

/-!
# What a sweep finds

A sweep looks at few places: it searches on from the character behind the last start.  What it relies on is
`Text.Finds`: from every cursor, the search answers the first place where there is anything to find, up to
matches that are not reported.  Then a sweep misses nothing, because all cursors that it leaps over have
nothing to find.

* **`Text.Finds.sweep_eq`** says so of any search and any report.
* **`PatternTerminal.finds`** and **`Symbol.finds_literal`**: the searches for patterns and literals are of
  this kind, the former with any search that is leftmost.

Main statement: **`Symbol.sweep_exact`**.  The sweep for a symbol ends, and finds exactly the matches that
are not empty, each once, by their starts.
-/

namespace ChartParsing

/-! ### Sweeps -/

namespace Text

variable {input : Text} {next? : Nat → Option Span} {report? : Span → Option Occurrence}
  {at? : Cursor → Option Occurrence} {c : Cursor} {rounds : Nat}

/-- From every cursor, a search finds a place ahead with nothing to find in front of it, and what is
reported is what there is to find at that place. -/
structure Finds (input : Text) (next? : Nat → Option Span) (report? : Span → Option Occurrence)
    (at? : Cursor → Option Occurrence) : Prop where
  found : ∀ c ∈ input.cursors, ∀ span, next? c.offset = some span →
    ∃ c' ∈ c.ahead, c'.offset = span.start ∧ report? span = at? c' ∧
      ∀ x ∈ c.ahead, x.offset < c'.offset → at? x = none
  missing : ∀ c ∈ input.cursors, next? c.offset = none → ∀ x ∈ c.ahead, at? x = none
  beyond : ∀ offset, input.byteLength < offset → next? offset = none

theorem behind_of_end (hc : c ∈ input.cursors) (hr : c.rest = []) :
    input.behind c.offset = c.offset + 1 := by
  simp [behind, seek?_eq_some.2 ⟨hc, rfl⟩, Cursor.after, hr]

theorem behind_of_cons {x : Char} {xs : Text} (hc : c ∈ input.cursors) (hr : c.rest = x :: xs) :
    input.behind c.offset = c.offset + x.utf8Size := by
  simp [behind, seek?_eq_some.2 ⟨hc, rfl⟩, Cursor.after, hr]

theorem sweep_of_next?_eq_none {offset : Nat} (h : next? offset = none) :
    input.sweep next? report? rounds offset = [] := by
  cases rounds with
  | zero => rfl
  | succ rounds => simp [sweep, h]

/-- **One round of a sweep** takes what there is to find at the first place where there may be anything, and
leaves what there is to find behind it. -/
theorem Finds.round (h : Finds input next? report? at?) (rounds : Nat) (hc : c ∈ input.cursors)
    {span : Span} (hn : next? c.offset = some span) : ∃ c' ∈ c.ahead, ∃ behind,
      c'.ahead = c' :: behind ∧
        c.ahead.filterMap at? = (at? c').toList ++ behind.filterMap at? ∧
          input.sweep next? report? (rounds + 1) c.offset =
            (at? c').toList ++ input.sweep next? report? rounds (input.behind c'.offset) := by
  obtain ⟨c', hc', ho, hreport, hnone⟩ := h.found c hc span hn
  obtain ⟨skipped, hskipped, hlt⟩ := Cursor.exists_ahead_eq_append hc'
  obtain ⟨behind, hbehind⟩ := Cursor.exists_ahead_eq_cons c'
  have hleap : skipped.filterMap at? = [] := by
    refine List.filterMap_eq_nil_iff.2 (fun x hx => hnone x ?_ (hlt x hx))
    rw [hskipped]
    exact List.mem_append_left _ hx
  refine ⟨c', hc', behind, hbehind, ?_, ?_⟩
  · rw [hskipped, List.filterMap_append, hleap, List.nil_append, hbehind, List.filterMap_cons]
    cases at? c' <;> rfl
  · simp only [sweep, hn, hreport, ho]

/-- **A sweep finds what there is to find** at the cursors ahead, if it may go on for more rounds than
there are bytes ahead. -/
theorem Finds.sweep_eq (h : Finds input next? report? at?) (hc : c ∈ input.cursors)
    (hr : byteLength c.rest < rounds) :
    input.sweep next? report? rounds c.offset = c.ahead.filterMap at? := by
  -- each round leaves fewer bytes ahead, since the next one starts behind a character
  induction rounds generalizing c with
  | zero => omega
  | succ rounds ih =>
      cases hn : next? c.offset with
      | none =>
          rw [sweep_of_next?_eq_none hn]
          exact (List.filterMap_eq_nil_iff.2 (h.missing c hc hn)).symm
      | some span =>
          obtain ⟨c', hc', behind, hbehind, hahead, hround⟩ := h.round rounds hc hn
          have hin : c' ∈ input.cursors := mem_cursors_of_ahead hc hc'
          rw [hround, hahead]
          congr 1
          cases hrest : c'.rest with
          | nil =>
              -- the next search starts beyond the end of the text
              have hend := offset_add_of_mem_cursors hin
              rw [hrest, byteLength, Nat.add_zero] at hend
              rw [Cursor.ahead_of_end hrest] at hbehind
              obtain rfl : behind = [] := (List.cons.inj hbehind).2.symm
              rw [behind_of_end hin hrest, sweep_of_next?_eq_none (h.beyond _ (by omega)),
                List.filterMap_nil]
          | cons x xs =>
              have hx := x.utf8Size_pos
              have hstep := Cursor.mem_ahead_step hrest
              have hle := Cursor.offset_le_of_mem_ahead hc'
              have hfewer : byteLength xs < rounds := by
                have := Cursor.offset_add_of_mem_ahead (Cursor.ahead_trans hc' hstep)
                dsimp only at this
                omega
              rw [Cursor.ahead_of_cons hrest] at hbehind
              obtain rfl := (List.cons.inj hbehind).2
              rw [behind_of_cons hin hrest]
              exact ih (mem_cursors_of_ahead hin hstep) hfewer

/-- A sweep of the whole text. -/
theorem Finds.sweep_start (h : Finds input next? report? at?) (hr : input.byteLength < rounds) :
    input.sweep next? report? rounds 0 = input.cursors.filterMap at? :=
  h.sweep_eq (c := input.start) (Cursor.mem_ahead_self _) hr

end Text

/-! ### The first of many places -/

/-- What is found first in a row of cursors that get on is found in front of everything else. -/
theorem Cursor.exists_first {α : Type} {f : Cursor → Option α} {cs : List Cursor} {a : α}
    (hcs : cs.Pairwise (·.offset < ·.offset)) (h : cs.findSome? f = some a) :
    ∃ c ∈ cs, f c = some a ∧ ∀ x ∈ cs, x.offset < c.offset → f x = none := by
  obtain ⟨front, c, behind, rfl, hc, hnone⟩ := List.findSome?_eq_some_iff.1 h
  refine ⟨c, by simp, hc, fun x hx hlt => ?_⟩
  have hbehind := (List.pairwise_cons.1 (List.pairwise_append.1 hcs).2.1).1
  rcases List.mem_append.1 hx with hx | hx
  · exact hnone x hx
  · rcases List.mem_cons.1 hx with rfl | hx
    · exact absurd hlt (Nat.lt_irrefl _)
    · exact absurd hlt (Nat.lt_asymm (hbehind x hx))

/-- What is found at each of the cursors of a text comes in the order of its starts. -/
theorem Text.pairwise_filterMap_cursors {at? : Cursor → Option Occurrence}
    (h : ∀ c x, at? c = some x → x.start = c.offset) (input : Text) :
    (input.cursors.filterMap at?).Pairwise (·.start < ·.start) := by
  refine (Cursor.pairwise_ahead input.start).filterMap at? (fun c c' hlt x hx x' hx' => ?_)
  rw [h c x hx, h c' x' hx']
  exact hlt

/-! ### Patterns -/

namespace Pattern

variable {p : Pattern} {input : Text} {c : Cursor} {start stop : Nat}

theorem stopAt?_eq_some : p.stopAt? input start = some stop ↔
    ∃ c ∈ input.cursors, c.offset = start ∧ p.spanAt? c = some ⟨start, stop⟩ := by
  simp only [stopAt?, spanAt?, Option.bind_eq_some_iff, Option.map_eq_some_iff, Text.seek?_eq_some,
    Span.mk.injEq]
  constructor
  · rintro ⟨c, ⟨hc, ho⟩, c', hm, hs⟩
    exact ⟨c, hc, ho, c', hm, ho, hs⟩
  · rintro ⟨c, hc, ho, c', hm, -, hs⟩
    exact ⟨c, ⟨hc, ho⟩, c', hm, hs⟩

theorem stopAt?_eq_none : p.stopAt? input start = none ↔
    ∀ c ∈ input.cursors, c.offset = start → p.spanAt? c = none := by
  simp only [stopAt?, spanAt?, Option.bind_eq_none_iff, Option.map_eq_none_iff, Text.seek?_eq_some,
    and_imp]

end Pattern

namespace Search

/-- **Asking at one place after the other is a leftmost search.** -/
theorem placewise_leftmost : placewise.Leftmost where
  found := by
    intro p input offset span hoffset h
    have hsorted : (input.cursors.filter (fun c => offset ≤ c.offset)).Pairwise
        (·.offset < ·.offset) := (Cursor.pairwise_ahead input.start).filter _
    obtain ⟨c, hc, hspan, hnone⟩ := Cursor.exists_first hsorted h
    simp only [List.mem_filter, decide_eq_true_eq] at hc hnone
    have hstart : span.start = c.offset := by
      obtain ⟨stop, -, rfl⟩ := Option.map_eq_some_iff.1 hspan
      rfl
    refine ⟨by omega, ?_, fun start hle hlt => ?_⟩
    · exact Pattern.stopAt?_eq_some.2 ⟨c, hc.1, hstart.symm, hspan⟩
    · refine Pattern.stopAt?_eq_none.2 (fun x hx ho => hnone x ⟨hx, ?_⟩ ?_)
      · omega
      · omega
  missing := by
    intro p input offset hoffset h start hle
    rw [placewise, List.findSome?_eq_none_iff] at h
    refine Pattern.stopAt?_eq_none.2 (fun c hc ho => h c ?_)
    simp only [List.mem_filter, decide_eq_true_eq]
    exact ⟨hc, by omega⟩

end Search

namespace PatternTerminal

variable {t : PatternTerminal} {input : Text} {c : Cursor} {span : Span} {search : Search}

theorem occurrenceFrom?_of_spanAt?_eq_none (h : t.pattern.spanAt? c = none) :
    t.occurrenceFrom? c = none := by
  have hm : t.pattern.matchAt? c = none := by simpa [Pattern.spanAt?] using h
  simp [occurrenceFrom?, matchFrom?, hm]

/-- At the end of a text there is nothing but the empty match. -/
theorem occurrenceFrom?_of_end (hr : c.rest = []) : t.occurrenceFrom? c = none := by
  unfold occurrenceFrom?
  cases hm : t.matchFrom? c with
  | none => rfl
  | some found =>
      obtain ⟨text, stop⟩ := found
      have htext := (matchFrom?_eq_some hm).2
      simp [htext, hr]

/-- What is reported of a match is the occurrence at its start. -/
theorem report?_of_spanAt? (hc : c ∈ input.cursors) (h : t.pattern.spanAt? c = some span) :
    t.report? input span = t.occurrenceFrom? c := by
  obtain ⟨stop, hm, rfl⟩ := Option.map_eq_some_iff.1 h
  have hstop := Text.mem_cursors_of_ahead hc (Pattern.mem_ahead_of_matchAt? hm)
  have haccepts : t.boundary.acceptsSpan input c.offset stop.offset =
      t.boundary.accepts c.before stop.after := by
    simp [Boundary.acceptsSpan, Text.seek?_eq_some.2 ⟨hc, rfl⟩, Text.seek?_eq_some.2 ⟨hstop, rfl⟩]
  cases ha : t.boundary.accepts c.before stop.after with
  | false => simp [report?, occurrenceFrom?, matchFrom?, hm, haccepts, ha]
  | true =>
      have hfrom : t.matchFrom? c =
          some (c.rest.take (c.rest.length - stop.rest.length), stop) := by
        simp [matchFrom?, hm, ha]
      have hempty := isEmpty_iff_of_matchFrom? hfrom
      have hslice := slice?_of_matchFrom? hc hfrom
      unfold report? occurrenceFrom?
      rw [hfrom, haccepts, hslice]
      dsimp only
      by_cases he : stop.offset = c.offset
      · rw [if_neg (fun hne => hne.1 he.symm), if_pos (hempty.2 he)]
      · rw [if_pos ⟨Ne.symm he, ha⟩, if_neg (fun htrue => he (hempty.1 htrue))]
        rfl

theorem start_of_occurrenceFrom? (c : Cursor) (x : Occurrence) (h : t.occurrenceFrom? c = some x) :
    x.start = c.offset := by
  unfold occurrenceFrom? at h
  cases hm : t.matchFrom? c with
  | none => simp [hm] at h
  | some found =>
      obtain ⟨text, stop⟩ := found
      simp only [hm] at h
      split at h
      · simp at h
      · rw [← Option.some.inj h]

/-- **The search for a pattern finds the next place with a match**, and all those with an occurrence are
among them. -/
theorem finds (h : search.Leftmost) (t : PatternTerminal) (input : Text) :
    input.Finds (t.next? search input) (t.report? input) t.occurrenceFrom? where
  found := by
    intro c hc span hn
    have hs := (Option.ite_none_right_eq_some.1 hn).2
    have hplace := Text.isSome_seek?_of_mem hc
    obtain ⟨hle, hstop, hnone⟩ := h.found t.pattern input c.offset span hplace hs
    obtain ⟨c', hc', ho, hspan⟩ := Pattern.stopAt?_eq_some.1 hstop
    refine ⟨c', Cursor.mem_ahead_of_le (d := input.start) hc hc' (by omega), ho,
      report?_of_spanAt? hc' hspan, fun x hx hlt => ?_⟩
    have hge := Cursor.offset_le_of_mem_ahead hx
    exact occurrenceFrom?_of_spanAt?_eq_none (Pattern.stopAt?_eq_none.1
      (hnone x.offset hge (by omega)) x (Text.mem_cursors_of_ahead hc hx) rfl)
  missing := by
    intro c hc hn x hx
    have hin := Text.mem_cursors_of_ahead hc hx
    have hge := Cursor.offset_le_of_mem_ahead hx
    by_cases hlt : c.offset < input.byteLength
    · have hs : search t.pattern input c.offset = none := by rwa [next?, if_pos hlt] at hn
      have hnone := h.missing t.pattern input c.offset (Text.isSome_seek?_of_mem hc) hs
      exact occurrenceFrom?_of_spanAt?_eq_none
        (Pattern.stopAt?_eq_none.1 (hnone x.offset hge) x hin rfl)
    · exact occurrenceFrom?_of_end (Text.rest_eq_nil_of_le hin (by omega))
  beyond := by
    intro offset hlt
    exact if_neg (by omega)

/-- The sweep for a pattern finds all its occurrences. -/
theorem sweep_eq (h : search.Leftmost) {rounds : Nat} (hr : input.byteLength < rounds) :
    t.sweep search rounds input = t.occurrences input :=
  (finds h t input).sweep_start hr

end PatternTerminal

/-! ### Literals -/

namespace Symbol

variable {text : String} {input : Text} {c : Cursor}

/-- Where a literal stands, if it stands at a cursor. -/
def literalAt? (text : String) (c : Cursor) : Option Span :=
  if c.rest.startsWith text.toList then
    some ⟨c.offset, c.offset + Text.byteLength text.toList⟩
  else none

/-- The occurrence of a literal at a cursor. -/
def literalFrom? (text : String) (c : Cursor) : Option Occurrence :=
  (literalAt? text c).map (fun span => ⟨text, span.start, span.stop⟩)

theorem start_of_literalAt? {span : Span} (h : literalAt? text c = some span) :
    span.start = c.offset := by
  have hat := (Option.ite_none_right_eq_some.1 h).2
  rw [← Option.some.inj hat]

/-- The search in the rest of a text comes to the first cursor where the literal stands. -/
theorem offsetOf?_eq_findSome? : (c.rest.offsetOf? text.toList).map (fun n =>
      (⟨c.offset + n, c.offset + n + Text.byteLength text.toList⟩ : Span)) =
    c.ahead.findSome? (literalAt? text) := by
  obtain ⟨offset, before, rest⟩ := c
  induction rest generalizing offset before with
  | nil =>
      cases ht : text.toList <;>
        simp [Text.offsetOf?, Cursor.ahead, Text.cursorsFrom, literalAt?, Text.startsWith,
          Text.dropPrefix?, ht]
  | cons x xs ih =>
      have hon := ih (offset + x.utf8Size) (some x)
      dsimp only at hon
      rw [Cursor.ahead_cons, List.findSome?_cons]
      cases hs : Text.startsWith (x :: xs) text.toList with
      | true => simp [literalAt?, Text.offsetOf?, hs]
      | false => simp [literalAt?, Text.offsetOf?, hs, ← hon, Function.comp_def, Nat.add_assoc]

theorem nextLiteral?_eq (hc : c ∈ input.cursors) :
    nextLiteral? text input c.offset = c.ahead.findSome? (literalAt? text) := by
  rw [← offsetOf?_eq_findSome?, nextLiteral?, Text.seek?_eq_some.2 ⟨hc, rfl⟩, Option.bind_some]

/-- **The search for a literal finds the next place where it stands.** -/
theorem finds_literal (text : String) (input : Text) :
    input.Finds (nextLiteral? text input) (fun span => some ⟨text, span.start, span.stop⟩)
      (literalFrom? text) where
  found := by
    intro c hc span hn
    rw [nextLiteral?_eq hc] at hn
    obtain ⟨c', hc', hspan, hnone⟩ := Cursor.exists_first (Cursor.pairwise_ahead c) hn
    refine ⟨c', hc', (start_of_literalAt? hspan).symm, ?_, fun x hx hlt => ?_⟩
    · rw [literalFrom?, hspan, Option.map_some]
    · rw [literalFrom?, hnone x hx hlt, Option.map_none]
  missing := by
    intro c hc hn x hx
    rw [nextLiteral?_eq hc] at hn
    rw [literalFrom?, List.findSome?_eq_none_iff.1 hn x hx, Option.map_none]
  beyond := by
    intro offset hlt
    rw [nextLiteral?, Text.seek?_eq_none_of_lt hlt, Option.bind_none]

theorem literalOccurrences_eq (h : text.isEmpty = false) :
    literalOccurrences text input = input.cursors.filterMap (literalFrom? text) := by
  unfold literalOccurrences
  rw [h, if_neg Bool.false_ne_true, ← List.filterMap_eq_map, List.filterMap_filter]
  congr 1
  funext c
  cases hs : c.rest.startsWith text.toList <;> simp [literalFrom?, literalAt?, hs]

/-! ### Symbols -/

/-- The sweep for a symbol finds all its occurrences. -/
theorem sweep_eq {search : Search} (h : search.Leftmost) (s : Symbol) {rounds : Nat}
    (hr : input.byteLength < rounds) : s.sweep search rounds input = s.occurrences input := by
  cases s with
  | nonterminal _ => rfl
  | gap _ => rfl
  | pattern t => exact PatternTerminal.sweep_eq h hr
  | entity _ t => exact PatternTerminal.sweep_eq h hr
  | literal text =>
      show (if text.isEmpty then [] else _) = literalOccurrences text input
      cases he : text.isEmpty with
      | true => simp [literalOccurrences, he]
      | false =>
          rw [literalOccurrences_eq he]
          exact (finds_literal text input).sweep_start hr

/-- Each occurrence starts behind the start of the one before it. -/
theorem pairwise_occurrences (s : Symbol) (input : Text) :
    (s.occurrences input).Pairwise (·.start < ·.start) := by
  cases s with
  | nonterminal _ => exact List.Pairwise.nil
  | gap _ => exact List.Pairwise.nil
  | pattern t => exact Text.pairwise_filterMap_cursors t.start_of_occurrenceFrom? input
  | entity _ t => exact Text.pairwise_filterMap_cursors t.start_of_occurrenceFrom? input
  | literal text =>
      show (literalOccurrences text input).Pairwise _
      cases he : text.isEmpty with
      | true => simp [literalOccurrences, he]
      | false =>
          rw [literalOccurrences_eq he]
          refine Text.pairwise_filterMap_cursors (fun c x hx => ?_) input
          obtain ⟨span, hspan, rfl⟩ := Option.map_eq_some_iff.1 hx
          exact start_of_literalAt? hspan

/-- An occurrence is a match that is not empty, and all these are occurrences. -/
theorem mem_occurrences_iff {s : Symbol} {x : Occurrence} : x ∈ s.occurrences input ↔
    s.matchAt? input x.start = some ⟨[x.text], x.stop⟩ ∧ x.start < x.stop := by
  refine ⟨matchAt?_of_mem_occurrences, fun ⟨hm, hlt⟩ => ?_⟩
  obtain ⟨y, hy, hstart⟩ := exists_occurrence hm (Nat.ne_of_gt hlt)
  have hmy := (matchAt?_of_mem_occurrences hy).1
  -- both have the match at this start, so they are the same
  obtain ⟨text, start, stop⟩ := x
  obtain ⟨text', start', stop'⟩ := y
  obtain rfl : start' = start := hstart
  obtain ⟨htext, rfl⟩ := Match.mk.inj (Option.some.inj (hm.symm.trans hmy))
  obtain rfl := List.singleton_inj.1 htext
  exact hy

/-- **A sweep is exact.**  Whatever leftmost search it uses for patterns, the sweep for a symbol ends, and
lists the matches that are not empty: one for each offset where there is one, by their starts, and nothing
else. -/
theorem sweep_exact {search : Search} (h : search.Leftmost) (s : Symbol) (input : Text) {rounds : Nat}
    (hr : input.byteLength < rounds) :
    s.sweep search rounds input = s.occurrences input ∧
      (s.sweep search rounds input).Pairwise (·.start < ·.start) ∧
        ∀ x, x ∈ s.sweep search rounds input ↔
          s.matchAt? input x.start = some ⟨[x.text], x.stop⟩ ∧ x.start < x.stop := by
  rw [sweep_eq h s hr]
  exact ⟨rfl, pairwise_occurrences s input, fun x => mem_occurrences_iff⟩

/-- Two occurrences that overlap, behind a character of two bytes. -/
theorem sweep_exact_overlapping : ∃ run, PatternTerminal.compile "a+" false .anywhere = .ok run ∧
    (pattern run).sweep .placewise 6 "éaab".toList = [⟨"aa", 2, 4⟩, ⟨"a", 3, 4⟩] := by
  have hfound : (PatternTerminal.compile "a+" false .anywhere).toOption.map
      (fun run => (pattern run).occurrences "éaab".toList) =
        some [⟨"aa", 2, 4⟩, ⟨"a", 3, 4⟩] := by decide +kernel
  cases hrun : PatternTerminal.compile "a+" false .anywhere with
  | error fault => simp [hrun, Except.toOption] at hfound
  | ok run =>
      refine ⟨run, rfl, ?_⟩
      rw [(sweep_exact Search.placewise_leftmost (pattern run) "éaab".toList (by decide)).1]
      simpa [hrun, Except.toOption] using hfound

end Symbol

end ChartParsing
