import ChartParsing.Proofs.Gaps.Targets
import ChartParsing.Proofs.Parsing.Places
import ChartParsing.Proofs.Parsing.Runs

/-!
# Slices of the input

Whatever a parser cuts out of its input has to start and stop between characters, in this order and within
the input.  A parser takes the text in front of a match and the text behind it to look at the neighbours
of the match, the text of the match itself, and the stretch that is handed to a gap.

With the usual lexer all of these are there, because the offsets of edges are good ones: an edge that is not
without a place stops where it starts or behind it (**`Built.start_le_stop`**), and both offsets are
places of the input.

Main statement: **`slices_exist`**.
-/

namespace ChartParsing

variable {rules : Array Rule}

/-! ### Places of a text -/

namespace Text

variable {t text : Text} {c stop : Cursor} {n p q : Nat}

/-- The offset lies between two characters of the text, or at one of its ends. -/
def Parts (t : Text) (n : Nat) : Prop := ∃ front back, t = front ++ back ∧ byteLength front = n

theorem parts_iff : t.Parts n ↔ (t.seek? n).isSome = true := by
  rw [Option.isSome_iff_exists]
  constructor
  · rintro ⟨front, back, ht, rfl⟩
    obtain ⟨c, hc, -, ho⟩ := Cursor.exists_mem_ahead_of_append (c := t.start) ht
    refine ⟨c, seek?_eq_some.2 ⟨hc, ?_⟩⟩
    rw [ho]
    exact Nat.zero_add _
  · rintro ⟨c, hs⟩
    obtain ⟨hc, rfl⟩ := seek?_eq_some.1 hs
    obtain ⟨front, ht, ho⟩ := Cursor.exists_append_of_mem_ahead (c := t.start) hc
    refine ⟨front, c.rest, ht, ?_⟩
    rw [ho]
    exact (Nat.zero_add _).symm

theorem Parts.le (h : t.Parts n) : n ≤ byteLength t := by
  obtain ⟨front, back, rfl, rfl⟩ := h
  rw [byteLength_append]
  exact Nat.le_add_right _ _

/-- Of two beginnings of a text the one with no more bytes is a beginning of the other one. -/
theorem exists_append_of_byteLength_le {front back front' back' : Text}
    (h : front ++ back = front' ++ back') (hle : byteLength front ≤ byteLength front') :
    ∃ middle, front' = front ++ middle := by
  rcases List.append_eq_append_iff.1 h with ⟨middle, hfront, -⟩ | ⟨middle, hfront, -⟩
  · exact ⟨middle, hfront⟩
  · -- the rest of the longer one has no bytes, so it has no characters
    rw [hfront, byteLength_append] at hle
    cases middle with
    | nil => exact ⟨[], by simpa using hfront.symm⟩
    | cons x xs =>
        have hx := x.utf8Size_pos
        simp only [byteLength] at hle
        omega

/-- **Between two places there is a slice.** -/
theorem Parts.exists_slice? (hp : t.Parts p) (hq : t.Parts q) (hle : p ≤ q) :
    ∃ text, t.slice? p q = some text := by
  obtain ⟨front, back, rfl, rfl⟩ := hp
  obtain ⟨front', back', ht, rfl⟩ := hq
  obtain ⟨middle, rfl⟩ := exists_append_of_byteLength_le ht hle
  rw [List.append_assoc, List.append_cancel_left_eq] at ht
  have hrest : (start (front ++ back)).rest = front ++ back := rfl
  obtain ⟨c, hc, hr, ho⟩ := Cursor.exists_mem_ahead_of_append hrest
  have hoffset : c.offset = byteLength front := by
    rw [ho]
    exact Nat.zero_add _
  exact ⟨middle, slice?_eq_some.2 ⟨c, hc, hoffset, byteLength_append _ _, back', hr.trans ht⟩⟩

/-- What stands in front of a cursor ends with the character that the cursor keeps of it. -/
theorem getLast?_of_mem_cursors (h : c ∈ t.cursors) :
    ∃ front, t = front ++ c.rest ∧ byteLength front = c.offset ∧ front.getLast? = c.before := by
  -- along the text, with what has been passed already in front
  have hall : ∀ (rest passed : Text) (offset : Nat) (before : Option Char),
      byteLength passed = offset → passed.getLast? = before →
        c ∈ cursorsFrom rest offset before → ∃ front, passed ++ rest = front ++ c.rest ∧
          byteLength front = c.offset ∧ front.getLast? = c.before := by
    intro rest
    induction rest with
    | nil =>
        intro passed offset before hlen hlast hc
        obtain rfl := List.mem_singleton.1 hc
        exact ⟨passed, rfl, hlen, hlast⟩
    | cons x xs ih =>
        intro passed offset before hlen hlast hc
        rcases List.mem_cons.1 hc with rfl | hc
        · exact ⟨passed, rfl, hlen, hlast⟩
        · have hlen' : byteLength (passed ++ [x]) = offset + x.utf8Size := by
            rw [byteLength_append, hlen]
            simp [byteLength]
          obtain ⟨front, hfront, hrest⟩ := ih (passed ++ [x]) _ _ hlen' (by simp) hc
          exact ⟨front, by rw [← hfront]; simp, hrest⟩
  exact hall t [] 0 none rfl rfl h

/-- From a cursor to the end of the text there is a slice, and so there is from the start to a cursor. -/
theorem slices_of_mem_cursors (h : c ∈ t.cursors) : ∃ front,
    t.slice? 0 c.offset = some front ∧ front.getLast? = c.before ∧
      t.slice? c.offset (byteLength t) = some c.rest := by
  obtain ⟨front, ht, hlen, hlast⟩ := getLast?_of_mem_cursors h
  refine ⟨front, slice?_eq_some.2 ⟨t.start, Cursor.mem_ahead_self _, rfl, ?_, c.rest, ht⟩, hlast,
    slice?_eq_some.2 ⟨c, h, rfl, (offset_add_of_mem_cursors h).symm, [], (List.append_nil _).symm⟩⟩
  rw [Nat.zero_add, hlen]

end Text

/-! ### Matches -/

/-- What a match is made of, and what stands on both sides of it, can be cut out of the text.  The
neighbours that are asked about are the last character in front and the first one behind. -/
theorem PatternTerminal.slices_of_matchAt? (t : PatternTerminal) {input : Text} {c stop : Cursor}
    (hc : c ∈ input.cursors) (h : t.pattern.matchAt? c = some stop) : ∃ front text back,
      input.slice? 0 c.offset = some front ∧ input.slice? c.offset stop.offset = some text ∧
        input.slice? stop.offset input.byteLength = some back ∧
        t.boundary.accepts c.before stop.after =
          t.boundary.accepts front.getLast? back.head? := by
  have hahead := Pattern.mem_ahead_of_matchAt? h
  obtain ⟨front, hfront, hlast, -⟩ := Text.slices_of_mem_cursors hc
  obtain ⟨-, -, -, hback⟩ := Text.slices_of_mem_cursors (Text.mem_cursors_of_ahead hc hahead)
  obtain ⟨text, hr, ho⟩ := Cursor.exists_append_of_mem_ahead hahead
  refine ⟨front, text, stop.rest, hfront, Text.slice?_of_mem_ahead hc hr ho, hback, ?_⟩
  rw [hlast]
  rfl

/-! ### Edges -/

/-- The item has no place at all, or it takes a stretch of the input that starts and stops between
characters. -/
def Item.Valid (input : Text) (i : Item rules) : Prop :=
  i.start = .anywhere ∧ i.stop = .anywhere ∨
    ∃ s e, i.start = .offset s ∧ i.stop = .offset e ∧ s ≤ e ∧ e ≤ input.byteLength ∧
      input.Parts s ∧ input.Parts e

namespace Parser

variable {g : Grammar} {strategy : Strategy} {input : Text} {c : Chart g.rules} {i : Item g.rules}
  {gap : Gap} {name : String} {p q : Nat}

/-- No edge stops in front of where it starts. -/
theorem Built.start_le_stop (hc : Built strategy .skippingBlanks input c) (hi : c.Has i) :
    ∀ s e, i.start = .offset s → i.stop = .offset e → s ≤ e := by
  refine hc.forall_item (P := fun i => ∀ s e, i.start = .offset s → i.stop = .offset e → s ≤ e) ?_ hi
  intro c e hb hall ha s stop hs hstop
  cases ha with
  | predicted h =>
      obtain rfl := Position.offset.inj (hs.symm.trans hstop)
      exact Nat.le_refl s
  | @joined _ _ o f ho hf ht =>
      have hopen := hall o ⟨_, ho⟩
      have hfinished := hall f ⟨_, hf⟩
      have hplace := hb.start_eq_anywhere_iff ⟨_, ho⟩
      have hplace' := hb.start_eq_anywhere_iff ⟨_, hf⟩
      rw [joined_eq] at hs hstop
      dsimp only at hs hstop
      by_cases hno : o.start = .anywhere
      · -- the place is that of the finished edge alone
        rw [if_pos hno] at hs
        have hne : f.stop ≠ .anywhere := fun h => by simp [hplace'.2 h] at hs
        rw [if_neg hne] at hstop
        exact hfinished s stop hs hstop
      · rw [if_neg hno] at hs
        by_cases hno' : f.stop = .anywhere
        · rw [if_pos hno'] at hstop
          exact hopen s stop hs hstop
        · rw [if_neg hno'] at hstop
          rcases ht.meets with hmeets | hany | hany
          · cases hm : o.stop with
            | anywhere => exact absurd (hplace.2 hm) hno
            | offset m =>
                exact Nat.le_trans (hopen s m hs hm) (hfinished m stop (hmeets ▸ hm) hstop)
          · exact absurd (hplace.2 hany) hno
          · exact absurd (hplace'.1 hany) hno'
  | scanned ho hn hsc hp hm =>
      obtain rfl := Position.offset.inj hstop
      obtain ⟨m₀, hm₀, hle⟩ := Lexer.skippingBlanks_eq_some hm
      exact Nat.le_trans (hall _ ⟨_, ho⟩ s _ hs hp)
        (Nat.le_trans (Symbol.stop_of_matchAt? hm₀).1 hle)
  | scannedAnywhere ho hn hsc hp hx hm =>
      obtain rfl := Position.offset.inj hs
      obtain rfl := Position.offset.inj hstop
      obtain ⟨m₀, hm₀, hle⟩ := Lexer.skippingBlanks_eq_some hm
      exact Nat.le_trans (Symbol.stop_of_matchAt? hm₀).1 hle
  | filled hk ho hg hp hf hr hq hlt hle hm =>
      obtain rfl := Position.offset.inj hstop
      obtain ⟨text, -, -, rfl⟩ := Gap.matchSpan?_eq_some.1 hm
      exact Nat.le_trans (hall _ ⟨_, ho⟩ s _ hs hp) (Nat.le_of_lt hlt)

/-- **Every edge is valid.** -/
theorem Built.valid (hc : Built strategy .skippingBlanks input c) (hi : c.Has i) :
    i.Valid input := by
  have hplaced := hc.placed hi
  have hiff := hc.start_eq_anywhere_iff hi
  cases hs : i.start with
  | anywhere => exact .inl ⟨hs, hiff.1 hs⟩
  | offset s =>
      cases he : i.stop with
      | anywhere => exact absurd (hiff.2 he) (by simp [hs])
      | offset e =>
          have hparts : input.Parts e := Text.parts_iff.2 (hplaced.stop e he)
          exact .inr ⟨s, e, hs, he, hc.start_le_stop hi s e hs he, hparts.le,
            Text.parts_iff.2 (hplaced.start s hs), hparts⟩

/-- The stretch that is handed to a gap is there, at any point on the way to a chart. -/
theorem Built.exists_slice?_of_target {later : Chart g.rules}
    (hc : Built strategy .skippingBlanks input later) (hext : c.Extends later) (hi : c.Has i)
    (hp : i.stop = .offset p) (hq : q ∈ gapEnds c gap name p) :
    ∃ text, input.slice? p q = some text := by
  obtain ⟨⟨f, hf, -, -, hstart, hlt, -⟩, -⟩ := mem_gapEnds.1 hq
  exact (Text.parts_iff.2 ((hc.placed (hext.has hi)).stop p hp)).exists_slice?
    (Text.parts_iff.2 ((hc.placed (hext.has hf)).start q hstart)) (Nat.le_of_lt hlt)

/-- **Positions stay valid, and every slice is there.**  A parse with the usual lexer goes through charts
that only grow, so what there is at any point of it is part of what a run comes to.  There every edge is
valid, and top down none is without a place; and if an edge waits for a gap, the stretch up to each end
that the gap is tried with is a slice of the input.  So are the two sides of every match of a pattern, whose
neighbours are looked at, and the match itself. -/
theorem slices_exist (g : Grammar) (strategy : Strategy) (input : Text) :
    (∃ taken, Run strategy .skippingBlanks input taken
      (((new g strategy .skippingBlanks).parse input).1.chart,
        ((new g strategy .skippingBlanks).parse input).2)) ∧
    (∀ (taken : List Nat) (w : Chart g.rules × Option Failure) (c : Chart g.rules),
      Run strategy .skippingBlanks input taken w → c.Extends w.1 → ∀ i, c.Has i →
        i.Valid input ∧ (strategy = .topDown → i.start ≠ .anywhere) ∧
        ∀ gap name p, gapAt i = .ok (gap, name) → i.stop = .offset p →
          ∀ q ∈ gapEnds c gap name p, ∃ text, input.slice? p q = some text) ∧
    ∀ (t : PatternTerminal) (start stop : Cursor), start ∈ input.cursors →
      t.pattern.matchAt? start = some stop → ∃ front text back,
        input.slice? 0 start.offset = some front ∧
          input.slice? start.offset stop.offset = some text ∧
          input.slice? stop.offset input.byteLength = some back ∧
          t.boundary.accepts start.before stop.after =
            t.boundary.accepts front.getLast? back.head? := by
  refine ⟨?_, fun taken w c hrun hext i hi => ?_,
    fun t start stop hstart h => t.slices_of_matchAt? hstart h⟩
  · obtain ⟨taken, hrun, -⟩ :=
      (parse_ends (new g strategy .skippingBlanks) input (Lexer.skippingBlanks_within input)).1
    exact ⟨taken, hrun⟩
  · have hbuilt := hrun.running.1.built
    have hlater := hext.has hi
    refine ⟨hbuilt.valid hlater, fun hs => ?_,
      fun gap name p _ hp q hq => hbuilt.exists_slice?_of_target hext hi hp hq⟩
    subst hs
    exact hbuilt.start_ne_anywhere hlater

end Parser

end ChartParsing
