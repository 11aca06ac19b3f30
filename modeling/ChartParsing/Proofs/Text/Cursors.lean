import ChartParsing.Text.Blank
import Mathlib.Tactic.Common

/-!
# Cursors of a text

All places of a text that anything is matched at are among its cursors, so their offsets lie within the
text.  `Cursor.ahead` lists the cursors from one on, and what lies ahead of what lies ahead of a cursor
lies ahead of it.  Facts about these are proved from each cursor to the next: `Cursor.ahead_induction`.

Main statement: **`seek?_eq_some`**.  An offset is found in a text exactly if one of the cursors has it,
and this one is the answer.
-/

namespace ChartParsing

namespace Cursor

variable {c c' c'' : Cursor} {t : Text} {offset n : Nat} {before : Option Char}

/-- The cursors from a cursor on to the end of the text. -/
def ahead (c : Cursor) : List Cursor := Text.cursorsFrom c.rest c.offset c.before

theorem mem_ahead_self (c : Cursor) : c ∈ c.ahead := by
  obtain ⟨offset, before, rest⟩ := c
  cases rest <;> simp [ahead, Text.cursorsFrom]

theorem ahead_cons {x : Char} {xs : Text} :
    ahead ⟨offset, before, x :: xs⟩ =
      ⟨offset, before, x :: xs⟩ :: ahead ⟨offset + x.utf8Size, some x, xs⟩ := rfl

theorem ahead_of_end (h : c.rest = []) : c.ahead = [c] := by
  obtain ⟨offset, before, rest⟩ := c
  obtain rfl : rest = [] := h
  rfl

theorem ahead_of_cons {x : Char} {xs : Text} (h : c.rest = x :: xs) :
    c.ahead = c :: ahead ⟨c.offset + x.utf8Size, some x, xs⟩ := by
  obtain ⟨offset, before, rest⟩ := c
  obtain rfl : rest = x :: xs := h
  rfl

/-- The first of the cursors from one on is this one. -/
theorem exists_ahead_eq_cons (c : Cursor) : ∃ behind, c.ahead = c :: behind := by
  cases hr : c.rest with
  | nil => exact ⟨[], ahead_of_end hr⟩
  | cons x xs => exact ⟨_, ahead_of_cons hr⟩

/-- What lies ahead of the next cursor lies ahead of this one. -/
theorem mem_ahead_of_next {x : Char} {xs : Text} (h : c.rest = x :: xs)
    (h' : c' ∈ ahead ⟨c.offset + x.utf8Size, some x, xs⟩) : c' ∈ c.ahead := by
  rw [ahead_of_cons h]
  exact List.mem_cons_of_mem _ h'

theorem mem_ahead_step {x : Char} {xs : Text} (h : c.rest = x :: xs) :
    (⟨c.offset + x.utf8Size, some x, xs⟩ : Cursor) ∈ c.ahead :=
  mem_ahead_of_next h (mem_ahead_self _)

/-- What holds of a cursor, and of each one if it holds of the next, holds of all that it is ahead of. -/
@[elab_as_elim]
theorem ahead_induction {motive : (c : Cursor) → c' ∈ c.ahead → Prop}
    (last : motive c' (mem_ahead_self c'))
    (step : ∀ c x xs (hr : c.rest = x :: xs)
      (h : c' ∈ ahead ⟨c.offset + x.utf8Size, some x, xs⟩),
        motive _ h → motive c (mem_ahead_of_next hr h)) (c : Cursor) (h : c' ∈ c.ahead) :
    motive c h := by
  obtain ⟨offset, before, rest⟩ := c
  induction rest generalizing offset before with
  | nil =>
      obtain rfl : c' = ⟨offset, before, []⟩ := by simpa [ahead, Text.cursorsFrom] using h
      exact last
  | cons x xs ih =>
      rcases List.mem_cons.1 h with rfl | h'
      · exact last
      · exact step _ x xs rfl h' (ih _ _ h')

theorem ahead_trans (h : c' ∈ c.ahead) (h' : c'' ∈ c'.ahead) : c'' ∈ c.ahead := by
  induction c, h using ahead_induction with
  | last => exact h'
  | step c x xs hr _ ih => exact mem_ahead_of_next hr ih

/-- The bytes in front of a cursor and those behind it are all there are. -/
theorem offset_add_of_mem_ahead (h : c' ∈ c.ahead) :
    c'.offset + Text.byteLength c'.rest = c.offset + Text.byteLength c.rest := by
  induction c, h using ahead_induction with
  | last => rfl
  | step c x xs hr _ ih =>
      rw [ih, hr, Text.byteLength, Nat.add_assoc]

/-- A cursor ahead is the cursor itself, or has more in front and less behind. -/
theorem eq_or_lt_of_mem_ahead (h : c' ∈ c.ahead) :
    c' = c ∨ c.offset < c'.offset ∧ c'.rest.length < c.rest.length := by
  induction c, h using ahead_induction with
  | last => exact .inl rfl
  | step c x xs hr _ ih =>
      have hx := x.utf8Size_pos
      have hlen : c.rest.length = xs.length + 1 := by rw [hr, List.length_cons]
      refine .inr ?_
      rcases ih with rfl | ⟨ho, hl⟩
      · exact ⟨by dsimp only; omega, by dsimp only; omega⟩
      · dsimp only at ho hl
        exact ⟨by omega, by omega⟩

theorem offset_le_of_mem_ahead (h : c' ∈ c.ahead) : c.offset ≤ c'.offset := by
  rcases eq_or_lt_of_mem_ahead h with rfl | ⟨h, -⟩
  · exact Nat.le_refl _
  · exact Nat.le_of_lt h

/-- The cursors in front of one ahead come first, and have less in front. -/
theorem exists_ahead_eq_append (h : c' ∈ c.ahead) :
    ∃ skipped, c.ahead = skipped ++ c'.ahead ∧ ∀ x ∈ skipped, x.offset < c'.offset := by
  induction c, h using ahead_induction with
  | last => exact ⟨[], rfl, by simp⟩
  | step c x xs hr h ih =>
      obtain ⟨skipped, hs, hlt⟩ := ih
      have hx := x.utf8Size_pos
      have hle := offset_le_of_mem_ahead h
      dsimp only at hle
      refine ⟨c :: skipped, by rw [ahead_of_cons hr, hs, List.cons_append], fun y hy => ?_⟩
      rcases List.mem_cons.1 hy with rfl | hy
      · omega
      · exact hlt y hy

/-- Of two cursors ahead, the one with more in front is ahead of the other. -/
theorem mem_ahead_of_le {d : Cursor} (h : c ∈ d.ahead) (h' : c' ∈ d.ahead)
    (hle : c.offset ≤ c'.offset) : c' ∈ c.ahead := by
  obtain ⟨skipped, hs, hlt⟩ := exists_ahead_eq_append h
  rw [hs] at h'
  rcases List.mem_append.1 h' with h' | h'
  · have := hlt c' h'
    omega
  · exact h'

/-- Each cursor ahead has more in front than those before it. -/
theorem pairwise_ahead (c : Cursor) : c.ahead.Pairwise (·.offset < ·.offset) := by
  obtain ⟨offset, before, rest⟩ := c
  induction rest generalizing offset before with
  | nil => simp [ahead, Text.cursorsFrom]
  | cons x xs ih =>
      rw [ahead_cons, List.pairwise_cons]
      refine ⟨fun c' hc' => ?_, ih _ _⟩
      have hx := x.utf8Size_pos
      have hle := offset_le_of_mem_ahead hc'
      dsimp only at hle ⊢
      omega

/-- There is a cursor behind every beginning of what lies behind a cursor. -/
theorem exists_mem_ahead_of_append {s rest : Text} (h : c.rest = s ++ rest) :
    ∃ c' ∈ c.ahead, c'.rest = rest ∧ c'.offset = c.offset + Text.byteLength s := by
  induction s generalizing c with
  | nil => exact ⟨c, mem_ahead_self c, h, rfl⟩
  | cons x xs ih =>
      obtain ⟨c', hc', hr, ho⟩ := ih (c := ⟨c.offset + x.utf8Size, some x, xs ++ rest⟩) rfl
      refine ⟨c', ahead_trans (mem_ahead_step h) hc', hr, ?_⟩
      rw [ho]
      simp only [Text.byteLength]
      omega

/-- What lies behind a cursor up to another one ahead, and how many bytes that has. -/
theorem exists_append_of_mem_ahead (h : c' ∈ c.ahead) :
    ∃ s, c.rest = s ++ c'.rest ∧ c'.offset = c.offset + Text.byteLength s := by
  induction c, h using ahead_induction with
  | last => exact ⟨[], rfl, rfl⟩
  | step c x xs hr _ ih =>
      obtain ⟨s, hs, ho⟩ := ih
      dsimp only at hs ho
      refine ⟨x :: s, by rw [hr, hs, List.cons_append], ?_⟩
      rw [ho, Text.byteLength, Nat.add_assoc]

theorem skip?_eq_some : skip? t offset before n = some c ↔
    c ∈ ahead ⟨offset, before, t⟩ ∧ c.offset = offset + n := by
  induction t generalizing offset before n with
  | nil =>
      cases n with
      | zero =>
          simp only [skip?, ahead, Text.cursorsFrom, Option.some.injEq, List.mem_singleton,
            Nat.add_zero]
          constructor
          · rintro rfl
            exact ⟨rfl, rfl⟩
          · rintro ⟨rfl, -⟩
            rfl
      | succ n =>
          simp only [skip?, ahead, Text.cursorsFrom, List.mem_singleton, reduceCtorEq, false_iff,
            not_and]
          rintro rfl
          simp
  | cons x xs ih =>
      have hx := x.utf8Size_pos
      rw [ahead_cons, List.mem_cons]
      cases n with
      | zero =>
          simp only [skip?, Option.some.injEq, Nat.add_zero]
          constructor
          · rintro rfl
            exact ⟨.inl rfl, rfl⟩
          · rintro ⟨rfl | h, ho⟩
            · rfl
            · have := offset_le_of_mem_ahead h
              dsimp only at this
              omega
      | succ n =>
          simp only [skip?]
          split
          · next hle =>
              rw [ih]
              constructor
              · rintro ⟨h, ho⟩
                exact ⟨.inr h, by omega⟩
              · rintro ⟨rfl | h, ho⟩
                · dsimp only at ho
                  omega
                · exact ⟨h, by omega⟩
          · next hlt =>
              simp only [reduceCtorEq, false_iff, not_and]
              rintro (rfl | h)
              · simp
              · have := offset_le_of_mem_ahead h
                dsimp only at this
                omega

end Cursor

namespace Text

variable {t : Text} {c : Cursor} {n : Nat}

/-- **An offset is found** exactly if it is that of a cursor, and then this cursor is the answer. -/
theorem seek?_eq_some : t.seek? n = some c ↔ c ∈ t.cursors ∧ c.offset = n := by
  unfold seek?
  rw [Cursor.skip?_eq_some, Nat.zero_add]
  rfl

theorem isSome_seek?_of_mem (h : c ∈ t.cursors) : (t.seek? c.offset).isSome = true := by
  rw [seek?_eq_some.2 ⟨h, rfl⟩, Option.isSome_some]

theorem offset_add_of_mem_cursors (h : c ∈ t.cursors) :
    c.offset + byteLength c.rest = byteLength t := by
  have := Cursor.offset_add_of_mem_ahead (c := t.start) h
  simpa [start] using this

theorem offset_le_of_mem_cursors (h : c ∈ t.cursors) : c.offset ≤ byteLength t := by
  have := offset_add_of_mem_cursors h
  omega

/-- At the end of a text nothing lies ahead. -/
theorem rest_eq_nil_of_le (h : c ∈ t.cursors) (hle : byteLength t ≤ c.offset) : c.rest = [] := by
  have hlen := offset_add_of_mem_cursors h
  cases hr : c.rest with
  | nil => rfl
  | cons x xs =>
      have hx := x.utf8Size_pos
      rw [hr, byteLength] at hlen
      omega

/-- Beyond the end of a text nothing is found. -/
theorem seek?_eq_none_of_lt (h : byteLength t < n) : t.seek? n = none := by
  cases hs : t.seek? n with
  | none => rfl
  | some c =>
      obtain ⟨hc, rfl⟩ := seek?_eq_some.1 hs
      have := offset_le_of_mem_cursors hc
      omega

theorem mem_cursors_of_ahead {c' : Cursor} (h : c ∈ t.cursors) (h' : c' ∈ c.ahead) :
    c' ∈ t.cursors :=
  Cursor.ahead_trans (c := t.start) h h'

theorem byteLength_takeWhile_le (p : Char → Bool) (t : Text) :
    byteLength (t.takeWhile p) ≤ byteLength t := by
  have h := congrArg byteLength (List.takeWhile_append_dropWhile (p := p) (l := t))
  rw [byteLength_append] at h
  omega

/-- The blanks at an offset of the text end within it. -/
theorem add_blankRun_le (h : n ≤ byteLength t) : n + t.blankRun n ≤ byteLength t := by
  unfold blankRun
  cases hs : t.seek? n with
  | none => simpa using h
  | some c =>
      obtain ⟨hc, rfl⟩ := seek?_eq_some.1 hs
      have := offset_add_of_mem_cursors hc
      have := byteLength_takeWhile_le isBlank c.rest
      simp only [leadingBlanks]
      omega

/-! ### Slices -/

/-- The first bytes of a text are a beginning of it. -/
theorem takeBytes?_eq_some {s : Text} :
    t.takeBytes? n = some s ↔ ∃ rest, t = s ++ rest ∧ byteLength s = n := by
  induction t generalizing n s with
  | nil =>
      cases n with
      | zero =>
          constructor
          · intro h
            obtain rfl := Option.some.inj h
            exact ⟨[], rfl, rfl⟩
          · rintro ⟨rest, hnil, -⟩
            obtain rfl := (List.append_eq_nil_iff.1 hnil.symm).1
            rfl
      | succ n =>
          simp only [takeBytes?, reduceCtorEq, false_iff]
          rintro ⟨rest, hnil, hl⟩
          obtain rfl := (List.append_eq_nil_iff.1 hnil.symm).1
          simp [byteLength] at hl
  | cons x xs ih =>
      have hx := x.utf8Size_pos
      cases n with
      | zero =>
          simp only [takeBytes?, Option.some.injEq]
          constructor
          · rintro rfl
            exact ⟨x :: xs, rfl, rfl⟩
          · rintro ⟨rest, hr, hl⟩
            cases s with
            | nil => rfl
            | cons y ys =>
                have := y.utf8Size_pos
                simp only [byteLength] at hl
                omega
      | succ n =>
          simp only [takeBytes?, Option.ite_none_right_eq_some, Option.map_eq_some_iff]
          constructor
          · rintro ⟨hle, s', hs', rfl⟩
            obtain ⟨rest, rfl, hl⟩ := ih.1 hs'
            refine ⟨rest, rfl, ?_⟩
            simp only [byteLength]
            omega
          · rintro ⟨rest, hr, hl⟩
            cases s with
            | nil => simp [byteLength] at hl
            | cons y ys =>
                obtain ⟨rfl, rfl⟩ := List.cons_eq_cons.1 hr
                simp only [byteLength] at hl
                exact ⟨by omega, ys, ih.2 ⟨rest, rfl, by omega⟩, rfl⟩

/-- A slice is what lies behind the cursor where it starts, up to where it stops. -/
theorem slice?_eq_some {m : Nat} {s : Text} : t.slice? n m = some s ↔
    ∃ c ∈ t.cursors, c.offset = n ∧ m = n + byteLength s ∧ ∃ rest, c.rest = s ++ rest := by
  unfold slice?
  rw [Option.ite_none_right_eq_some]
  cases hs : t.seek? n with
  | none =>
      simp only [reduceCtorEq, and_false, false_iff]
      rintro ⟨c, hc, ho, -⟩
      simp [seek?_eq_some.2 ⟨hc, ho⟩] at hs
  | some c =>
      obtain ⟨hc, ho⟩ := seek?_eq_some.1 hs
      dsimp only
      rw [takeBytes?_eq_some]
      constructor
      · rintro ⟨hle, rest, hr, hl⟩
        exact ⟨c, hc, ho, by omega, rest, hr⟩
      · rintro ⟨c', hc', ho', hm, rest, hr⟩
        obtain rfl : c = c' := Option.some.inj (hs.symm.trans (seek?_eq_some.2 ⟨hc', ho'⟩))
        exact ⟨by omega, rest, hr, by omega⟩

/-- From a cursor up to another one ahead there is a slice. -/
theorem slice?_of_mem_ahead {c' : Cursor} {s : Text} (hc : c ∈ t.cursors)
    (hr : c.rest = s ++ c'.rest) (ho : c'.offset = c.offset + byteLength s) :
    t.slice? c.offset c'.offset = some s :=
  slice?_eq_some.2 ⟨c, hc, rfl, ho, c'.rest, hr⟩

/-- A slice starts and stops at cursors. -/
theorem isSome_seek?_of_slice? {m : Nat} {s : Text} (h : t.slice? n m = some s) :
    (t.seek? n).isSome = true ∧ (t.seek? m).isSome = true := by
  obtain ⟨c, hc, rfl, rfl, rest, hr⟩ := slice?_eq_some.1 h
  obtain ⟨c', hc', -, ho⟩ := Cursor.exists_mem_ahead_of_append hr
  rw [seek?_eq_some.2 ⟨hc, rfl⟩, seek?_eq_some.2 ⟨mem_cursors_of_ahead hc hc', ho⟩]
  exact ⟨rfl, rfl⟩

/-- From a cursor to itself there is the empty slice. -/
theorem slice?_self (h : (t.seek? n).isSome = true) : t.slice? n n = some [] := by
  obtain ⟨c, hs⟩ := Option.isSome_iff_exists.1 h
  obtain ⟨hc, ho⟩ := seek?_eq_some.1 hs
  exact slice?_eq_some.2 ⟨c, hc, ho, rfl, c.rest, rfl⟩

/-- **Slices that meet make up one slice.** -/
theorem slice?_append {k m : Nat} {s s' : Text} (h : t.slice? n k = some s)
    (h' : t.slice? k m = some s') : t.slice? n m = some (s ++ s') := by
  obtain ⟨c, hc, rfl, rfl, rest, hr⟩ := slice?_eq_some.1 h
  obtain ⟨c', hc', ho', rfl, rest', hr'⟩ := slice?_eq_some.1 h'
  obtain ⟨c'', hc'', hr'', ho''⟩ := Cursor.exists_mem_ahead_of_append hr
  -- the two cursors in the middle are one
  have heq : c' = c'' := Option.some.inj ((seek?_eq_some.2 ⟨hc', ho'⟩).symm.trans
    (seek?_eq_some.2 ⟨mem_cursors_of_ahead hc hc'', ho''⟩))
  subst heq
  refine slice?_eq_some.2 ⟨c, hc, rfl, by rw [byteLength_append]; omega, rest', ?_⟩
  rw [hr, ← hr'', hr', List.append_assoc]

/-- A slice ends within its text. -/
theorem le_of_slice? {m : Nat} {s : Text} (h : t.slice? n m = some s) : m ≤ byteLength t := by
  obtain ⟨c, hc, rfl, rfl, rest, hr⟩ := slice?_eq_some.1 h
  have hlen := offset_add_of_mem_cursors hc
  rw [hr, byteLength_append] at hlen
  omega

/-- The blanks at an offset of the text, which are followed by something else. -/
theorem exists_slice?_blankRun (h : (t.seek? n).isSome = true) :
    ∃ blanks, t.slice? n (n + t.blankRun n) = some blanks ∧ (∀ x ∈ blanks, isBlank x = true) ∧
      ∀ c, t.seek? (n + t.blankRun n) = some c → ∀ x, c.after = some x → isBlank x = false := by
  obtain ⟨c, hs⟩ := Option.isSome_iff_exists.1 h
  obtain ⟨hc, rfl⟩ := seek?_eq_some.1 hs
  have hrun : t.blankRun c.offset = byteLength (c.rest.takeWhile isBlank) := by
    unfold blankRun
    rw [hs]
    rfl
  have hsplit : c.rest = c.rest.takeWhile isBlank ++ c.rest.dropWhile isBlank :=
    List.takeWhile_append_dropWhile.symm
  obtain ⟨c', hc', hr', ho'⟩ := Cursor.exists_mem_ahead_of_append hsplit
  rw [hrun]
  refine ⟨c.rest.takeWhile isBlank, slice?_eq_some.2 ⟨c, hc, rfl, rfl, _, hsplit⟩,
    List.all_eq_true.1 List.all_takeWhile, fun d hd x hx => ?_⟩
  have heq : c' = d := Option.some.inj
    ((seek?_eq_some.2 ⟨mem_cursors_of_ahead hc hc', ho'⟩).symm.trans hd)
  subst heq
  unfold Cursor.after at hx
  rw [hr'] at hx
  have hnot := List.head?_dropWhile_not isBlank c.rest
  rw [hx] at hnot
  simpa using hnot

end Text

end ChartParsing
