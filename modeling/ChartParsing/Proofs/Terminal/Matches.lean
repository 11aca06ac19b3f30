import ChartParsing.Lexer
import ChartParsing.Proofs.Text.Cursors

/-!
# Matches of terminals

What a symbol matches at an offset ends at a cursor ahead, so within the input.  A match that is not
empty is among the symbol's occurrences, and each occurrence is the match at its start.

* **`Symbol.exists_occurrence`** and **`Symbol.matchAt?_of_mem_occurrences`** say this of symbols.
* **`Lexer.Within`** holds of lexers that stay within the input, and `Lexer.skippingBlanks` is one.
-/

namespace ChartParsing

namespace Pattern

/-- An instruction goes on at the cursor at hand or at the next one. -/
theorem Inst.mem_ahead_of_follow {t t' : Try} {i : Inst} (h : t' ∈ i.follow t) :
    t'.cursor ∈ t.cursor.ahead := by
  cases i with
  | char c next =>
      simp only [Inst.follow] at h
      cases hr : t.cursor.rest with
      | nil => simp [hr] at h
      | cons x xs =>
          simp only [hr] at h
          split at h
          · obtain rfl := List.mem_singleton.1 h
            exact Cursor.mem_ahead_step hr
          · simp at h
  | set s next =>
      simp only [Inst.follow] at h
      cases hr : t.cursor.rest with
      | nil => simp [hr] at h
      | cons x xs =>
          simp only [hr] at h
          split at h
          · obtain rfl := List.mem_singleton.1 h
            exact Cursor.mem_ahead_step hr
          · simp at h
  | look condition next =>
      simp only [Inst.follow] at h
      split at h
      · obtain rfl := List.mem_singleton.1 h
        exact Cursor.mem_ahead_self _
      · simp at h
  | split preferred other =>
      simp only [Inst.follow, List.mem_cons, List.not_mem_nil, or_false] at h
      rcases h with rfl | rfl <;> exact Cursor.mem_ahead_self _
  | accept => simp [Inst.follow] at h
  | fail => simp [Inst.follow] at h

theorem Program.mem_ahead_of_run {code : Array Inst} {fuel : Nat} {seen : NatSet} {stack : List Try}
    {c stop : Cursor} (hs : ∀ t ∈ stack, t.cursor ∈ c.ahead)
    (h : Program.run code fuel seen stack = some stop) : stop ∈ c.ahead := by
  induction fuel generalizing seen stack with
  | zero => simp [Program.run] at h
  | succ fuel ih =>
      cases stack with
      | nil => simp [Program.run] at h
      | cons t stack =>
          have ht := hs t (by simp)
          have hrest : ∀ t ∈ stack, t.cursor ∈ c.ahead := fun t ht => hs t (by simp [ht])
          simp only [Program.run] at h
          split at h
          · exact ih hrest h
          · split at h
            · obtain rfl := Option.some.inj h
              exact ht
            · refine ih (fun t' ht' => ?_) h
              rcases List.mem_append.1 ht' with ht' | ht'
              · exact Cursor.ahead_trans ht (Inst.mem_ahead_of_follow ht')
              · exact hrest t' ht'
            · exact ih hrest h

/-- A match ends ahead of its start. -/
theorem mem_ahead_of_matchAt? {p : Pattern} {c stop : Cursor} (h : p.matchAt? c = some stop) :
    stop ∈ c.ahead := by
  refine Program.mem_ahead_of_run (fun t ht => ?_) h
  obtain rfl := List.mem_singleton.1 ht
  exact Cursor.mem_ahead_self c

end Pattern

namespace PatternTerminal

variable {t : PatternTerminal} {c stop : Cursor} {text input : Text} {p : Nat} {m : Match}

theorem matchFrom?_eq_some (h : t.matchFrom? c = some (text, stop)) :
    stop ∈ c.ahead ∧ text = c.rest.take (c.rest.length - stop.rest.length) := by
  unfold matchFrom? at h
  cases hm : t.pattern.matchAt? c with
  | none => simp [hm] at h
  | some x =>
      simp only [hm] at h
      split at h
      · obtain ⟨rfl, rfl⟩ := Prod.mk.inj (Option.some.inj h)
        exact ⟨Pattern.mem_ahead_of_matchAt? hm, rfl⟩
      · simp at h

/-- The text of a match is empty exactly if the match ends where it starts. -/
theorem isEmpty_iff_of_matchFrom? (h : t.matchFrom? c = some (text, stop)) :
    text.isEmpty = true ↔ stop.offset = c.offset := by
  obtain ⟨hs, rfl⟩ := matchFrom?_eq_some h
  rw [List.isEmpty_iff]
  rcases Cursor.eq_or_lt_of_mem_ahead hs with rfl | ⟨ho, hr⟩
  · simp
  · constructor
    · intro he
      have := congrArg List.length he
      rw [List.length_take, List.length_nil] at this
      omega
    · intro he
      omega

/-- The text of a match is what stands in the input. -/
theorem slice?_of_matchFrom? (hc : c ∈ input.cursors) (h : t.matchFrom? c = some (text, stop)) :
    input.slice? c.offset stop.offset = some text := by
  obtain ⟨hs, rfl⟩ := matchFrom?_eq_some h
  obtain ⟨text, hr, ho⟩ := Cursor.exists_append_of_mem_ahead hs
  have htake : c.rest.take (c.rest.length - stop.rest.length) = text := by
    rw [hr, List.length_append, Nat.add_sub_cancel, List.take_left]
  rw [htake]
  exact Text.slice?_of_mem_ahead hc hr ho

theorem matchAt?_eq_some : t.matchAt? input p = some m ↔ ∃ c text stop, c ∈ input.cursors ∧
    c.offset = p ∧ t.matchFrom? c = some (text, stop) ∧ m = ⟨[String.ofList text], stop.offset⟩ := by
  unfold matchAt?
  cases hs : input.seek? p with
  | none =>
      simp only [reduceCtorEq, false_iff]
      rintro ⟨c, text, stop, hc, ho, -⟩
      rw [Text.seek?_eq_some.2 ⟨hc, ho⟩] at hs
      simp at hs
  | some c =>
      obtain ⟨hc, ho⟩ := Text.seek?_eq_some.1 hs
      simp only [Option.map_eq_some_iff, Prod.exists]
      constructor
      · rintro ⟨text, stop, hm, rfl⟩
        exact ⟨c, text, stop, hc, ho, hm, rfl⟩
      · rintro ⟨c', text, stop, hc', ho', hm, rfl⟩
        have hs' := Text.seek?_eq_some.2 ⟨hc', ho'⟩
        obtain rfl : c = c' := Option.some.inj (hs.symm.trans hs')
        exact ⟨text, stop, hm, rfl⟩

theorem stop_of_matchAt? (h : t.matchAt? input p = some m) :
    p ≤ m.stop ∧ m.stop ≤ input.byteLength := by
  obtain ⟨c, text, stop, hc, rfl, hm, rfl⟩ := matchAt?_eq_some.1 h
  have hs := (matchFrom?_eq_some hm).1
  exact ⟨Cursor.offset_le_of_mem_ahead hs,
    Text.offset_le_of_mem_cursors (Text.mem_cursors_of_ahead hc hs)⟩

theorem mem_occurrences {x : Occurrence} : x ∈ t.occurrences input ↔
    ∃ c text stop, c ∈ input.cursors ∧ t.matchFrom? c = some (text, stop) ∧
      stop.offset ≠ c.offset ∧ x = ⟨String.ofList text, c.offset, stop.offset⟩ := by
  simp only [occurrences, List.mem_filterMap]
  constructor
  · rintro ⟨c, hc, hx⟩
    unfold occurrenceFrom? at hx
    cases hm : t.matchFrom? c with
    | none => simp [hm] at hx
    | some a =>
        obtain ⟨text, stop⟩ := a
        simp only [hm] at hx
        split at hx
        · simp at hx
        · next he =>
            rw [isEmpty_iff_of_matchFrom? hm] at he
            exact ⟨c, text, stop, hc, hm, he, (Option.some.inj hx).symm⟩
  · rintro ⟨c, text, stop, hc, hm, he, rfl⟩
    refine ⟨c, hc, ?_⟩
    unfold occurrenceFrom?
    simp only [hm]
    rw [if_neg (by rwa [isEmpty_iff_of_matchFrom? hm])]

end PatternTerminal

namespace Symbol

variable {s : Symbol} {input : Text} {p : Nat} {m : Match} {x : Occurrence}

theorem matchLiteral?_eq_some {text : String} : matchLiteral? text input p = some m ↔
    ∃ c, c ∈ input.cursors ∧ c.offset = p ∧ c.rest.startsWith text.toList = true ∧
      m = ⟨[text], p + Text.byteLength text.toList⟩ := by
  unfold matchLiteral?
  cases hs : input.seek? p with
  | none =>
      simp only [reduceCtorEq, false_iff]
      rintro ⟨c, hc, ho, -⟩
      rw [Text.seek?_eq_some.2 ⟨hc, ho⟩] at hs
      simp at hs
  | some c =>
      obtain ⟨hc, ho⟩ := Text.seek?_eq_some.1 hs
      simp only [Option.ite_none_right_eq_some, Option.some.injEq]
      constructor
      · rintro ⟨hp, rfl⟩
        exact ⟨c, hc, ho, hp, rfl⟩
      · rintro ⟨c', hc', ho', hp, rfl⟩
        obtain rfl : c = c' :=
          Option.some.inj (hs.symm.trans (Text.seek?_eq_some.2 ⟨hc', ho'⟩))
        exact ⟨hp, rfl⟩

theorem add_byteLength_le_of_startsWith {c : Cursor} {text : Text} (hc : c ∈ input.cursors)
    (h : c.rest.startsWith text = true) : c.offset + Text.byteLength text ≤ input.byteLength := by
  obtain ⟨rest, hr⟩ := Option.isSome_iff_exists.1 h
  obtain ⟨c', hc', -, ho⟩ := Cursor.exists_mem_ahead_of_append (Text.eq_append_of_dropPrefix? hr)
  rw [← ho]
  exact Text.offset_le_of_mem_cursors (Text.mem_cursors_of_ahead hc hc')

/-- A match ends within the input, and not in front of its start. -/
theorem stop_of_matchAt? (h : s.matchAt? input p = some m) :
    p ≤ m.stop ∧ m.stop ≤ input.byteLength := by
  cases s with
  | nonterminal _ => simp [matchAt?] at h
  | gap _ => simp [matchAt?] at h
  | pattern t => exact PatternTerminal.stop_of_matchAt? h
  | entity _ t => exact PatternTerminal.stop_of_matchAt? h
  | literal text =>
      obtain ⟨c, hc, rfl, hp, rfl⟩ := matchLiteral?_eq_some.1 h
      exact ⟨Nat.le_add_right _ _, add_byteLength_le_of_startsWith hc hp⟩

/-- **The text of a match is what stands in the input** from its start to its stop. -/
theorem slice?_of_matchAt? (h : s.matchAt? input p = some m) :
    ∃ text, m.texts = [text] ∧ input.slice? p m.stop = some text.toList := by
  have hpattern {t : PatternTerminal} (ht : t.matchAt? input p = some m) :
      ∃ text, m.texts = [text] ∧ input.slice? p m.stop = some text.toList := by
    obtain ⟨c, text, stop, hc, rfl, hm, rfl⟩ := PatternTerminal.matchAt?_eq_some.1 ht
    refine ⟨_, rfl, ?_⟩
    rw [String.toList_ofList]
    exact PatternTerminal.slice?_of_matchFrom? hc hm
  cases s with
  | nonterminal _ => simp [matchAt?] at h
  | gap _ => simp [matchAt?] at h
  | pattern t => exact hpattern h
  | entity _ t => exact hpattern h
  | literal text =>
      obtain ⟨c, hc, rfl, hp, rfl⟩ := matchLiteral?_eq_some.1 h
      obtain ⟨rest, hr⟩ := Option.isSome_iff_exists.1 hp
      exact ⟨text, rfl, Text.slice?_eq_some.2
        ⟨c, hc, rfl, rfl, rest, Text.eq_append_of_dropPrefix? hr⟩⟩

theorem byteLength_pos {text : String} (h : text.isEmpty = false) :
    0 < Text.byteLength text.toList := by
  cases hl : text.toList with
  | nil =>
      have : text = "" := by
        rw [← String.ofList_toList (s := text), hl]
      simp [this] at h
  | cons x xs =>
      have := x.utf8Size_pos
      simp only [Text.byteLength]
      omega

/-- **An occurrence is the match at its start**, and it is not empty. -/
theorem matchAt?_of_mem_occurrences (h : x ∈ s.occurrences input) :
    s.matchAt? input x.start = some ⟨[x.text], x.stop⟩ ∧ x.start < x.stop := by
  have hlt {t : PatternTerminal} (h : x ∈ t.occurrences input) :
      t.matchAt? input x.start = some ⟨[x.text], x.stop⟩ ∧ x.start < x.stop := by
    obtain ⟨c, text, stop, hc, hm, he, rfl⟩ := PatternTerminal.mem_occurrences.1 h
    have := Cursor.offset_le_of_mem_ahead (PatternTerminal.matchFrom?_eq_some hm).1
    exact ⟨PatternTerminal.matchAt?_eq_some.2 ⟨c, text, stop, hc, rfl, hm, rfl⟩, by
      dsimp only; omega⟩
  cases s with
  | nonterminal _ => simp [occurrences] at h
  | gap _ => simp [occurrences] at h
  | pattern t => exact hlt h
  | entity _ t => exact hlt h
  | literal text =>
      simp only [occurrences, literalOccurrences] at h
      split at h
      · simp at h
      · next he =>
          have hpos := byteLength_pos (by simpa using he)
          obtain ⟨c, hc, rfl⟩ := List.mem_map.1 h
          obtain ⟨hc, hp⟩ := List.mem_filter.1 hc
          exact ⟨matchLiteral?_eq_some.2 ⟨c, hc, rfl, hp, rfl⟩, by dsimp only; omega⟩

theorem start_le_of_mem_occurrences (h : x ∈ s.occurrences input) :
    x.start ≤ input.byteLength := by
  obtain ⟨hm, -⟩ := matchAt?_of_mem_occurrences h
  exact Nat.le_trans (stop_of_matchAt? hm).1 (stop_of_matchAt? hm).2

/-- **A match that is not empty is an occurrence.** -/
theorem exists_occurrence (h : s.matchAt? input p = some m) (hp : m.stop ≠ p) :
    ∃ x ∈ s.occurrences input, x.start = p := by
  have hpat {t : PatternTerminal} (h : t.matchAt? input p = some m) :
      ∃ x ∈ t.occurrences input, x.start = p := by
    obtain ⟨c, text, stop, hc, rfl, hm, rfl⟩ := PatternTerminal.matchAt?_eq_some.1 h
    exact ⟨_, PatternTerminal.mem_occurrences.2 ⟨c, text, stop, hc, hm, hp, rfl⟩, rfl⟩
  cases s with
  | nonterminal _ => simp [matchAt?] at h
  | gap _ => simp [matchAt?] at h
  | pattern t => exact hpat h
  | entity _ t => exact hpat h
  | literal text =>
      obtain ⟨c, hc, rfl, hs, rfl⟩ := matchLiteral?_eq_some.1 h
      have he : ¬ text.isEmpty = true := by
        intro he
        have : text = "" := by simpa using he
        subst this
        exact hp (by simp [Text.byteLength])
      refine ⟨⟨text, c.offset, c.offset + Text.byteLength text.toList⟩, ?_, rfl⟩
      simp only [occurrences, literalOccurrences, if_neg he]
      exact List.mem_map.2 ⟨c, List.mem_filter.2 ⟨hc, hs⟩, rfl⟩

end Symbol

/-- A gap matches a stretch of the input that it accepts, with the text of that stretch. -/
theorem Gap.matchSpan?_eq_some {gap : Gap} {input : Text} {start stop : Nat} {m : Match} :
    gap.matchSpan? input start stop = some m ↔ ∃ text, input.slice? start stop = some text ∧
      gap.accepts input start stop = true ∧ m = ⟨[String.ofList text], stop⟩ := by
  unfold matchSpan?
  cases ht : input.slice? start stop with
  | none => simp
  | some text =>
      cases ha : gap.accepts input start stop with
      | false => simp
      | true => simp [eq_comm (b := m)]

namespace Lexer

/-- The lexer answers no end beyond the input. -/
def Within (lexer : Lexer) (input : Text) : Prop :=
  ∀ s p m, lexer s input p = some m → m.stop ≤ input.byteLength

variable {s : Symbol} {input : Text} {p : Nat} {m : Match}

theorem skippingBlanks_eq_some (h : skippingBlanks s input p = some m) :
    ∃ m₀, s.matchAt? input p = some m₀ ∧ m₀.stop ≤ m.stop := by
  obtain ⟨m₀, hm, rfl⟩ := Option.map_eq_some_iff.1 h
  exact ⟨m₀, hm, Nat.le_add_right _ _⟩

theorem skippingBlanks_within (input : Text) : Within skippingBlanks input := by
  intro s p m h
  obtain ⟨m₀, hm, rfl⟩ := Option.map_eq_some_iff.1 h
  exact Text.add_blankRun_le (Symbol.stop_of_matchAt? hm).2

/-- What the usual lexer takes: the text of the match, and then all the blanks that stand there. -/
theorem skippingBlanks_covers (h : skippingBlanks s input p = some m) : ∃ text q blanks,
    s.matchAt? input p = some ⟨[text], q⟩ ∧ m.texts = [text] ∧ input.slice? p q = some text.toList ∧
      input.slice? q m.stop = some blanks ∧ (∀ x ∈ blanks, isBlank x = true) ∧
      ∀ c, input.seek? m.stop = some c → ∀ x, c.after = some x → isBlank x = false := by
  obtain ⟨m₀, hm, rfl⟩ := Option.map_eq_some_iff.1 h
  obtain ⟨text, htext, hslice⟩ := Symbol.slice?_of_matchAt? hm
  obtain ⟨blanks, hblanks⟩ := Text.exists_slice?_blankRun (Text.isSome_seek?_of_slice? hslice).2
  refine ⟨text, m₀.stop, blanks, ?_, htext, hslice, hblanks⟩
  rw [hm, ← htext]

/-- The usual lexer answers one text wherever it accepts. -/
theorem exists_text_of_skippingBlanks (h : skippingBlanks s input p = some m) :
    ∃ text, m.texts = [text] := by
  obtain ⟨m₀, hm, rfl⟩ := Option.map_eq_some_iff.1 h
  obtain ⟨text, htext, -⟩ := Symbol.slice?_of_matchAt? hm
  exact ⟨text, htext⟩

theorem skippingBlanks_texts_ne_nil (h : skippingBlanks s input p = some m) : m.texts ≠ [] := by
  obtain ⟨text, htext⟩ := exists_text_of_skippingBlanks h
  simp [htext]

end Lexer

end ChartParsing
