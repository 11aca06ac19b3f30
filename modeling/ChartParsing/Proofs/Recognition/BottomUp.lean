import ChartParsing.Proofs.Recognition.Spelling

/-!
# Bottom-up recognition is exact

Bottom up the chart holds what rules spell wherever a terminal is part of it, and what they spell without
any terminal it holds once, without a place.  An edge gets its place from the first of its symbols that
takes one: the first terminal of a rule is what the rule was started for, a terminal further on is looked
for in the whole input, and a nonterminal brings the place of the edge that was found for it.  These are
the cases of `Saturated.has_of_spells_bottomUp`.

Terminals that match nothing would be found by none of this, so it is asked that there are none.

Main statement: **`bottomUp_exact`**.
-/

namespace ChartParsing

namespace Parser

variable {g : Grammar} {strategy : Strategy} {lexer : Lexer} {input : Text}
  {c : Chart g.rules} {r : g.RuleId} {d s e k : Nat}

/-- No terminal of the grammar matches the empty text in the input. -/
def NoEmptyMatches (g : Grammar) (input : Text) : Prop :=
  ∀ r : g.RuleId, ∀ t ∈ (g.rule r).rhs, ∀ p m, t.matchAt? input p = some m → m.stop ≠ p

/-- Is the symbol a nonterminal, or a literal that is not empty? -/
def isSolid : Symbol → Bool
  | .nonterminal _ => true
  | .literal text => !text.isEmpty
  | _ => false

/-- Literals that are not empty have no empty matches, whatever the input is. -/
theorem noEmptyMatches_of_isSolid (h : ∀ r : g.RuleId, ∀ t ∈ (g.rule r).rhs, isSolid t = true) :
    NoEmptyMatches g input := by
  intro r t ht p m hm
  have hs := h r t ht
  cases t with
  | nonterminal _ => simp [Symbol.matchAt?] at hm
  | literal text =>
      obtain ⟨c, -, -, -, rfl⟩ := Symbol.matchLiteral?_eq_some.1 hm
      have := Symbol.byteLength_pos (by simpa [isSolid] using hs)
      dsimp only
      omega
  | pattern _ => simp [isSolid] at hs
  | entity _ _ => simp [isSolid] at hs
  | gap _ => simp [isSolid] at hs

/-- What the usual lexer accepts is an occurrence. -/
theorem NoEmptyMatches.exists_occurrence (hg : NoEmptyMatches g input) {t : Symbol} {p : Nat}
    {m : Match} (ht : (g.rule r).rhs[d]? = some t)
    (hm : Lexer.skippingBlanks t input p = some m) : ∃ x ∈ t.occurrences input, x.start = p := by
  obtain ⟨m₀, hm₀, -⟩ := Lexer.skippingBlanks_eq_some hm
  exact Symbol.exists_occurrence hm₀ (hg r t (List.mem_of_getElem? ht) p m₀ hm₀)

/-- Where the edge of a row of symbols is: at its place if there is a terminal among what they stand
for, and else without a place. -/
structure Placed (c : Chart g.rules) (r : g.RuleId) (d s e k : Nat) : Prop where
  floating : k = 0 → (d = 0 → (g.rule r).rhs = []) → c.Has ⟨r, d, .anywhere, .anywhere⟩
  anchored : 0 < k → c.Has ⟨r, d, .offset s, .offset e⟩

/-- A rule is there at the place where its first symbol was found. -/
theorem Saturated.has_initial (hc : Saturated strategy lexer input c)
    (hb : strategy.isBottomUp = true) {r' : g.RuleId} {p q : Position}
    (ht : (g.rule r).rhs[0]? = some (.nonterminal (g.rule r').lhs))
    (hf : c.Has ⟨r', (g.rule r').length, p, q⟩) : c.Has ⟨r, 0, p, p⟩ := by
  obtain ⟨n, hn⟩ := hf
  refine (hc.handled n _ hn).started hb (decide_eq_true (Nat.le_refl _)) r ?_
  refine Grammar.mem_rulesStartingWith.2 ?_
  rw [Rule.first?, List.head?_eq_getElem?]
  exact ht

/-- **Completeness.** -/
theorem Saturated.has_of_spells_bottomUp (hc : Saturated strategy .skippingBlanks input c)
    (hb : strategy.isBottomUp = true) (hg : g.NoGaps) (he : NoEmptyMatches g input)
    (h : Spells .skippingBlanks input r d s e k) : Placed c r d s e k := by
  induction h with
  | start r s =>
      refine ⟨fun _ hr => ?_, fun h => absurd h (by simp)⟩
      exact hc.empties hb r (Grammar.mem_emptyRules.2 (hr rfl))
  | @terminal r d s p k t m h ht hn hm ih =>
      refine ⟨fun h => absurd h (by simp), fun _ => ?_⟩
      have hs := hg.isScannable ht hn
      obtain ⟨x, hx, hp⟩ := he.exists_occurrence ht hm
      rcases Nat.eq_zero_or_pos k with rfl | hk
      · obtain rfl := h.eq_of_zero
        rcases Nat.eq_zero_or_pos d with rfl | hd
        · -- the rule was started for this terminal
          have hfirst : (g.rule r).first? = some t := by
            rw [Rule.first?, List.head?_eq_getElem?]
            exact ht
          obtain ⟨n, hn'⟩ := hc.seeds hb r (Grammar.mem_terminalRules.2 ⟨t, hfirst, hs⟩) t hfirst
            x hx m (hp ▸ hm)
          have hr := ((hc.handled n _ hn').scanned t ht hs x.start rfl m (hp ▸ hm)).has
          rwa [hp] at hr
        · obtain ⟨n, hn'⟩ := ih.floating rfl (fun h => absurd h (Nat.ne_of_gt hd))
          have hr := ((hc.handled n _ hn').scannedAnywhere t ht hs rfl x hx m (hp ▸ hm)).has
          rwa [hp] at hr
      · obtain ⟨n, hn'⟩ := ih.anchored hk
        exact ((hc.handled n _ hn').scanned t ht hs p rfl m hm).has
  | @nonterminal r r' d s p e k l h ht h' hv ih ih' =>
      rcases Nat.eq_zero_or_pos l with rfl | hl
      · have hf := ih'.floating rfl List.eq_nil_of_length_eq_zero
        obtain rfl := h'.eq_of_zero
        rcases Nat.eq_zero_or_pos k with rfl | hk
        · have ho : c.Has ⟨r, d, .anywhere, .anywhere⟩ := by
            rcases Nat.eq_zero_or_pos d with rfl | hd
            · exact hc.has_initial hb ht hf
            · exact ih.floating rfl (fun h => absurd h (Nat.ne_of_gt hd))
          exact ⟨fun _ _ => hc.has_joined ho hf (takes_whole ht hv (.inr (.inl rfl))),
            fun h => absurd h (by simp)⟩
        · exact ⟨fun h => absurd h (by omega), fun _ =>
            hc.has_joined (ih.anchored hk) hf (takes_whole ht hv (.inr (.inr rfl)))⟩
      · have hf := ih'.anchored hl
        refine ⟨fun h => absurd h (by omega), fun _ => ?_⟩
        rcases Nat.eq_zero_or_pos k with rfl | hk
        · obtain rfl := h.eq_of_zero
          rcases Nat.eq_zero_or_pos d with rfl | hd
          · exact hc.has_joined (hc.has_initial hb ht hf) hf (takes_whole ht hv (.inl rfl))
          · exact hc.has_joined (ih.floating rfl (fun h => absurd h (Nat.ne_of_gt hd))) hf
              (takes_whole ht hv (.inr (.inl rfl)))
        · exact hc.has_joined (ih.anchored hk) hf (takes_whole ht hv (.inl rfl))

/-- **Bottom-up recognition is exact at every span.**  For a grammar without gaps, no terminal of which
matches the empty text in the input, a parse with the usual lexer succeeds.  What a rule spells with a
terminal among it has a finished edge at its place, what it spells without one has a finished edge
without a place, and finished edges are there for nothing else. -/
theorem bottomUp_exact (strategy : Strategy) (hb : strategy = .bottomUp ∨ strategy = .bottomUpWithGaps)
    (input : Text) (hg : g.NoGaps) (he : NoEmptyMatches g input) :
    ((new g strategy .skippingBlanks).parse input).2 = none ∧
      ∀ (r : g.RuleId) (s e : Nat),
        (∀ k, 0 < k → Spells .skippingBlanks input r (g.rule r).length s e k →
          (finalChart g strategy .skippingBlanks input).Has
            ⟨r, (g.rule r).length, .offset s, .offset e⟩) ∧
        ((finalChart g strategy .skippingBlanks input).Has
            ⟨r, (g.rule r).length, .anywhere, .anywhere⟩ ↔
          Spells .skippingBlanks input r (g.rule r).length s s 0) ∧
        ((finalChart g strategy .skippingBlanks input).Has
            ⟨r, (g.rule r).length, .offset s, .offset e⟩ →
          Derives .skippingBlanks input r s e) := by
  have hl := Lexer.skippingBlanks_within input
  have hc := parsed_finalChart strategy hl hg
  have hplaced {r : g.RuleId} {d s e k : Nat} (h : Spells .skippingBlanks input r d s e k) :=
    hc.has_of_spells_bottomUp (isBottomUp_iff.2 hb) hg he h
  refine ⟨parse_succeeds (new g strategy .skippingBlanks) input hl hg, fun r s e => ?_⟩
  refine ⟨fun k hk h => (hplaced h).anchored hk, ⟨fun h => ?_, fun h => ?_⟩, fun h => ?_⟩
  · obtain ⟨k, hk, hzero⟩ := hc.built.spells hg h s s (.inr ⟨rfl, rfl, rfl⟩)
    rwa [hzero rfl] at hk
  · exact (hplaced h).floating rfl List.eq_nil_of_length_eq_zero
  · obtain ⟨k, hk, -⟩ := hc.built.spells hg h s e (.inl ⟨rfl, rfl⟩)
    exact ⟨k, hk⟩

/-- A left recursive rule spells the text `a a`, since its edge is in the chart. -/
theorem bottomUp_exact_leftRecursive : leftRecursive.NoGaps ∧
    NoEmptyMatches leftRecursive ['a', ' ', 'a'] ∧
    Derives (g := leftRecursive) .skippingBlanks ['a', ' ', 'a'] ⟨0, by decide⟩ 0 3 := by
  have hg : leftRecursive.NoGaps := by
    unfold Grammar.NoGaps
    decide
  have he : NoEmptyMatches leftRecursive ['a', ' ', 'a'] := noEmptyMatches_of_isSolid (by decide)
  refine ⟨hg, he, ?_⟩
  exact ((bottomUp_exact .bottomUp (.inl rfl) ['a', ' ', 'a'] hg he).2 ⟨0, by decide⟩ 0 3).2.2
    ⟨11, by decide +kernel⟩

end Parser

end ChartParsing
