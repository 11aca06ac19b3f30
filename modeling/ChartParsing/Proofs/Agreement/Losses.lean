import ChartParsing.Proofs.Agreement.Derivations
import ChartParsing.Proofs.Recognition.Cycles

/-!
# What bottom-up parsing loses

Bottom up an edge can be there twice, without a place and at one.  A derivation over the first does not
count if one over the second stands for it.  That loses nothing where the two were found at one split,
which is so over a nonterminal: **`Found.exists_counts`**.  Something is lost in two ways only, and an
edge to which one of them happens is `Lossy`.

* An edge that takes nothing gets a place when its symbols are wanted there, but of its derivations only
  those are found there whose parts have got this place too.
* A terminal behind symbols that vanish can be found in front of any of them.  All that is compared of
  two such derivations is the rule, so one of them stands for the other even if they split the stretch in
  different places.

Main statement: **`complete_iff_not_lossy`**.
-/

namespace ChartParsing

namespace Parser

open Relation

variable {g : Grammar} {strategy : Strategy} {lexer : Lexer} {input : Text}
  {c : Chart g.rules} {i : Item g.rules} {r r' : g.RuleId} {d s p e n : Nat} {δ : Derivation}
  {y : Option g.RuleId} {x : Edge g.rules}

/-! ### What stands for a derivation -/

/-- **Over a nonterminal a derivation is only left out for one at the same split.** -/
theorem Found.exists_counts (hc : Parsed strategy lexer input c) (hx : c.edge? n = some x)
    (hover : x.item.Over s e) (hpref : δ ∈ preferred c.childPriority? x.derivations)
    (h : Found lexer input c x.item s p e δ (some r')) :
    ∃ δ' ∈ c.derivations n, Found lexer input c x.item s p e δ' (some r') := by
  by_cases hall : ∀ other ∈ preferred c.childPriority? x.derivations, c.standsFor other δ = false
  · exact ⟨δ, (counts_iff hx).2 ⟨hpref, hall⟩, h⟩
  · simp only [not_forall, Bool.not_eq_false] at hall
    obtain ⟨other, hother, hstands⟩ := hall
    obtain ⟨q, z, h'⟩ := hc.built.found hc.noGaps hx (mem_preferred.1 hother).1 hover
    have hfound := h'
    refine ⟨other, ?_⟩
    cases h with
    | @nonterminal b a o f ho hf hi hop hfe hd ht =>
        cases h' with
        | terminal _ _ _ _ _ _ _ _ =>
            rcases Chart.standsFor_cases hstands with ⟨-, -, -, hchild⟩ | ⟨-, -, hchild, -⟩
            · exact absurd hchild (by simp)
            · exact absurd hchild (by simp [Chart.isAnchored])
        | @nonterminal b' a' o' f' ho' hf' hi' hop' hfe' hd' ht' =>
            have hcounts (hb : o'.start ≠ .anywhere) (ha : f'.start ≠ .anywhere) :
                ⟨some b', some a', none⟩ ∈ c.derivations n := by
              refine (counts_iff hx).2 ⟨hother, fun w _ => Chart.standsFor_eq_false ?_ ?_⟩
              · exact Bool.eq_false_iff.2 (fun h => hb ((Chart.isFloating_some ho').1 h))
              · exact Bool.eq_false_iff.2 (fun h => ha ((Chart.isFloating_some hf').1 h))
            rcases Chart.standsFor_cases hstands with ⟨hb, hb', -, hchild⟩ | ⟨hb, ha, ha', hrule, hbase⟩
            · obtain rfl := Option.some.inj hchild
              obtain rfl := Option.some.inj (hf.symm.trans hf')
              obtain rfl := hfe.start_unique hfe'
              have hos := (Chart.isFloating_some ho).1 hb
              have hos' := (Chart.isAnchored_some ho').1 hb'
              refine ⟨hcounts hos' (fun hfs => ?_), hfound⟩
              have hnone := Item.joined_start_eq_anywhere.2 ⟨hos, hfs⟩
              rw [← hi, hi'] at hnone
              exact hos' (Item.joined_start_eq_anywhere.1 hnone).1
            · obtain rfl := Option.some.inj hbase
              obtain rfl := Option.some.inj (ho.symm.trans ho')
              obtain rfl := hop.stop_unique hop'
              have hos : o.start ≠ .anywhere := fun h => by
                rw [(Chart.isFloating_some ho).2 h] at hb
                simp at hb
              have hn : f'.number = f.number := (Chart.sameRule_some hf' hf).1 hrule
              rw [hn] at hfound
              exact ⟨hcounts hos ((Chart.isAnchored_some hf').1 ha'), hfound⟩

/-! ### Complete edges bottom up -/

/-- An edge is complete if there is a derivation for each split, and a nonterminal at the end of it. -/
theorem complete_of_exists_found (hc : Parsed strategy lexer input c) (hi : c.item? n = some i)
    (hover : i.Over s e) (hraw : ∀ x d p y, c.edge? n = some x → x.item = i → i.dot = d + 1 →
      Splits lexer input i.number d s p e y →
        ∃ r', y = some r' ∧ ∃ δ ∈ x.derivations, Found lexer input c i s p e δ y) :
    Complete lexer input c n s e := by
  intro j hj d p y hd hp
  obtain rfl := Option.some.inj (hi.symm.trans hj)
  obtain ⟨x, hx, rfl⟩ := Chart.item?_eq_some.1 hi
  obtain ⟨r', rfl, δ, hδ, h⟩ := hraw x d p y hx rfl hd hp.splits
  exact h.exists_counts hc hx hover (hp.mem_preferred hc hx hover hd hδ h)

/-- An edge without a place is complete. -/
theorem complete_of_floating (hc : Parsed strategy .skippingBlanks input c)
    (hu : strategy.isBottomUp = true) (he : NoEmptyMatches g input) (hi : c.item? n = some i)
    (hs : i.start = .anywhere) : Complete .skippingBlanks input c n s s := by
  have hstop := (hc.built.start_eq_anywhere_iff ⟨n, hi⟩).1 hs
  have hover : i.Over s s := .inr ⟨hs, hstop, rfl⟩
  refine complete_of_exists_found hc hi hover (fun x d p y hx hxi hd hsplit => ?_)
  obtain ⟨hsp, hps, hlt⟩ := hsplit.le he.advances
  cases hsplit with
  | terminal _ _ _ _ _ =>
      have := hlt rfl
      omega
  | @nonterminal k l r' h ht hs' hv =>
      obtain rfl : p = s := Nat.le_antisymm hps hsp
      obtain rfl := h.eq_zero he.advances
      obtain rfl := hs'.eq_zero he.advances
      have hf := (hc.has_of_spells_bottomUp hu hc.noGaps he hs').floating rfl
        List.eq_nil_of_length_eq_zero
      have ho : c.Has ⟨i.number, d, .anywhere, .anywhere⟩ := by
        rcases Nat.eq_zero_or_pos d with rfl | hd
        · exact hc.has_initial hu ht hf
        · exact (hc.has_of_spells_bottomUp hu hc.noGaps he h).floating rfl
            (fun h => absurd h (Nat.ne_of_gt hd))
      have hitem : x.item = ⟨i.number, d + 1, .anywhere, .anywhere⟩ := by
        rw [hxi]
        exact Item.eq_of_fields hd hs hstop
      rw [← hxi] at hover ⊢
      exact ⟨r', rfl, hc.exists_found_of_takes hx ho hf (takes_whole ht hv (.inr (.inl rfl)))
        hitem (.inr ⟨rfl, rfl, rfl⟩) (.inr ⟨rfl, rfl, rfl⟩) hover⟩

/-! ### Lossy edges -/

/-- Something is lost of the edge of these symbols over this stretch. -/
inductive Lossy (input : Text) (c : Chart g.rules) (r : g.RuleId) (d s e : Nat) : Prop
  /-- The symbols take nothing, and neither those in front of the last one nor a rule that this one can
  stand for have got an edge at this place. -/
  | empty {r' : g.RuleId} (he : e = s) (ho : ¬ c.Has ⟨r, d, .offset s, .offset s⟩)
      (hp : PreferredSplit .skippingBlanks input r d s s e (some r'))
      (hf : ¬ c.Has ⟨r', (g.rule r').length, .offset s, .offset s⟩)
  /-- The last symbol is a terminal that can be found behind nothing and behind something else, and the
  symbols that vanish in front of it have got no edge at this place. -/
  | behind {p : Nat} (ho : ¬ c.Has ⟨r, d, .offset s, .offset s⟩)
      (h : Splits .skippingBlanks input r d s s e none)
      (h' : Splits .skippingBlanks input r d s p e none) (hne : p ≠ s)

/-- There is no priority in front of a terminal. -/
theorem Splits.preferred_of_terminal (h : Splits lexer input r d s p e none) :
    PreferredSplit lexer input r d s p e none :=
  ⟨h, fun _ hb => absurd hb (by simp [splitPriority])⟩

/-- An edge that lies over a stretch has its place there, unless it has none. -/
theorem has_or_floating {a : Nat} {o : Item g.rules} (ho : c.item? a = some o) (hn : o.number = r)
    (hd : o.dot = d) (hover : o.Over s e) :
    c.Has ⟨r, d, .offset s, .offset e⟩ ∨ o.start = .anywhere := by
  rcases hover with ⟨hs, he⟩ | ⟨hs, -, -⟩
  · rw [Item.eq_of_fields hd hs he, hn] at ho
    exact .inl ⟨a, ho⟩
  · exact .inr hs

/-- Over a nonterminal that takes nothing there is a derivation, unless the edge is lossy. -/
theorem exists_found_of_empty (hc : Parsed strategy .skippingBlanks input c)
    (hu : strategy.isBottomUp = true) (he : NoEmptyMatches g input) (hx : c.edge? n = some x)
    (hi : x.item = ⟨r, d + 1, .offset s, .offset s⟩)
    (hp : PreferredSplit .skippingBlanks input r d s s s (some r'))
    (hn : ¬ Lossy input c r d s s) :
    ∃ δ ∈ x.derivations, Found .skippingBlanks input c x.item s s s δ (some r') := by
  have hover : x.item.Over s s := .inl (by rw [hi]; exact ⟨rfl, rfl⟩)
  have hsplit := hp.splits
  cases hsplit with
  | @nonterminal k l _ h ht hs hv =>
      obtain rfl := h.eq_zero he.advances
      obtain rfl := hs.eq_zero he.advances
      have hchild := (hc.has_of_spells_bottomUp hu hc.noGaps he hs).floating rfl
        List.eq_nil_of_length_eq_zero
      by_cases ho : c.Has ⟨r, d, .offset s, .offset s⟩
      · exact hc.exists_found_of_takes hx ho hchild (takes_whole ht hv (.inr (.inr rfl))) hi
          (.inl ⟨rfl, rfl⟩) (.inr ⟨rfl, rfl, rfl⟩) hover
      · have hf : c.Has ⟨r', (g.rule r').length, .offset s, .offset s⟩ := by
          by_contra hf
          exact hn (.empty rfl ho hp hf)
        rcases Nat.eq_zero_or_pos d with rfl | hd
        · exact absurd (hc.has_initial hu ht hf) ho
        · have hbase := (hc.has_of_spells_bottomUp hu hc.noGaps he h).floating rfl
            (fun h => absurd h (Nat.ne_of_gt hd))
          exact hc.exists_found_of_takes hx hbase hf (takes_whole ht hv (.inr (.inl rfl))) hi
            (.inr ⟨rfl, rfl, rfl⟩) (.inl ⟨rfl, rfl⟩) hover

/-- A derivation over a terminal counts if its open edge has a place. -/
theorem exists_counts_of_anchored (hc : Parsed strategy lexer input c) (hx : c.edge? n = some x)
    (hover : x.item.Over s e) (hd : x.item.dot = d + 1) {a : Nat} {t : Symbol} {m : Match}
    (ha : c.item? a = some ⟨x.item.number, d, .offset s, .offset p⟩)
    (ht : (g.rule x.item.number).rhs[d]? = some t) (hn : t.isNonterminal = false)
    (hm : lexer t input p = some m) (he : m.stop = e) (hi : x.item.start = .offset s)
    (hp : Splits lexer input x.item.number d s p e none) :
    ∃ δ ∈ c.derivations n, Found lexer input c x.item s p e δ none := by
  have hscan := hc.noGaps.isScannable ht hn
  have hstop : x.item.stop = .offset e := by
    rcases hover with ⟨-, h⟩ | ⟨h, -, -⟩
    · exact h
    · exact absurd (hi.symm.trans h) (by simp)
  have hrec : c.Records x.item a none := by
    rw [Item.eq_of_fields hd hi hstop, ← he]
    exact (hc.handled a _ ha).scanned t ht hscan p rfl m hm
  obtain ⟨δ, hδ, hδa, hδb, hfound⟩ := hc.exists_found_of_scanned hx ha (.inl ⟨rfl, rfl⟩) hover hrec
  have hpref := hp.preferred_of_terminal.mem_preferred hc hx hover hd hδ hfound
  refine ⟨δ, (counts_iff hx).2 ⟨hpref, fun w _ => Chart.standsFor_eq_false ?_ ?_⟩, hfound⟩
  · rw [hδa]
    exact Bool.eq_false_iff.2 (fun h => absurd ((Chart.isFloating_some ha).1 h) (by simp))
  · rw [hδb]
    rfl

/-- Behind symbols that vanish and have got no edge at this place a derivation over a terminal counts
too, unless there is one behind something else. -/
theorem exists_counts_of_vanishing (hc : Parsed strategy .skippingBlanks input c)
    (he : NoEmptyMatches g input) (hx : c.edge? n = some x)
    (hi : x.item = ⟨r, d + 1, .offset s, .offset e⟩) (hb : c.Has ⟨r, d, .anywhere, .anywhere⟩)
    (ho : ¬ c.Has ⟨r, d, .offset s, .offset s⟩)
    (hp : Splits .skippingBlanks input r d s s e none) (hn : ¬ Lossy input c r d s e) :
    ∃ δ ∈ c.derivations n, Found .skippingBlanks input c x.item s s e δ none := by
  have hover : x.item.Over s e := .inl (by rw [hi]; exact ⟨rfl, rfl⟩)
  have hnum : x.item.number = r := by rw [hi]
  have hdot : x.item.dot = d + 1 := by rw [hi]
  have hsplit := hp
  cases hsplit with
  | @terminal k t m h ht hnt hm hstop =>
      have hscan := hc.noGaps.isScannable ht hnt
      obtain ⟨w, hw, hws⟩ := he.exists_occurrence ht hm
      obtain ⟨b, hb⟩ := hb
      have hrec : c.Records x.item b none := by
        rw [hi, ← hstop, ← hws]
        exact (hc.handled b _ hb).scannedAnywhere t ht hscan rfl w hw m (hws ▸ hm)
      obtain ⟨δ, hδ, hδb, hδc, hfound⟩ :=
        hc.exists_found_of_scanned hx hb (.inr ⟨rfl, rfl, rfl⟩) hover hrec
      have hpref : δ ∈ preferred c.childPriority? x.derivations := by
        rw [← hnum] at hp
        exact hp.preferred_of_terminal.mem_preferred hc hx hover hdot hδ hfound
      refine ⟨δ, (counts_iff hx).2 ⟨hpref, fun other hother => ?_⟩, hfound⟩
      by_contra hstands
      rw [Bool.not_eq_false] at hstands
      rcases Chart.standsFor_cases hstands with ⟨-, ha, -, hchild⟩ | ⟨hfl, -⟩
      · obtain ⟨q, z, h'⟩ := hc.built.found hc.noGaps hx (mem_preferred.1 hother).1 hover
        have hs' := h'.splits_of_dot hc.built hc.noGaps hdot
        rw [hnum] at hs'
        rw [hδc] at hchild
        cases h' with
        | nonterminal _ _ _ _ _ _ _ => exact absurd hchild (by simp)
        | @terminal a o _ _ hoa hno hdo hop _ _ _ _ =>
            by_cases hq : q = s
            · -- the other open edge would be the one that is not there
              rw [hq] at hop
              have hod : o.dot = d := by omega
              rcases has_or_floating hoa (hno.trans hnum) hod hop with hhas | hfl
              · exact ho hhas
              · exact (Chart.isAnchored_some hoa).1 ha hfl
            · exact hn (.behind ho hp hs' hq)
      · rw [hδb, (Chart.isFloating_some hb).2 rfl] at hfl
        simp at hfl

/-- Over a terminal a derivation counts, unless the edge is lossy. -/
theorem exists_counts_of_terminal (hc : Parsed strategy .skippingBlanks input c)
    (hu : strategy.isBottomUp = true) (he : NoEmptyMatches g input) (hx : c.edge? n = some x)
    (hi : x.item = ⟨r, d + 1, .offset s, .offset e⟩)
    (hp : Splits .skippingBlanks input r d s p e none) (hn : ¬ Lossy input c r d s e) :
    ∃ δ ∈ c.derivations n, Found .skippingBlanks input c x.item s p e δ none := by
  have hsplit := hp
  cases hsplit with
  | @terminal k t m h ht hnt hm hstop =>
      have hanchored (ha : c.Has ⟨r, d, .offset s, .offset p⟩) :
          ∃ δ ∈ c.derivations n, Found .skippingBlanks input c x.item s p e δ none := by
        obtain ⟨a, ha⟩ := ha
        have hnum : x.item.number = r := by rw [hi]
        rw [← hnum] at ha ht hp
        exact exists_counts_of_anchored hc hx (.inl (by rw [hi]; exact ⟨rfl, rfl⟩)) (by rw [hi]) ha
          ht hnt hm hstop (by rw [hi]) hp
      rcases Nat.eq_zero_or_pos k with rfl | hk
      · obtain rfl := h.eq_of_zero
        by_cases ho : c.Has ⟨r, d, .offset s, .offset s⟩
        · exact hanchored ho
        · rcases Nat.eq_zero_or_pos d with rfl | hd
          · -- the rule has been started wherever its first terminal is
            have hfirst : (g.rule r).first? = some t := by
              rw [Rule.first?, List.head?_eq_getElem?]
              exact ht
            have hscan := hc.noGaps.isScannable ht hnt
            obtain ⟨w, hw, hws⟩ := he.exists_occurrence ht hm
            have hseed := hc.seeds hu r (Grammar.mem_terminalRules.2 ⟨t, hfirst, hscan⟩) t hfirst
              w hw m (hws ▸ hm)
            rw [hws] at hseed
            exact absurd hseed ho
          · have hb := (hc.has_of_spells_bottomUp hu hc.noGaps he h).floating rfl
              (fun h => absurd h (Nat.ne_of_gt hd))
            exact exists_counts_of_vanishing hc he hx hi hb ho hp hn
      · exact hanchored ((hc.has_of_spells_bottomUp hu hc.noGaps he h).anchored hk)

/-- An edge with a place is complete unless it is lossy. -/
theorem complete_of_not_lossy (hc : Parsed strategy .skippingBlanks input c)
    (hu : strategy.isBottomUp = true) (he : NoEmptyMatches g input)
    (hi : c.item? n = some ⟨r, d + 1, .offset s, .offset e⟩) (hn : ¬ Lossy input c r d s e) :
    Complete .skippingBlanks input c n s e := by
  intro i hi' d' p y hd hp
  obtain rfl := Option.some.inj (hi.symm.trans hi')
  obtain rfl : d = d' := Nat.succ.inj hd
  obtain ⟨x, hx, hxi⟩ := Chart.item?_eq_some.1 hi
  have hover : x.item.Over s e := .inl (by rw [hxi]; exact ⟨rfl, rfl⟩)
  obtain ⟨hsp, hpe, -⟩ := hp.splits.le he.advances
  rw [← hxi]
  cases y with
  | none => exact exists_counts_of_terminal hc hu he hx hxi hp.splits hn
  | some r' =>
      have hfound : ∃ δ ∈ x.derivations,
          Found .skippingBlanks input c x.item s p e δ (some r') := by
        rcases Nat.lt_or_ge s e with hlt | hge
        · exact hc.exists_found_bottomUp hu he hx hxi hlt hp.splits
        · obtain rfl : s = e := by omega
          obtain rfl : p = s := by omega
          exact exists_found_of_empty hc hu he hx hxi hp hn
      obtain ⟨δ, hδ, h⟩ := hfound
      have hdot : x.item.dot = d + 1 := by rw [hxi]
      have hp' : PreferredSplit .skippingBlanks input x.item.number d s p e (some r') := by
        rw [hxi]
        exact hp
      exact h.exists_counts hc hx hover (hp'.mem_preferred hc hx hover hdot hδ h)

/-- **A lossy edge is not complete.** -/
theorem Lossy.not_complete (h : Lossy input c r d s e)
    (hi : c.item? n = some ⟨r, d + 1, .offset s, .offset e⟩) :
    ¬ Complete .skippingBlanks input c n s e := by
  intro hcomplete
  have hcounts {p : Nat} {y : Option g.RuleId} := hcomplete _ hi d p y rfl
  cases h with
  | empty he ho hp hf =>
      rw [he] at hi hcounts hp
      obtain ⟨δ, -, hfound⟩ := hcounts hp
      generalize hy : some _ = y at hfound
      cases hfound with
      | terminal _ _ _ _ _ _ _ _ => exact absurd hy (by simp)
      | @nonterminal b a o f hb ha hj hover hover' hd _ =>
          obtain rfl := Option.some.inj hy
          have hos := (has_or_floating hb (congrArg Item.number hj).symm
            (Nat.succ.inj (congrArg Item.dot hj)).symm hover).resolve_left ho
          have hfs := (has_or_floating ha rfl hd hover').resolve_left hf
          have hnone := Item.joined_start_eq_anywhere.2 ⟨hos, hfs⟩
          rw [← hj] at hnone
          exact absurd hnone (by simp)
  | behind ho h h' hne =>
      obtain ⟨δ, hδ, hfound⟩ := hcounts h.preferred_of_terminal
      obtain ⟨δ', hδ', hfound'⟩ := hcounts h'.preferred_of_terminal
      obtain ⟨x, hx, -⟩ := Chart.item?_eq_some.1 hi
      have hnot := ((counts_iff hx).1 hδ).2 δ' ((counts_iff hx).1 hδ').1
      generalize hy : none = y at hfound hfound'
      cases hfound with
      | nonterminal _ _ _ _ _ _ _ => exact absurd hy (by simp)
      | @terminal a o _ m ha hn hd hover _ _ _ _ =>
          cases hfound' with
          | @terminal a' o' _ m' ha' hn' _ hover' _ _ _ _ =>
              have hos := (has_or_floating ha hn (Nat.succ.inj hd) hover).resolve_left ho
              have hos' : o'.start ≠ .anywhere := by
                rcases hover' with ⟨hs, -⟩ | ⟨-, -, hsp⟩
                · rw [hs]
                  simp
                · exact absurd hsp.symm hne
              have hstands := Chart.standsFor_base (c := c) none (some m.texts) (some m'.texts)
                ha ha' hos hos' (hn'.trans hn.symm)
              rw [hnot] at hstands
              exact absurd hstands (by simp)

/-- **An edge with a place is complete exactly if it is not lossy.** -/
theorem complete_iff_not_lossy (hc : Parsed strategy .skippingBlanks input c)
    (hu : strategy.isBottomUp = true) (he : NoEmptyMatches g input) (hi : c.item? n = some i)
    (hd : i.dot = d + 1) (hs : i.start ≠ .anywhere) (hover : i.Over s e) :
    Complete .skippingBlanks input c n s e ↔ ¬ Lossy input c i.number d s e := by
  have hplace : i = ⟨i.number, d + 1, .offset s, .offset e⟩ := by
    rcases hover with ⟨hs, he⟩ | ⟨h, -, -⟩
    · exact Item.eq_of_fields hd hs he
    · exact absurd h hs
  rw [hplace] at hi
  exact ⟨fun h hlossy => hlossy.not_complete hi h, complete_of_not_lossy hc hu he hi⟩

end Parser

end ChartParsing
