import ChartParsing.Proofs.Agreement.Counting
import ChartParsing.Proofs.Agreement.Entities
import ChartParsing.Proofs.Agreement.Losses

/-!
# When the strategies agree

Both strategies report the same entities of an input, and each of these has its counterpart in the chart
of the other strategy.  So they agree on the whole input exactly as far as they agree on those edges.

Top down nothing is lost.  Bottom up derivations are lost of lossy edges, and then readings are missing:
the two strategies need not agree.  An input is `Faithful` if its bottom-up readings are made of no lossy
edge.

Main statement: **`strategies_agree_iff`**.  Strategies agree on faithful inputs, and on no others unless
something of less priority counts where something is lost.  A grammar in which no rule spells the empty
text is always faithful: **`perm_of_nothing_vanishes`**.
-/

namespace ChartParsing

namespace Parser

open Relation

variable {g : Grammar} {strategy : Strategy} {lexer : Lexer} {input : Text}
  {c c' : Chart g.rules} {n n' m u v : Nat}

/-! ### Results -/

/-- The readings of a chart, each entity unfolded by itself. -/
def readingsOf (c : Chart g.rules) (input : Text) : List Reading :=
  (wholeEntities c input).flatMap (fun n => (c.unfolded n).toReadings)

/-- **What a parse answers** for a grammar without gaps and cycles. -/
theorem parse_eq (strategy : Strategy) (hg : g.NoGaps) (he : NoEmptyMatches g input)
    (hf : CycleFree g .skippingBlanks input) :
    g.parse strategy input = .ok (readingsOf (finalChart g strategy .skippingBlanks input) input) := by
  have hl := Lexer.skippingBlanks_within input
  have hc := parsed_finalChart strategy hl hg
  have hs : ∀ n ∈ wholeEntities (finalChart g strategy .skippingBlanks input) input,
      Shallow (finalChart g strategy .skippingBlanks input).Needs
        (finalChart g strategy .skippingBlanks input).size n := by
    intro n hn
    have hn' := (List.mem_filter.1 (mem_preferred.1 hn).1).2
    obtain ⟨i, hi, -⟩ := (Option.any_eq_true _ _).1 hn'
    exact hc.shallow he.advances hf hi
  have hparse : (new g strategy .skippingBlanks).parse input =
      (((new g strategy .skippingBlanks).parse input).1, none) :=
    Prod.ext rfl (parse_succeeds (new g strategy .skippingBlanks) input hl hg)
  unfold Grammar.parse
  rw [hparse]
  exact congrArg Except.ok (Forest.resultsOfAll_eq (Forest.right_new _) rfl hs)

/-! ### Entities of two charts -/

/-- Edges of one entity in two charts, the first of which reports it. -/
structure SameEntity (input : Text) (c c' : Chart g.rules) (n n' : Nat) : Prop where
  reported : n ∈ wholeEntities c input
  whole : ∃ r : g.RuleId,
    c.item? n = some ⟨r, (g.rule r).length, .offset 0, .offset input.byteLength⟩ ∧
      c'.item? n' = some ⟨r, (g.rule r).length, .offset 0, .offset input.byteLength⟩

theorem SameEntity.counterpart (h : SameEntity input c c' n n') :
    Counterpart c c' n n' 0 input.byteLength := by
  obtain ⟨r, hn, hn'⟩ := h.whole
  exact ⟨_, hn, .inl ⟨rfl, rfl⟩, hn'⟩

/-- What counts of an entity is what it has of readings. -/
theorem SameEntity.length_readings (h : SameEntity input c c' n n') :
    (c.unfolded n).toReadings.length = (c.unfolded n).count ∧
      (c'.unfolded n').toReadings.length = (c'.unfolded n').count := by
  obtain ⟨r, hn, hn'⟩ := h.whole
  have hr : (⟨r, (g.rule r).length, .offset 0, .offset input.byteLength⟩ : Item g.rules).isReduced =
      true := decide_eq_true (Nat.le_refl _)
  exact ⟨(length_unfolded hn).2 hr, (length_unfolded hn').2 hr⟩

/-- **Thorough charts report the same entities.** -/
theorem exists_matching_entities {strategy' : Strategy} (hc : Parsed strategy lexer input c)
    (hc' : Parsed strategy' lexer input c') (ht : Thorough lexer input c)
    (ht' : Thorough lexer input c') (ha : Advances g lexer input) (hl : lexer.Within input)
    (hlen : 0 < input.byteLength) :
    ∃ l, List.Forall₂ (SameEntity input c c') (wholeEntities c input) l ∧
      l.Perm (wholeEntities c' input) := by
  refine exists_matching_perm (nodup_wholeEntities hc) (nodup_wholeEntities hc') ?_ ?_ ?_ ?_
  · intro n hmem
    obtain ⟨r, hn, hr⟩ := (ht.mem_wholeEntities hc ha hl hlen).1 hmem
    obtain ⟨n', hn'⟩ := ht'.whole r hr.outer.entity hr.outer.derives
    exact ⟨n', (ht'.mem_wholeEntities hc' ha hl hlen).2 ⟨r, hn', hr⟩, hmem, r, hn, hn'⟩
  · rintro n k n' ⟨-, r, hn, hn'⟩ ⟨-, r', hk, hk'⟩
    obtain rfl : r = r' := congrArg Item.number (Option.some.inj (hn'.symm.trans hk'))
    exact hc.wellFormed.unique n k _ hn hk
  · intro n' hn'
    obtain ⟨r, hn', hr⟩ := (ht'.mem_wholeEntities hc' ha hl hlen).1 hn'
    obtain ⟨n, hn⟩ := ht.whole r hr.outer.entity hr.outer.derives
    have hmem := (ht.mem_wholeEntities hc ha hl hlen).2 ⟨r, hn, hr⟩
    exact ⟨n, hmem, hmem, r, hn, hn'⟩
  · rintro n n' k' ⟨-, r, hn, hn'⟩ ⟨-, r', hk, hk'⟩
    obtain rfl : r = r' := congrArg Item.number (Option.some.inj (hn.symm.trans hk))
    exact hc'.wellFormed.unique n' k' _ hn' hk'

/-! ### Agreement of a chart with the one from top down -/

/-- Everything that the readings of the whole input are made of is complete. -/
def Whole (lexer : Lexer) (input : Text) (c : Chart g.rules) : Prop :=
  ∀ n ∈ wholeEntities c input, ∀ m u v,
    ReflTransGen (Uses lexer input c) (n, 0, input.byteLength) (m, u, v) →
      Complete lexer input c m u v

/-- Then the readings are those from top down. -/
theorem Whole.perm (h : Whole lexer input c) (hc : Parsed strategy lexer input c)
    (hc' : Parsed .topDown lexer input c') (ht : Thorough lexer input c) (ha : Advances g lexer input)
    (hl : lexer.Within input) (hf : CycleFree g lexer input) (hlen : 0 < input.byteLength)
    (hg : ∀ r : g.RuleId, (g.rule r).action = none) :
    ((readingsOf c' input).map Reading.essence).Perm ((readingsOf c input).map Reading.essence) := by
  obtain ⟨l, hmatch, hperm⟩ :=
    exists_matching_entities hc hc' ht (thorough_topDown hc') ha hl hlen
  unfold readingsOf
  rw [List.map_flatMap, List.map_flatMap]
  refine List.Perm.symm ((perm_flatMap_of_forall₂ hmatch (fun n n' hn => ?_)).trans
    (hperm.flatMap_right _))
  exact (agrees_of_complete hc hc' ha hf hg hn.counterpart (h n hn.reported)).readings

/-- Only preferred splits count of anything that the readings of the whole input are made of. -/
def WholePreferred (lexer : Lexer) (input : Text) (c : Chart g.rules) : Prop :=
  ∀ n ∈ wholeEntities c input, ∀ m u v,
    ReflTransGen (Uses lexer input c) (n, 0, input.byteLength) (m, u, v) →
      OnlyPreferred lexer input c m u v

/-- Then the readings are as many as those from top down only if all is complete. -/
theorem whole_of_length_le (hc : Parsed strategy lexer input c) (hc' : Parsed .topDown lexer input c')
    (ht : Thorough lexer input c) (ha : Advances g lexer input) (hl : lexer.Within input)
    (hf : CycleFree g lexer input) (hlen : 0 < input.byteLength)
    (hp : WholePreferred lexer input c)
    (htexts : ∀ t q m, lexer t input q = some m → m.texts ≠ [])
    (hle : (readingsOf c' input).length ≤ (readingsOf c input).length) : Whole lexer input c := by
  obtain ⟨l, hmatch, hperm⟩ :=
    exists_matching_entities hc hc' ht (thorough_topDown hc') ha hl hlen
  have hpair (n n' : Nat) (h : SameEntity input c c' n n') :
      (c.unfolded n).toReadings.length ≤ (c'.unfolded n').toReadings.length := by
    rw [h.length_readings.1, h.length_readings.2]
    exact count_le hc hc' ha hf h.counterpart (hp n h.reported)
  unfold readingsOf at hle
  rw [← (hperm.flatMap_right _).length_eq] at hle
  intro n hn m u v huses
  obtain ⟨n', -, h, heq⟩ := length_eq_of_length_flatMap_le hmatch hpair hle hn
  rw [h.length_readings.1, h.length_readings.2] at heq
  exact complete_of_count_le hc hc' ha hf (hp n hn) htexts h.counterpart (Nat.le_of_eq heq.symm) huses

/-! ### Faithful inputs -/

/-- No edge that the bottom-up readings of the whole input are made of is lossy. -/
def Faithful (g : Grammar) (input : Text) : Prop :=
  ∀ n ∈ wholeEntities (finalChart g .bottomUp .skippingBlanks input) input, ∀ m u v i d,
    ReflTransGen (Uses .skippingBlanks input (finalChart g .bottomUp .skippingBlanks input))
        (n, 0, input.byteLength) (m, u, v) →
      (finalChart g .bottomUp .skippingBlanks input).item? m = some i →
        i.start ≠ .anywhere → i.dot = d + 1 →
          ¬ Lossy input (finalChart g .bottomUp .skippingBlanks input) i.number d u v

/-- What is used is there, and lies over the stretch that it is used for. -/
theorem exists_over_of_uses {t t' : Nat × Nat × Nat} (h : ReflTransGen (Uses lexer input c) t t')
    (ht : ∃ i, c.item? t.1 = some i ∧ i.Over t.2.1 t.2.2) :
    ∃ i, c.item? t'.1 = some i ∧ i.Over t'.2.1 t'.2.2 := by
  induction h with
  | refl => exact ht
  | tail _ h _ =>
      cases h with
      | base hi hδ h hb =>
          cases h with
          | terminal ho _ _ hover _ _ _ _ =>
              obtain rfl := Option.some.inj hb
              exact ⟨_, ho, hover⟩
          | nonterminal ho _ _ hover _ _ _ =>
              obtain rfl := Option.some.inj hb
              exact ⟨_, ho, hover⟩
      | child hi hδ h hb =>
          cases h with
          | terminal _ _ _ _ _ _ _ _ => exact absurd hb (by simp)
          | nonterminal _ hf _ _ hover _ _ =>
              obtain rfl := Option.some.inj hb
              exact ⟨_, hf, hover⟩

/-- What the readings of the whole input are made of lies over the stretch that it is used for. -/
theorem exists_over_of_whole (hn : n ∈ wholeEntities c input)
    (h : ReflTransGen (Uses lexer input c) (n, 0, input.byteLength) (m, u, v)) :
    ∃ i, c.item? m = some i ∧ i.Over u v := by
  have hmem := (List.mem_filter.1 (mem_preferred.1 hn).1).2
  obtain ⟨i, hi, hp⟩ := (Option.any_eq_true _ _).1 hmem
  exact exists_over_of_uses h ⟨i, hi, .inl (of_decide_eq_true hp)⟩

/-- **On a faithful input all is complete**, and on no other. -/
theorem faithful_iff_whole (hg : g.NoGaps) (he : NoEmptyMatches g input) :
    Faithful g input ↔
      Whole .skippingBlanks input (finalChart g .bottomUp .skippingBlanks input) := by
  have hc := parsed_finalChart .bottomUp (Lexer.skippingBlanks_within input) hg
  constructor
  · intro h n hn m u v huses j hj d p y hd
    obtain ⟨i, hi, hover⟩ := exists_over_of_whole hn huses
    obtain rfl := Option.some.inj (hi.symm.trans hj)
    by_cases hs : i.start = .anywhere
    · obtain rfl : u = v := by
        rcases hover with ⟨hu, -⟩ | ⟨-, -, huv⟩
        · exact absurd (hs.symm.trans hu) (by simp)
        · exact huv
      exact complete_of_floating hc rfl he hi hs i hi d p y hd
    · have hn := h n hn m u v i d huses hi hs hd
      exact (complete_iff_not_lossy hc rfl he hi hd hs hover).2 hn i hi d p y hd
  · intro h n hn m u v i d huses hi hs hd
    obtain ⟨j, hj, hover⟩ := exists_over_of_whole hn huses
    obtain rfl := Option.some.inj (hi.symm.trans hj)
    exact (complete_iff_not_lossy hc rfl he hi hd hs hover).1 (h n hn m u v huses)

/-- The symbols left of a dot vanish only if a whole rule does. -/
theorem Spells.exists_vanishing {r : g.RuleId} {d s e : Nat}
    (h : Spells lexer input r (d + 1) s e 0) : ∃ (r' : g.RuleId) (p : Nat),
      Spells lexer input r' (g.rule r').length p p 0 := by
  generalize hk : 0 = k at h
  cases h with
  | terminal _ _ _ _ => simp at hk
  | @nonterminal _ r' _ _ p _ k l h _ hs _ =>
      obtain ⟨rfl, rfl⟩ : k = 0 ∧ l = 0 := by omega
      exact ⟨r', p, hs.anywhere p⟩

/-- **A grammar in which no rule spells the empty text is faithful.** -/
theorem faithful_of_nothing_vanishes (he : NoEmptyMatches g input)
    (h : ∀ (r : g.RuleId) (p : Nat), ¬ Derives .skippingBlanks input r p p) : Faithful g input := by
  intro n _ m u v i d _ _ _ _ hlossy
  cases hlossy with
  | @empty r' hvu _ hp _ =>
      have hsplit := hp.splits
      cases hsplit with
      | @nonterminal k l _ _ _ hr _ =>
          rw [hvu] at hr
          exact h r' u ⟨l, hr⟩
  | behind _ hs hs' hne =>
      cases hs with
      | @terminal k t m hvanish _ _ _ _ =>
          cases d with
          | zero =>
              cases hs' with
              | terminal hstart _ _ _ _ =>
                  cases hstart with
                  | start _ _ => exact hne rfl
          | succ d =>
              obtain rfl := hvanish.eq_zero he.advances
              obtain ⟨r', p, hr⟩ := hvanish.exists_vanishing
              exact h r' p ⟨0, hr⟩

/-- A rule with a terminal among its symbols does not spell the empty text. -/
theorem not_derives_of_terminal {r : g.RuleId} {p : Nat} (ha : Advances g lexer input)
    (h : ∃ t ∈ (g.rule r).rhs, t.isNonterminal = false) : ¬ Derives lexer input r p p := by
  obtain ⟨t, hmem, hn⟩ := h
  rintro ⟨k, hk⟩
  obtain ⟨j, ht⟩ := List.mem_iff_getElem?.1 hmem
  obtain ⟨hlt, -⟩ := List.getElem?_eq_some_iff.1 ht
  obtain ⟨r', l, ht', -, -⟩ := hk.vanishes ha hlt
  obtain rfl := Option.some.inj (ht.symm.trans ht')
  exact absurd hn (by simp [Symbol.isNonterminal, Symbol.kind])

/-! ### The two strategies -/

theorem byteLength_pos_of_ne_nil (h : input ≠ []) : 0 < input.byteLength := by
  cases input with
  | nil => exact absurd rfl h
  | cons x xs =>
      have := x.utf8Size_pos
      simp only [Text.byteLength]
      omega

/-- On a faithful input the charts of the two strategies have the same readings. -/
theorem Faithful.perm (h : Faithful g input) (hg : g.NoGaps)
    (hact : ∀ r : g.RuleId, (g.rule r).action = none) (he : NoEmptyMatches g input)
    (hf : CycleFree g .skippingBlanks input) (hin : input ≠ []) :
    ((readingsOf (finalChart g .topDown .skippingBlanks input) input).map Reading.essence).Perm
      ((readingsOf (finalChart g .bottomUp .skippingBlanks input) input).map Reading.essence) := by
  have hl := Lexer.skippingBlanks_within input
  have hc := parsed_finalChart .bottomUp hl hg
  have hlen := byteLength_pos_of_ne_nil hin
  exact ((faithful_iff_whole hg he).1 h).perm hc (parsed_finalChart .topDown hl hg)
    (thorough_bottomUp hc rfl he hlen) he.advances hl hf hlen hact

/-- **When the strategies agree.**  For a grammar without gaps and actions, in which no nonterminal
derives itself over one stretch of the input and no terminal matches the empty text there, both
strategies answer.  The input is faithful exactly if they answer the same values with the same texts,
each as many times, and bottom up nothing of less priority counts in place of what is lost.  In a level
grammar there is no such thing, so there the input is faithful exactly if the strategies agree. -/
theorem strategies_agree_iff (g : Grammar) (input : Text) (hg : g.NoGaps)
    (hact : ∀ r : g.RuleId, (g.rule r).action = none) (he : NoEmptyMatches g input)
    (hf : CycleFree g .skippingBlanks input) (hin : input ≠ []) :
    ∃ top bottom, g.parse .topDown input = .ok top ∧ g.parse .bottomUp input = .ok bottom ∧
      (Faithful g input ↔ (top.map Reading.essence).Perm (bottom.map Reading.essence) ∧
        WholePreferred .skippingBlanks input (finalChart g .bottomUp .skippingBlanks input)) ∧
      (Level g →
        (Faithful g input ↔ (top.map Reading.essence).Perm (bottom.map Reading.essence))) := by
  have hl := Lexer.skippingBlanks_within input
  have hc := parsed_finalChart .bottomUp hl hg
  have hc' := parsed_finalChart .topDown hl hg
  have hlen := byteLength_pos_of_ne_nil hin
  have ht := thorough_bottomUp hc rfl he hlen
  have hexact : Faithful g input ↔
      ((readingsOf (finalChart g .topDown .skippingBlanks input) input).map Reading.essence).Perm
          ((readingsOf (finalChart g .bottomUp .skippingBlanks input) input).map Reading.essence) ∧
        WholePreferred .skippingBlanks input (finalChart g .bottomUp .skippingBlanks input) := by
    constructor
    · intro h
      have hwhole := (faithful_iff_whole hg he).1 h
      exact ⟨h.perm hg hact he hf hin,
        fun n hn m u v huses => (hwhole n hn m u v huses).onlyPreferred hc⟩
    · rintro ⟨h, hp⟩
      have hle := h.length_eq
      rw [List.length_map, List.length_map] at hle
      exact (faithful_iff_whole hg he).2 (whole_of_length_le hc hc' ht he.advances hl hf hlen hp
        (fun _ _ _ hm => Lexer.skippingBlanks_texts_ne_nil hm) (Nat.le_of_eq hle))
  refine ⟨_, _, parse_eq .topDown hg he hf, parse_eq .bottomUp hg he hf, hexact, fun hlevel => ?_⟩
  exact hexact.trans (and_iff_left (fun n hn m u v huses => hlevel.onlyPreferred hc))

/-- Sums that can be split in two ways. -/
def sums : Grammar :=
  ⟨#[(Rule.of "S" [.nonterminal "A", .literal "a", .nonterminal "A"]).withEntity true,
    .of "A" [.literal "a"], .of "A" [.literal "a", .literal "a"]]⟩

/-- On `aaaa` the strategies agree, since no rule spells the empty text. -/
theorem strategies_agree_sums : sums.NoGaps ∧ NoEmptyMatches sums ['a', 'a', 'a', 'a'] ∧
    CycleFree sums .skippingBlanks ['a', 'a', 'a', 'a'] ∧ Faithful sums ['a', 'a', 'a', 'a'] ∧
    ∃ top bottom, sums.parse .topDown ['a', 'a', 'a', 'a'] = .ok top ∧
      sums.parse .bottomUp ['a', 'a', 'a', 'a'] = .ok bottom ∧
        (top.map Reading.essence).Perm (bottom.map Reading.essence) := by
  have hg : sums.NoGaps := by
    unfold Grammar.NoGaps
    decide
  have he : NoEmptyMatches sums ['a', 'a', 'a', 'a'] := noEmptyMatches_of_isSolid (by decide)
  have hf : CycleFree sums .skippingBlanks ['a', 'a', 'a', 'a'] :=
    cycleFree_of_rank (fun name => if name = "S" then 1 else 0) (by decide)
  have hterminal : ∀ r : sums.RuleId, ∃ t ∈ (sums.rule r).rhs, t.isNonterminal = false := by
    decide
  have hfaithful : Faithful sums ['a', 'a', 'a', 'a'] :=
    faithful_of_nothing_vanishes he (fun r _ => not_derives_of_terminal he.advances (hterminal r))
  obtain ⟨top, bottom, htop, hbottom, hiff, -⟩ :=
    strategies_agree_iff sums ['a', 'a', 'a', 'a'] hg (by decide) he hf (by simp)
  exact ⟨hg, he, hf, hfaithful, top, bottom, htop, hbottom, (hiff.1 hfaithful).1⟩

/-- Symbols that vanish behind others, in two ways. -/
def vanishing : Grammar :=
  ⟨#[(Rule.of "S" [.literal "x", .nonterminal "D", .nonterminal "A", .literal "y"]).withEntity true,
    .of "A" [.nonterminal "B", .nonterminal "C"], .of "B" [], .of "C" [],
    .of "C" [.nonterminal "D"], .of "D" []]⟩

/-- On `xy` the strategies do not agree.  The edge for `A` gets its place from the one for `D`, and so
only one of its two derivations is found there. -/
theorem strategies_disagree_vanishing : vanishing.NoGaps ∧
    (∀ r : vanishing.RuleId, (vanishing.rule r).action = none) ∧
    NoEmptyMatches vanishing ['x', 'y'] ∧ CycleFree vanishing .skippingBlanks ['x', 'y'] ∧
    ∃ top bottom, vanishing.parse .topDown ['x', 'y'] = .ok top ∧
      vanishing.parse .bottomUp ['x', 'y'] = .ok bottom ∧
        ¬ (top.map Reading.essence).Perm (bottom.map Reading.essence) := by
  have hg : vanishing.NoGaps := by
    unfold Grammar.NoGaps
    decide
  have he : NoEmptyMatches vanishing ['x', 'y'] := noEmptyMatches_of_isSolid (by decide)
  have hf : CycleFree vanishing .skippingBlanks ['x', 'y'] :=
    cycleFree_of_rank (fun name => if name = "S" then 3 else if name = "A" then 2
      else if name = "C" then 1 else 0) (by decide)
  have htop : (vanishing.parse .topDown ['x', 'y']).toOption.map List.length = some 2 := by
    decide +kernel
  have hbottom : (vanishing.parse .bottomUp ['x', 'y']).toOption.map List.length = some 1 := by
    decide +kernel
  refine ⟨hg, by decide, he, hf, _, _, parse_eq .topDown hg he hf, parse_eq .bottomUp hg he hf, ?_⟩
  rw [parse_eq .topDown hg he hf] at htop
  rw [parse_eq .bottomUp hg he hf] at hbottom
  intro h
  have hlen := h.length_eq
  rw [List.length_map, List.length_map, Option.some.inj htop, Option.some.inj hbottom] at hlen
  exact absurd hlen (by decide)

/-- **Strategies agree where nothing vanishes.** -/
theorem perm_of_nothing_vanishes (g : Grammar) (input : Text) (hg : g.NoGaps)
    (hact : ∀ r : g.RuleId, (g.rule r).action = none) (he : NoEmptyMatches g input)
    (hf : CycleFree g .skippingBlanks input) (hin : input ≠ [])
    (h : ∀ (r : g.RuleId) (p : Nat), ¬ Derives .skippingBlanks input r p p) :
    ∃ top bottom, g.parse .topDown input = .ok top ∧ g.parse .bottomUp input = .ok bottom ∧
      (top.map Reading.essence).Perm (bottom.map Reading.essence) :=
  ⟨_, _, parse_eq .topDown hg he hf, parse_eq .bottomUp hg he hf,
    (faithful_of_nothing_vanishes he h).perm hg hact he hf hin⟩

end Parser

end ChartParsing
