import ChartParsing.Parser
import ChartParsing.Proofs.Chart.Preference
import ChartParsing.Proofs.Recognition.Cycles

/-!
# Which entities are reported

An entity that takes the whole input is reported unless links lead to it from the edge of an entity.
Such links stay over the whole input, so they are inner steps, and of those nothing can be missing in a
chart: whether an entity is reported can be told without the chart.  `Outer` and `Reported` say so, the
second one with priorities.

Main statement: **`mem_wholeEntities`**.  It is the same for every chart that is `Thorough`, and the
charts of both strategies are: **`thorough_topDown`** and **`thorough_bottomUp`**.
-/

namespace ChartParsing

open Relation

namespace Chart

variable {rules : Array Rule} {c : Chart rules} {n : Nat} {i : Item rules}

theorem perm_listed (hw : c.WellFormed) (hs : c.staged = []) : c.listed.Perm (List.range c.size) := by
  have hn := hw.numbered
  rw [hs, List.append_nil] at hn
  exact hn

theorem mem_entities (hw : c.WellFormed) (hs : c.staged = []) : n ∈ c.entities ↔
    ∃ i, c.item? n = some i ∧ i.rule.entity = true ∧ i.isReduced = true ∧ i.start ≠ .anywhere := by
  unfold entities
  rw [List.mem_filter, (perm_listed hw hs).mem_iff, List.mem_range, Option.any_eq_true]
  constructor
  · rintro ⟨-, i, hi, hp⟩
    simp only [Bool.and_eq_true, Bool.not_eq_true', ← Bool.not_eq_true, Parser.isFloating_iff] at hp
    exact ⟨i, hi, hp.1.1, hp.1.2, hp.2⟩
  · rintro ⟨i, hi, he, hr, hp⟩
    refine ⟨lt_size_of_item? hi, i, hi, ?_⟩
    simp only [Bool.and_eq_true, Bool.not_eq_true', ← Bool.not_eq_true, Parser.isFloating_iff]
    exact ⟨⟨he, hr⟩, hp⟩

theorem mem_outermost : n ∈ c.outermost ↔
    n ∈ c.entities ∧ ¬ ∃ m ∈ c.entities, TransGen c.Links m n := by
  unfold outermost
  rw [List.mem_filter, ← mem_within]
  simp

theorem nodup_outermost (hw : c.WellFormed) (hs : c.staged = []) : c.outermost.Nodup :=
  (((perm_listed hw hs).nodup_iff.2 List.nodup_range).filter _).filter _

end Chart

namespace Parser

variable {g : Grammar} {strategy : Strategy} {lexer : Lexer} {input : Text}
  {c : Chart g.rules} {i : Item g.rules} {r r' : g.RuleId} {d n : Nat} {a b : g.RuleId × Nat}

/-! ### Thorough charts -/

/-- The chart has the entities that take the whole input, and over the whole input it has a derivation
for each split in front of a nonterminal. -/
structure Thorough (lexer : Lexer) (input : Text) (c : Chart g.rules) : Prop where
  whole : ∀ r : g.RuleId, (g.rule r).entity = true → Derives lexer input r 0 input.byteLength →
    c.Has ⟨r, (g.rule r).length, .offset 0, .offset input.byteLength⟩
  found : ∀ n x (r : g.RuleId) d p r', c.edge? n = some x →
    x.item = ⟨r, d + 1, .offset 0, .offset input.byteLength⟩ →
      Splits lexer input r d 0 p input.byteLength (some r') →
        ∃ δ ∈ x.derivations, Found lexer input c x.item 0 p input.byteLength δ (some r')

theorem thorough_topDown (hc : Parsed .topDown lexer input c) : Thorough lexer input c where
  whole := by
    rintro r hr ⟨k, hk⟩
    exact hc.has_of_spells hc.noGaps rfl hk (hc.entities rfl r (Grammar.mem_select.2 hr))
  found n x r d p r' hx hi hs := hc.exists_found_topDown hx hi hs

theorem thorough_bottomUp (hc : Parsed strategy .skippingBlanks input c)
    (hu : strategy.isBottomUp = true) (he : NoEmptyMatches g input) (hlen : 0 < input.byteLength) :
    Thorough .skippingBlanks input c where
  whole := by
    rintro r - ⟨k, hk⟩
    exact (hc.has_of_spells_bottomUp hu hc.noGaps he hk).anchored (hk.pos hlen)
  found n x r d p r' hx hi hs := hc.exists_found_bottomUp hu he hx hi hlen hs

/-! ### Links over the whole input -/

/-- Every inner step over the whole input is a link of the chart. -/
theorem Thorough.exists_links (ht : Thorough lexer input c) (hlen : 0 < input.byteLength)
    (h : Inner lexer input 0 input.byteLength a b)
    (hn : c.item? n = some ⟨a.1, a.2, .offset 0, .offset input.byteLength⟩) :
    ∃ m, c.Links n m ∧ c.item? m = some ⟨b.1, b.2, .offset 0, .offset input.byteLength⟩ := by
  obtain ⟨x, hx, hi⟩ := Chart.item?_eq_some.1 hn
  cases h with
  | @base r r' d h =>
      obtain ⟨δ, hδ, hfound⟩ := ht.found n x r d _ r' hx hi h
      cases hfound with
      | @nonterminal b a o f ho hf hj hop _ _ _ =>
          have hitem : o.number = r ∧ o.dot = d := by
            rw [hi] at hj
            exact ⟨(congrArg Item.number hj).symm, (Nat.succ.inj (congrArg Item.dot hj)).symm⟩
          obtain ⟨hs, he⟩ := hop.of_lt hlen
          refine ⟨b, Chart.links_iff.2 ⟨x, hx, _, hδ, by simp [Derivation.links]⟩, ?_⟩
          rw [ho, Item.eq_of_fields hitem.2 hs he, hitem.1]
  | @child r r' d h =>
      obtain ⟨δ, hδ, hfound⟩ := ht.found n x r d _ r' hx hi h
      generalize hz : some r' = z at hfound
      cases hfound with
      | terminal _ _ _ _ _ _ _ _ => exact absurd hz (by simp)
      | @nonterminal b a o f ho hf hj _ hfe hd _ =>
          obtain rfl := Option.some.inj hz
          obtain ⟨hs, he⟩ := hfe.of_lt hlen
          refine ⟨a, Chart.links_iff.2 ⟨x, hx, _, hδ, by simp [Derivation.links]⟩, ?_⟩
          rw [hf, Item.eq_of_fields hd hs he]
          rfl

/-- The same for chains. -/
theorem Thorough.exists_chain (ht : Thorough lexer input c) (hlen : 0 < input.byteLength)
    (h : TransGen (Inner lexer input 0 input.byteLength) a b)
    (hn : c.item? n = some ⟨a.1, a.2, .offset 0, .offset input.byteLength⟩) :
    ∃ m, TransGen c.Links n m ∧
      c.item? m = some ⟨b.1, b.2, .offset 0, .offset input.byteLength⟩ := by
  induction h with
  | single h =>
      obtain ⟨m, hm, hi⟩ := ht.exists_links hlen h hn
      exact ⟨m, .single hm, hi⟩
  | tail _ h ih =>
      obtain ⟨k, hk, hi⟩ := ih
      obtain ⟨m, hm, hj⟩ := ht.exists_links hlen h hi
      exact ⟨m, hk.tail hm, hj⟩

/-- Inner steps lead here from an entity that takes the whole input. -/
def Covered (lexer : Lexer) (input : Text) (a : g.RuleId × Nat) : Prop :=
  ∃ r : g.RuleId, (g.rule r).entity = true ∧ Derives lexer input r 0 input.byteLength ∧
    TransGen (Inner lexer input 0 input.byteLength) (r, (g.rule r).length) a

/-- **What is part of another entity** can be told without the chart. -/
theorem Thorough.covered_iff (ht : Thorough lexer input c) (hc : Parsed strategy lexer input c)
    (ha : Advances g lexer input) (hl : lexer.Within input) (hlen : 0 < input.byteLength)
    (hn : c.item? n = some ⟨r, d, .offset 0, .offset input.byteLength⟩) :
    (∃ m ∈ c.entities, TransGen c.Links m n) ↔ Covered lexer input (r, d) := by
  constructor
  · rintro ⟨m, hm, hlinks⟩
    obtain ⟨i, hi, he, hr, hs⟩ := (Chart.mem_entities hc.wellFormed hc.staged).1 hm
    obtain ⟨s, e, hover, hle⟩ : ∃ s e, i.Over s e ∧ e ≤ input.byteLength := by
      rcases (hc.built.within hl ⟨m, hi⟩).span with ⟨h, -⟩ | ⟨s, e, -, hle, hs, he⟩
      · exact absurd h hs
      · exact ⟨s, e, .inl ⟨hs, he⟩, hle⟩
    obtain ⟨j, s', e', hj, hover', hss, hee, hinner⟩ :=
      hc.built.over_of_chain hc.noGaps ha hlinks hi hover
    obtain rfl := Option.some.inj (hn.symm.trans hj)
    obtain ⟨rfl, rfl⟩ := (over_offset rfl rfl).1 hover'
    obtain rfl : s = 0 := Nat.le_zero.1 hss
    obtain rfl : e = input.byteLength := Nat.le_antisymm hle hee
    have hdot : i.dot = (g.rule i.number).length :=
      Nat.le_antisymm (hc.built.dot_le_length ⟨m, hi⟩) (of_decide_eq_true hr)
    obtain ⟨k, hk, -⟩ := hc.built.spells hc.noGaps ⟨m, hi⟩ 0 _ hover
    have hchain := hinner rfl rfl
    rw [hdot] at hk hchain
    exact ⟨i.number, he, ⟨k, hk⟩, hchain⟩
  · rintro ⟨r₀, he, hderives, hinner⟩
    obtain ⟨m, hm⟩ := ht.whole r₀ he hderives
    obtain ⟨k, hk, hi⟩ := ht.exists_chain hlen hinner hm
    obtain rfl := hc.wellFormed.unique k n _ hi hn
    refine ⟨m, (Chart.mem_entities hc.wellFormed hc.staged).2 ⟨_, hm, he, ?_, by simp⟩, hk⟩
    exact decide_eq_true (Nat.le_refl _)

/-! ### Reported entities -/

/-- The rule of an entity that takes the whole input and is part of no other such entity. -/
structure Outer (lexer : Lexer) (input : Text) (r : g.RuleId) : Prop where
  entity : (g.rule r).entity = true
  derives : Derives lexer input r 0 input.byteLength
  uncovered : ¬ Covered lexer input (r, (g.rule r).length)

/-- Such a rule that no other one of greater priority competes with. -/
structure Reported (lexer : Lexer) (input : Text) (r : g.RuleId) : Prop where
  outer : Outer lexer input r
  greatest : ∀ b, (g.rule r).priority = some b → ∀ r' : g.RuleId, Outer lexer input r' →
    ∀ b', (g.rule r').priority = some b' → b' ≤ b

/-- The outermost entities over the whole input. -/
theorem Thorough.mem_outermost_iff (ht : Thorough lexer input c) (hc : Parsed strategy lexer input c)
    (ha : Advances g lexer input) (hl : lexer.Within input) (hlen : 0 < input.byteLength) :
    (n ∈ c.outermost ∧ ∃ i, c.item? n = some i ∧ i.start = .offset 0 ∧
        i.stop = .offset input.byteLength) ↔
      ∃ r : g.RuleId, c.item? n = some ⟨r, (g.rule r).length, .offset 0, .offset input.byteLength⟩ ∧
        Outer lexer input r := by
  rw [Chart.mem_outermost, Chart.mem_entities hc.wellFormed hc.staged]
  constructor
  · rintro ⟨⟨⟨i, hi, he, hr, -⟩, hout⟩, j, hj, hs, hstop⟩
    obtain rfl := Option.some.inj (hi.symm.trans hj)
    have hdot : i.dot = (g.rule i.number).length :=
      Nat.le_antisymm (hc.built.dot_le_length ⟨n, hi⟩) (of_decide_eq_true hr)
    have hn := hi
    rw [Item.eq_of_fields hdot hs hstop] at hn
    obtain ⟨k, hk, -⟩ := hc.built.spells hc.noGaps ⟨n, hi⟩ 0 _ (.inl ⟨hs, hstop⟩)
    rw [hdot] at hk
    exact ⟨i.number, hn, he, ⟨k, hk⟩, fun h => hout ((ht.covered_iff hc ha hl hlen hn).2 h)⟩
  · rintro ⟨r, hn, ho⟩
    refine ⟨⟨⟨_, hn, ho.entity, decide_eq_true (Nat.le_refl _), by simp⟩, fun h => ?_⟩,
      _, hn, rfl, rfl⟩
    exact ho.uncovered ((ht.covered_iff hc ha hl hlen hn).1 h)

/-- **Which entities are reported** depends on the grammar and the input alone. -/
theorem Thorough.mem_wholeEntities (ht : Thorough lexer input c) (hc : Parsed strategy lexer input c)
    (ha : Advances g lexer input) (hl : lexer.Within input) (hlen : 0 < input.byteLength) :
    n ∈ wholeEntities c input ↔
      ∃ r : g.RuleId, c.item? n = some ⟨r, (g.rule r).length, .offset 0, .offset input.byteLength⟩ ∧
        Reported lexer input r := by
  have hfilter (m : Nat) : m ∈ c.outermost.filter (fun n => (c.item? n).any (fun i =>
      i.start = .offset 0 ∧ i.stop = .offset input.byteLength)) ↔
      ∃ r : g.RuleId, c.item? m = some ⟨r, (g.rule r).length, .offset 0, .offset input.byteLength⟩ ∧
        Outer lexer input r := by
    rw [← ht.mem_outermost_iff hc ha hl hlen, List.mem_filter, Option.any_eq_true]
    simp
  have hpriority {m : Nat} {i : Item g.rules} (hi : c.item? m = some i) :
      c.priority? m = (g.rule i.number).priority := by
    rw [Chart.priority?, hi]
    rfl
  unfold wholeEntities
  rw [mem_preferred, hfilter]
  constructor
  · rintro ⟨⟨r, hn, ho⟩, hmax⟩
    refine ⟨r, hn, ho, fun b hb r' ho' b' hb' => ?_⟩
    obtain ⟨m, hm⟩ := ht.whole r' ho'.entity ho'.derives
    exact hmax b (by rw [hpriority hn, hb]) m ((hfilter m).2 ⟨r', hm, ho'⟩) b'
      (by rw [hpriority hm, hb'])
  · rintro ⟨r, hn, ho, hmax⟩
    refine ⟨⟨r, hn, ho⟩, fun b hb m hm b' hb' => ?_⟩
    obtain ⟨r', hm', ho'⟩ := (hfilter m).1 hm
    rw [hpriority hn] at hb
    rw [hpriority hm'] at hb'
    exact hmax b hb r' ho' b' hb'

theorem nodup_wholeEntities (hc : Parsed strategy lexer input c) : (wholeEntities c input).Nodup :=
  nodup_preferred ((Chart.nodup_outermost hc.wellFormed hc.staged).filter _)

end Parser

end ChartParsing
