import ChartParsing.Proofs.Chart.Operations
import ChartParsing.Proofs.Reordering.Rounds
import Mathlib.Data.Set.Function
import Mathlib.Order.Interval.Set.Defs

/-!
# Charts of the same rules in another order

A chart numbers its edges in the order in which they are found, and that depends on the order of the rules.
Nothing else does.  `Renumbered σ τ c c'` says that the charts are the same but for the numbers of rules and
edges: `τ` leads from the number of each edge to that of its counterpart, and the derivations of the
counterpart are those of the edge with the numbers changed.

The texts of a derivation are settled by the edges that it leads from and to, since a lexer answers the same
whenever it is asked the same: `Step.texts_eq`.

Main statement: **`parse_of_perm`**.  The order of the rules of a grammar makes no difference to a parse, not
even if gaps are filled on the way.
-/

namespace ChartParsing

/-- The derivation with other numbers for its edges. -/
def Derivation.renumber (τ : Nat → Nat) (d : Derivation) : Derivation :=
  ⟨d.base.map τ, d.child.map τ, d.texts⟩

namespace Parser

variable {g g' : Grammar} {σ : Reordering g g'} {strategy : Strategy} {lexer : Lexer} {input : Text}
  {c : Chart g.rules} {c' : Chart g'.rules} {i o : Item g.rules} {f : Option (Item g.rules)}
  {d d' : Derivation} {n m : Nat}

/-! ### Numbers -/

/-- The charts are the same, but for the numbers of rules and edges. -/
structure Renumbered (σ : Reordering g g') (τ : Nat → Nat) (c : Chart g.rules) (c' : Chart g'.rules) :
    Prop where
  /-- Each edge has a counterpart, and is that of one edge only. -/
  bijOn : Set.BijOn τ (Set.Iio c.size) (Set.Iio c'.size)
  /-- It has the same rule, dot, start and end. -/
  item : ∀ n i, c.item? n = some i → c'.item? (τ n) = some (σ.item i)
  /-- It has the same derivations. -/
  derivations : ∀ n e e', c.edge? n = some e → c'.edge? (τ n) = some e' →
    ∀ d', d' ∈ e'.derivations ↔ ∃ d ∈ e.derivations, d.renumber τ = d'

/-- The number of the edge with the counterpart of an item. -/
def counterpart (σ : Reordering g g') (c : Chart g.rules) (c' : Chart g'.rules) (n : Nat) : Nat :=
  ((c.item? n).bind (fun i => c'.find? (σ.item i))).getD n

theorem counterpart_eq (hw : c'.WellFormed) (hi : c.item? n = some i)
    (hm : c'.item? m = some (σ.item i)) : counterpart σ c c' n = m := by
  simp [counterpart, hi, hw.find?_eq_some.2 hm]

theorem map_counterpart (hw : c'.WellFormed) {a b : Option Nat} {x : Option (Item g.rules)}
    (ha : a.map c.item? = x.map some) (hb : b.map c'.item? = (x.map σ.item).map some) :
    a.map (counterpart σ c c') = b := by
  cases x with
  | none =>
      obtain rfl : a = none := by simpa using ha
      obtain rfl : b = none := by simpa using hb
      rfl
  | some i =>
      obtain ⟨n, rfl, hn⟩ := Option.map_eq_some_iff.1 ha
      obtain ⟨m, rfl, hm⟩ := Option.map_eq_some_iff.1 hb
      rw [Option.map_some, counterpart_eq hw hn hm]

theorem textsOver_item : textsOver lexer input (σ.item o) (σ.item i) = textsOver lexer input o i := by
  simp [textsOver]

/-- Derivations between counterparts are the same but for the numbers. -/
theorem renumber_eq (hw : c'.WellFormed) (h : Step strategy lexer input c i d)
    (h' : Step strategy lexer input c' (σ.item i) d') (hm : d.Moves c o f)
    (hm' : d'.Moves c' (σ.item o) (f.map σ.item)) : d.renumber (counterpart σ c c') = d' := by
  have htexts : d.texts = d'.texts := by
    rw [h.texts_eq hm, h'.texts_eq hm', textsOver_item, Option.isSome_map]
  have hbase : d.base.map (counterpart σ c c') = d'.base :=
    map_counterpart hw (x := some o) hm.base hm'.base
  have hchild : d.child.map (counterpart σ c c') = d'.child := map_counterpart hw hm.child hm'.child
  rw [Derivation.renumber, hbase, hchild, htexts]

/-- **Charts inside each other** are the same but for the numbers. -/
theorem renumbered_of_inside (hr : Running strategy lexer input c)
    (hr' : Running strategy lexer input c') (h : Inside σ c c') (h' : Inside σ.symm c' c) :
    Renumbered σ (counterpart σ c c') c c' := by
  have hitem (n : Nat) (i : Item g.rules) (hi : c.item? n = some i) :
      c'.item? (counterpart σ c c' n) = some (σ.item i) := by
    obtain ⟨m, hm⟩ := h.has ⟨n, hi⟩
    rwa [counterpart_eq hr'.wellFormed hi hm]
  refine ⟨⟨?_, ?_, ?_⟩, hitem, ?_⟩
  · intro n hn
    obtain ⟨i, hi⟩ := Chart.exists_item_of_lt_size hn
    exact Chart.lt_size_of_item? (hitem n i hi)
  · intro n hn m hm heq
    obtain ⟨i, hi⟩ := Chart.exists_item_of_lt_size hn
    obtain ⟨j, hj⟩ := Chart.exists_item_of_lt_size hm
    have hij := (hitem n i hi).symm.trans (heq ▸ hitem m j hj)
    obtain rfl := σ.item_injective (Option.some.inj hij)
    exact hr.wellFormed.unique n m i hi hj
  · intro m hm
    obtain ⟨j, hj⟩ := Chart.exists_item_of_lt_size hm
    obtain ⟨n, hn⟩ := h'.has ⟨m, hj⟩
    exact ⟨n, Chart.lt_size_of_item? hn,
      counterpart_eq hr'.wellFormed hn (by rw [σ.item_symm_item]; exact hj)⟩
  · intro n e e' he he' d'
    have hi : c.item? n = some e.item := Chart.item?_eq_some.2 ⟨e, he, rfl⟩
    have hi' : e'.item = σ.item e.item :=
      Option.some.inj ((Chart.item?_eq_some.2 ⟨e', he', rfl⟩).symm.trans (hitem n _ hi))
    have hstep := hr.built.traced.step n e he
    have hstep' := hr'.built.traced.step _ e' he'
    rw [hi'] at hstep'
    constructor
    · intro hd'
      obtain ⟨o', f', hm', -⟩ := (hstep' d' hd').exists_moves
      obtain ⟨m, x, hx, hxi, d, hd, hm⟩ := (h' _ e' he').2 d' hd' o' f' hm'
      rw [hi', σ.symm_item_item] at hxi
      obtain rfl := hr.wellFormed.unique m n _ (Chart.item?_eq_some.2 ⟨x, hx, hxi⟩) hi
      obtain rfl := Option.some.inj (hx.symm.trans he)
      have hback : d'.Moves c' (σ.item (σ.symm.item o')) ((f'.map σ.symm.item).map σ.item) := by
        simpa [Function.comp_def] using hm'
      exact ⟨d, hd, renumber_eq hr'.wellFormed (hstep d hd) (hstep' d' hd') hm hback⟩
    · rintro ⟨d, hd, rfl⟩
      obtain ⟨o, f, hm, -⟩ := (hstep d hd).exists_moves
      obtain ⟨m, x, hx, hxi, d', hd', hm'⟩ := (h n e he).2 d hd o f hm
      rw [counterpart_eq hr'.wellFormed hi (Chart.item?_eq_some.2 ⟨x, hx, hxi⟩)] at he'
      obtain rfl := Option.some.inj (hx.symm.trans he')
      rwa [renumber_eq hr'.wellFormed (hstep d hd) (hstep' d' hd') hm hm']

/-! ### Whole parses -/

/-- Only filling gaps can fail. -/
theorem Run.eq_none {taken : List Nat} {w : Chart g.rules × Option Failure}
    (h : Run strategy lexer input taken w) (hs : strategy ≠ .bottomUpWithGaps) : w.2 = none := by
  cases h with
  | start => rfl
  | turn _ ht =>
      cases ht with
      | edge _ => rfl
      | gaps _ _ hk => exact absurd hk hs
      | pass _ _ _ => rfl

/-- **Parses with gaps** succeed or fail together, and leave charts inside each other. -/
theorem parse_inside_gaps (σ : Reordering g g') (hl : lexer.Within input) :
    (((new g .bottomUpWithGaps lexer).parse input).2 = none ↔
        ((new g' .bottomUpWithGaps lexer).parse input).2 = none) ∧
      (((new g .bottomUpWithGaps lexer).parse input).2 = none →
        Inside σ (finalChart g .bottomUpWithGaps lexer input)
            (finalChart g' .bottomUpWithGaps lexer input) ∧
          Inside σ.symm (finalChart g' .bottomUpWithGaps lexer input)
            (finalChart g .bottomUpWithGaps lexer input)) := by
  obtain ⟨⟨taken, hrun, hstop⟩, -⟩ := parse_ends (new g .bottomUpWithGaps lexer) input hl
  obtain ⟨⟨taken', hrun', hstop'⟩, -⟩ := parse_ends (new g' .bottomUpWithGaps lexer) input hl
  obtain ⟨k, c, hc, hgo, hok, hchart⟩ := hrun.outcome hstop
  obtain ⟨k', c', hc', hgo', hok', hchart'⟩ := hrun'.outcome hstop'
  obtain rfl := hc.last_eq hgo hc' hgo' σ
  have hin : InStep σ c c' := hc.inStep hc'
  have hiff : c.deferred = [] ↔ c'.deferred = [] :=
    not_iff_not.1 ⟨hin.deferred_ne_nil hc hc', hin.symm.deferred_ne_nil hc' hc⟩
  have hboth := hok.trans (hiff.trans hok'.symm)
  refine ⟨hboth, fun h => ?_⟩
  have h₁ : finalChart g .bottomUpWithGaps lexer input = c := hchart h
  have h₂ : finalChart g' .bottomUpWithGaps lexer input = c' := hchart' (hboth.1 h)
  rw [h₁, h₂]
  exact ⟨hin.inside, hin.back⟩

/-- **Parses without gaps** succeed, and leave charts inside each other. -/
theorem parse_inside (σ : Reordering g g') (hs : strategy ≠ .bottomUpWithGaps)
    (hl : lexer.Within input) : ((new g strategy lexer).parse input).2 = none ∧
      Inside σ (finalChart g strategy lexer input) (finalChart g' strategy lexer input) := by
  have hok (g : Grammar) : ((new g strategy lexer).parse input).2 = none := by
    obtain ⟨⟨taken, hrun, -⟩, -⟩ := parse_ends (new g strategy lexer) input hl
    exact hrun.eq_none hs
  refine ⟨hok g, ?_⟩
  have hsat := saturated_of_parse (new g' strategy lexer) input (hok g')
  exact (parse_running (new g strategy lexer) input).built.inside hs hsat

/-- **The order of the rules makes no difference.**  Let two grammars have the same rules, in whatever
orders.  With a lexer that stays within the input, and whatever the strategy is, the parses of an input both
succeed or both fail.  If they succeed they leave the same chart but for the numbers of rules and edges: there
are the same edges, and each has the same derivations. -/
theorem parse_of_perm (g g' : Grammar) (strategy : Strategy) (lexer : Lexer) (input : Text)
    (h : g.rules.toList.Perm g'.rules.toList) (hl : lexer.Within input) :
    (((new g strategy lexer).parse input).2 = none ↔
        ((new g' strategy lexer).parse input).2 = none) ∧
      (((new g strategy lexer).parse input).2 = none →
        ∃ (σ : Reordering g g') (τ : Nat → Nat),
          Renumbered σ τ ((new g strategy lexer).parse input).1.chart
            ((new g' strategy lexer).parse input).1.chart) := by
  obtain ⟨σ⟩ := Reordering.nonempty_of_perm h
  have hr := parse_running (new g strategy lexer) input
  have hr' := parse_running (new g' strategy lexer) input
  by_cases hs : strategy = .bottomUpWithGaps
  · subst hs
    obtain ⟨hboth, hin⟩ := parse_inside_gaps σ hl
    exact ⟨hboth, fun hok => ⟨σ, _, renumbered_of_inside hr hr' (hin hok).1 (hin hok).2⟩⟩
  · obtain ⟨hok, hin⟩ := parse_inside σ hs hl
    obtain ⟨hok', hin'⟩ := parse_inside σ.symm hs hl
    exact ⟨iff_of_true hok hok', fun _ => ⟨σ, _, renumbered_of_inside hr hr' hin hin'⟩⟩

/-- The grammar with a gap behind a gap, with its rules the other way round. -/
def nestedReversed : Grammar := ⟨nested.rules.reverse⟩

/-- Both orders of the rules find the same in `x-a-b`, although they begin with different edges. -/
theorem parse_of_perm_nested : nested.rules.toList.Perm nestedReversed.rules.toList ∧
    Lexer.skippingBlanks.Within ['x', '-', 'a', '-', 'b'] ∧
      ((new nestedReversed .bottomUpWithGaps .skippingBlanks).parse
        ['x', '-', 'a', '-', 'b']).2 = none ∧
      (∃ (σ : Reordering nested nestedReversed) (τ : Nat → Nat), Renumbered σ τ nestedChart
        (finalChart nestedReversed .bottomUpWithGaps .skippingBlanks ['x', '-', 'a', '-', 'b'])) ∧
      (nestedChart.item? 0).map Item.lhs = some "S" ∧
      ((finalChart nestedReversed .bottomUpWithGaps .skippingBlanks
        ['x', '-', 'a', '-', 'b']).item? 0).map Item.lhs = some "B" := by
  have hperm : nested.rules.toList.Perm nestedReversed.rules.toList := by
    rw [nestedReversed, Array.toList_reverse]
    exact (List.reverse_perm _).symm
  have hl : Lexer.skippingBlanks.Within ['x', '-', 'a', '-', 'b'] := Lexer.skippingBlanks_within _
  obtain ⟨hboth, hsame⟩ := parse_of_perm nested nestedReversed .bottomUpWithGaps .skippingBlanks
    ['x', '-', 'a', '-', 'b'] hperm hl
  exact ⟨hperm, hl, hboth.1 parse_nested, hsame parse_nested, by decide +kernel, by decide +kernel⟩

end Parser

end ChartParsing
