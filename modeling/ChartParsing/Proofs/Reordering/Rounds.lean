import ChartParsing.Proofs.Reordering.Inclusion

/-!
# Round by round

With gaps a parse is a row of rounds.  In each of them the agenda is worked off, and then the gaps behind the
deferred edges are filled with what is there at that time.  How far a gap is filled depends on when that is
done, so the charts of two grammars with the same rules are compared at the ends of their rounds.

* `Settled` charts are those in which the agenda of a round is empty.
* `InStep` charts have each other's counterparts, and the same gap edges have had their turn in both of them.

Main statement: **`Settled.inStep`**.  Settled charts of one round are in step, by induction on the rounds.  What
is found in a round is inside the settled chart of the other grammar, since that is saturated.  What the gaps
are filled with is the same, since their targets are.  So both parses have the same number of rounds, and if
filling fails in one of them it fails in the other one: `InStep.goesOn`, **`Settled.last_eq`**.
-/

namespace ChartParsing

namespace Parser

variable {g g' : Grammar} {σ : Reordering g g'} {lexer : Lexer} {input : Text}
  {c c₀ d : Chart g.rules} {c' c₀' : Chart g'.rules} {w : Chart g.rules × Option Failure}
  {i o : Item g.rules} {taken : List Nat} {gap : Gap} {name : String} {j k n p s : Nat}

/-! ### The turns of a round -/

/-- The second chart comes of the first one by turns of edges from the agenda. -/
inductive Works (lexer : Lexer) (input : Text) (c : Chart g.rules) : Chart g.rules → Prop
  | refl : Works lexer input c c
  | turn {n : Nat} {d d' : Chart g.rules} (h : Works lexer input c d) (hn : d.next? = some (n, d')) :
      Works lexer input c (process .bottomUpWithGaps lexer input d' n)

/-- The gap edge with this item has had its turn. -/
def Taken (c : Chart g.rules) (i : Item g.rules) : Prop :=
  ∃ n ∈ c.processed, c.item? n = some i ∧ i.isAtGap = true

/-- At the beginning no gap edge has had its turn. -/
theorem not_taken_begin (i : Item g.rules) :
    ¬ Taken (Parser.begin .bottomUpWithGaps lexer input) i := by
  rintro ⟨n, hn, hi, hat⟩
  exact absurd (hat.symm.trans (not_isAtGap_of_mem_begin hn hi)) (by simp)

theorem Works.running (h : Works lexer input c d) (hc : Running .bottomUpWithGaps lexer input c) :
    Running .bottomUpWithGaps lexer input d ∧ c.Extends d := by
  induction h with
  | refl => exact ⟨hc, .refl c⟩
  | turn _ hn ih =>
      obtain ⟨hr, he⟩ := ih.1.turn hn
      exact ⟨hr, ih.2.trans he⟩

/-- **What a round finds** is inside every saturated chart that has what it begins with. -/
theorem Works.inside (h : Works lexer input c d) (hc : Running .bottomUpWithGaps lexer input c)
    (hin : Inside σ c c') (hs : Saturated .bottomUpWithGaps lexer input c') : Inside σ d c' := by
  induction h with
  | refl => exact hin
  | @turn n d d' hw hn ih =>
      have hr := (hw.running hc).1
      obtain ⟨i, hi, hg⟩ := hr.exists_next hn
      have he : d'.edges = d.edges := by rw [(Chart.next?_eq_some hn).2]
      exact process_inside (.requeue hr.built he) hi hg (ih.of_edges he) hs

/-- The turn of another edge is no turn of a gap edge. -/
theorem Works.taken_iff (h : Works lexer input c d) (hc : Running .bottomUpWithGaps lexer input c) :
    Taken d i ↔ Taken c i := by
  induction h with
  | refl => exact Iff.rfl
  | @turn n d d' hw hn ih =>
      have hr := (hw.running hc).1
      obtain ⟨j, hj, hg⟩ := hr.exists_next hn
      have hgr := process_grows .bottomUpWithGaps lexer input hj hg
      have hproc : (process .bottomUpWithGaps lexer input d' n).processed = d.processed ++ [n] := by
        rw [hgr.processed, (Chart.next?_eq_some hn).2]
      have hext := (hr.turn hn).2
      rw [← ih]
      constructor
      · rintro ⟨m, hm, hi, hat⟩
        rw [hproc] at hm
        rcases List.mem_append.1 hm with hm | hm
        · obtain ⟨i', hi'⟩ :=
            Chart.exists_item_of_lt_size (hr.wellFormed.lt_size (n := m) (by simp [hm]))
          obtain rfl := Option.some.inj ((hext.item hi').symm.trans hi)
          exact ⟨m, hm, hi', hat⟩
        · obtain rfl := List.mem_singleton.1 hm
          obtain rfl := Option.some.inj ((hgr.extends.item hj).symm.trans hi)
          exact absurd (hat.symm.trans hg) (by simp)
      · rintro ⟨m, hm, hi, hat⟩
        exact ⟨m, by simp [hproc, hm], hext.item hi, hat⟩

/-! ### Rounds -/

/-- Fills the gaps behind the deferred edges. -/
def fillDeferred (input : Text) (c : Chart g.rules) : Chart g.rules × Option Failure :=
  fillGaps input c.takeDeferred.2 c.takeDeferred.1

/-- There are gaps to be filled, and that succeeds. -/
def GoesOn (input : Text) (c : Chart g.rules) : Prop :=
  c.deferred ≠ [] ∧ (fillDeferred input c).2 = none

/-- The charts with which the rounds begin, by their number. -/
inductive Opens (lexer : Lexer) (input : Text) : Nat → Chart g.rules → Prop
  | first : Opens lexer input 0 (begin .bottomUpWithGaps lexer input)
  | fill {k : Nat} {c d : Chart g.rules} (h : Opens lexer input k c) (hw : Works lexer input c d)
      (ha : d.agenda = []) (hd : GoesOn input d) :
      Opens lexer input (k + 1) (fillDeferred input d).1

/-- The chart at the end of a round, when its agenda is empty. -/
def Settled (lexer : Lexer) (input : Text) (k : Nat) (c : Chart g.rules) : Prop :=
  ∃ c₀, Opens lexer input k c₀ ∧ Works lexer input c₀ c ∧ c.agenda = []

theorem Works.run (h : Works lexer input c d)
    (hc : ∃ taken, Run .bottomUpWithGaps lexer input taken (c, none)) :
    ∃ taken, Run .bottomUpWithGaps lexer input taken (d, none) := by
  induction h with
  | refl => exact hc
  | turn _ hn ih =>
      obtain ⟨taken, hrun⟩ := ih
      exact ⟨_, hrun.turn (.edge hn)⟩

/-- Rounds are what a parse comes to. -/
theorem Opens.run (h : Opens lexer input k c) :
    ∃ taken, Run .bottomUpWithGaps lexer input taken (c, none) := by
  induction h with
  | first => exact ⟨[], .start⟩
  | @fill k c d _ hw ha hd ih =>
      obtain ⟨taken, hrun⟩ := hw.run ih
      have ht : Turn .bottomUpWithGaps lexer input d d.takeDeferred.1 (fillDeferred input d) :=
        .gaps (Chart.next?_of_agenda ha) (Chart.hasDeferred_iff.2 hd.1) rfl
      exact ⟨_, (Prod.ext rfl hd.2 : fillDeferred input d = (_, none)) ▸ hrun.turn ht⟩

theorem Opens.running (h : Opens lexer input k c) : Running .bottomUpWithGaps lexer input c := by
  obtain ⟨taken, hrun⟩ := h.run
  exact hrun.running.1

theorem Settled.run (h : Settled lexer input k c) :
    ∃ taken, Run .bottomUpWithGaps lexer input taken (c, none) := by
  obtain ⟨c₀, ho, hw, -⟩ := h
  exact hw.run ho.run

theorem Settled.running (h : Settled lexer input k c) :
    Running .bottomUpWithGaps lexer input c ∧ Saturated .bottomUpWithGaps lexer input c ∧
      c.agenda = [] := by
  obtain ⟨taken, hrun⟩ := h.run
  obtain ⟨hr, he⟩ := hrun.running
  obtain ⟨-, -, -, ha⟩ := h
  exact ⟨hr, hr.saturated ((begin_spec .bottomUpWithGaps lexer input).2.mono he) ha, ha⟩

/-- Whatever a parse comes to without a failure is in a round. -/
theorem Run.opens (h : Run .bottomUpWithGaps lexer input taken w) (hok : w.2 = none) :
    ∃ k c₀, Opens lexer input k c₀ ∧ Works lexer input c₀ w.1 := by
  induction h with
  | start => exact ⟨0, _, .first, .refl⟩
  | @turn taken more c w _ ht ih =>
      obtain ⟨k, c₀, ho, hw⟩ := ih rfl
      cases ht with
      | edge hn => exact ⟨k, c₀, ho, hw.turn hn⟩
      | gaps hn hd _ =>
          exact ⟨k + 1, _, ho.fill hw (Chart.next?_eq_none hn) ⟨Chart.hasDeferred_iff.1 hd, hok⟩, .refl⟩
      | pass _ _ hs => exact absurd rfl hs

/-- **How a parse ends**: with a round behind which there is no other one, since no gap is left or since
filling them fails. -/
theorem Run.outcome (h : Run .bottomUpWithGaps lexer input taken w)
    (hs : Stopped .bottomUpWithGaps lexer input w) : ∃ k c, Settled lexer input k c ∧
      ¬ GoesOn input c ∧ (w.2 = none ↔ c.deferred = []) ∧ (w.2 = none → w.1 = c) := by
  obtain ⟨c, _ | e⟩ := w
  · obtain ⟨k, c₀, ho, hw⟩ := h.opens rfl
    obtain ⟨ha, hd⟩ := stopped_iff.1 hs
    exact ⟨k, c, ⟨c₀, ho, hw, ha⟩, fun hgo => hgo.1 hd, by simp [hd], fun _ => rfl⟩
  · generalize hw : (c, some e) = w at h
    cases h with
    | start => exact absurd (congrArg Prod.snd hw) (by simp)
    | @turn taken more d w h ht =>
        obtain ⟨k, c₀, ho, hwork⟩ := h.opens rfl
        cases ht with
        | edge hn => exact absurd (congrArg Prod.snd hw) (by simp)
        | gaps hn hd _ =>
            have hfail : (fillDeferred input d).2 = some e := (congrArg Prod.snd hw).symm
            have hnot (h : (fillDeferred input d).2 = none) : False :=
              absurd (hfail.symm.trans h) (by simp)
            exact ⟨k, d, ⟨c₀, ho, hwork, Chart.next?_eq_none hn⟩, fun hgo => hnot hgo.2,
              ⟨fun h => (hnot h).elim, fun h => absurd h (Chart.hasDeferred_iff.1 hd)⟩,
              fun h => (hnot h).elim⟩
        | pass _ _ hs => exact absurd rfl hs

/-- Behind every round that is not the last one there is another one. -/
theorem Settled.earlier (h : Settled lexer input j c) (hk : k < j) :
    ∃ d : Chart g.rules, Settled lexer input k d ∧ GoesOn input d := by
  induction j generalizing c with
  | zero => exact absurd hk (Nat.not_lt_zero k)
  | succ j ih =>
      obtain ⟨c₀, ho, -, -⟩ := h
      cases ho with
      | @fill _ c₁ d ho hw ha hd =>
          have hs : Settled lexer input j d := ⟨c₁, ho, hw, ha⟩
          rcases Nat.lt_succ_iff_lt_or_eq.1 hk with hk | rfl
          · exact ih hs hk
          · exact ⟨d, hs, hd⟩

/-! ### Filling the gaps of a round -/

theorem extends_fillDeferred : c.Extends (fillDeferred input c).1 := by
  have he : c.Extends c.takeDeferred.2 := .of_edges rfl
  exact he.trans (fillGaps_grows .exact input c.takeDeferred.2 c.takeDeferred.1).extends

theorem Settled.built_fill (h : Settled lexer input k c) :
    Built .bottomUpWithGaps lexer input (fillDeferred input c).1 :=
  (fillGaps_grows lexer input c.takeDeferred.2 c.takeDeferred.1).built h.running.1.takeDeferred.built

theorem Settled.exists_item (h : Settled lexer input k c) (hn : n ∈ c.deferred) :
    ∃ i, c.item? n = some i :=
  Chart.exists_item_of_lt_size (h.running.1.wellFormed.lt_size (by simp [hn]))

theorem Settled.fillDeferred_eq_none_iff (h : Settled lexer input k c) :
    (fillDeferred input c).2 = none ↔
      ∀ n ∈ c.deferred, ∀ i, c.item? n = some i → ∃ x, gapAt i = .ok x := by
  refine fillGaps_eq_none_iff (c := c.takeDeferred.2) (fun n hn => ?_)
  obtain ⟨i, hi⟩ := h.exists_item hn
  exact Chart.lt_size_of_item? hi

/-- The edges that are not deferred have had their turn. -/
theorem Settled.deferred_iff (h : Settled lexer input k c) :
    (∃ n ∈ c.deferred, c.item? n = some i) ↔ c.Has i ∧ i.isAtGap = true ∧ ¬ Taken c i := by
  obtain ⟨hr, -, ha⟩ := h.running
  have hnum := hr.numbered ha
  constructor
  · rintro ⟨n, hn, hi⟩
    refine ⟨⟨n, hi⟩, hr.wellFormed.deferred n hn i hi, ?_⟩
    rintro ⟨m, hm, hi', -⟩
    obtain rfl := hr.wellFormed.unique m n i hi' hi
    exact (List.nodup_append.1 (hnum.nodup_iff.2 List.nodup_range)).2.2 m hm m hn rfl
  · rintro ⟨⟨n, hi⟩, hat, hnot⟩
    rcases List.mem_append.1 (hnum.mem_iff.2 (List.mem_range.2 (Chart.lt_size_of_item? hi))) with
      hn | hn
    · exact absurd ⟨n, hn, hi, hat⟩ hnot
    · exact ⟨n, hn, hi⟩

/-- After filling, the gap edges that were there have had their turn. -/
theorem Settled.taken_fill (h : Settled lexer input k c) :
    Taken (fillDeferred input c).1 i ↔ c.Has i ∧ i.isAtGap = true := by
  obtain ⟨hr, -, ha⟩ := h.running
  have hproc : (fillDeferred input c).1.processed = c.processed ++ c.deferred :=
    (fillGaps_grows lexer input c.takeDeferred.2 c.takeDeferred.1).processed
  have hmem (n : Nat) : n ∈ (fillDeferred input c).1.processed ↔ n < c.size := by
    rw [hproc, (hr.numbered ha).mem_iff, List.mem_range]
  constructor
  · rintro ⟨n, hn, hi, hat⟩
    obtain ⟨j, hj⟩ := Chart.exists_item_of_lt_size ((hmem n).1 hn)
    obtain rfl := Option.some.inj ((extends_fillDeferred.item hj).symm.trans hi)
    exact ⟨⟨n, hj⟩, hat⟩
  · rintro ⟨⟨n, hi⟩, hat⟩
    exact ⟨n, (hmem n).2 (Chart.lt_size_of_item? hi), extends_fillDeferred.item hi, hat⟩

/-- **What filling does** with a deferred edge. -/
theorem Settled.records_fill (h : Settled lexer input k c) (hf : (fillDeferred input c).2 = none)
    (hn : n ∈ c.deferred) (ho : GapEdge c n o gap name p) :
    (fillDeferred input c).1.Records (o.step o.start (.offset s)) n none ↔
      Target c gap name p s ∧ (gap.matchSpan? input p s).isSome = true := by
  obtain ⟨hr, -, ha⟩ := h.running
  obtain ⟨taken, hrun⟩ := h.run
  have hfill : fillGaps input c.takeDeferred.2 c.deferred = ((fillDeferred input c).1, none) :=
    Prod.ext rfl hf
  have hnodup := (List.nodup_append.1 ((hr.numbered ha).nodup_iff.2 List.nodup_range)).2.1
  have hunmoved (m : Nat) (hm : m ∈ c.deferred) : c.takeDeferred.2.Unmoved m :=
    (hrun.moved rfl).unmoved_of_deferred hr ha hm
  have he : c.Extends c.takeDeferred.2 := .of_edges rfl
  exact fillGaps_records (c := c.takeDeferred.2) hfill hnodup hunmoved hn (ho.mono he)

/-! ### Charts in step -/

/-- The charts have each other's counterparts, and the same gap edges have had their turn. -/
structure InStep (σ : Reordering g g') (c : Chart g.rules) (c' : Chart g'.rules) : Prop where
  inside : Inside σ c c'
  back : Inside σ.symm c' c
  taken : ∀ i, Taken c i ↔ Taken c' (σ.item i)

theorem InStep.symm (h : InStep σ c c') : InStep σ.symm c' c where
  inside := h.back
  back := h.inside
  taken j := by rw [h.taken, σ.item_symm_item]

theorem InStep.has_iff (h : InStep σ c c') : c.Has i ↔ c'.Has (σ.item i) := by
  refine ⟨h.inside.has, fun hi => ?_⟩
  simpa using h.back.has hi

theorem InStep.deferred_iff (h : InStep σ c c') (hc : Settled lexer input k c)
    (hc' : Settled lexer input k c') : (∃ n ∈ c.deferred, c.item? n = some i) ↔
      ∃ n ∈ c'.deferred, c'.item? n = some (σ.item i) := by
  rw [hc.deferred_iff, hc'.deferred_iff, h.has_iff, h.taken, σ.item_isAtGap]

theorem InStep.starts (h : InStep σ c c') (hs : Starts c gap name p s) : Starts c' gap name p s := by
  obtain ⟨f, hf, hr, hl, hstart, hlt⟩ := hs
  exact ⟨σ.item f, h.inside.has hf, by rw [σ.item_isReduced, hr], by rw [σ.item_lhs, hl], hstart, hlt⟩

theorem InStep.target (h : InStep σ c c') (ht : Target c gap name p s) : Target c' gap name p s :=
  ⟨h.starts ht.1, fun hn s' hs' => ht.2 hn s' (h.symm.starts hs')⟩

theorem InStep.deferred_ne_nil (h : InStep σ c c') (hc : Settled lexer input k c)
    (hc' : Settled lexer input k c') (hd : c.deferred ≠ []) : c'.deferred ≠ [] := by
  obtain ⟨n, hn⟩ := List.exists_mem_of_ne_nil _ hd
  obtain ⟨i, hi⟩ := hc.exists_item hn
  obtain ⟨n', hn', -⟩ := (h.deferred_iff hc hc').1 ⟨n, hn, hi⟩
  exact List.ne_nil_of_mem hn'

/-- **Charts in step go on together.** -/
theorem InStep.goesOn (h : InStep σ c c') (hc : Settled lexer input k c)
    (hc' : Settled lexer input k c') (hgo : GoesOn input c) : GoesOn input c' := by
  refine ⟨h.deferred_ne_nil hc hc' hgo.1, hc'.fillDeferred_eq_none_iff.2 (fun n' hn' i' hi' => ?_)⟩
  obtain ⟨n, hn, hi⟩ := (h.symm.deferred_iff hc' hc).1 ⟨n', hn', hi'⟩
  obtain ⟨⟨gap, name⟩, hgap⟩ := hc.fillDeferred_eq_none_iff.1 hgo.2 n hn _ hi
  exact ⟨_, σ.symm.gapAt_item.1 hgap⟩

/-- The counterpart of a deferred edge is moved over its gap as the edge itself is. -/
theorem InStep.follows_fill (h : InStep σ c c') (hc : Settled lexer input k c)
    (hc' : Settled lexer input k c') (hgo : GoesOn input c) {e : Edge g.rules} {δ : Derivation}
    (he : (fillDeferred input c).1.edge? j = some e) (hδ : δ ∈ e.derivations)
    (hb : δ.base = some n) (hn : n ∈ c.deferred) : ∃ o, δ.Moves (fillDeferred input c).1 o none ∧
      (fillDeferred input c').1.Follows (σ.item e.item) (σ.item o) none := by
  obtain ⟨o, ho⟩ := hc.exists_item hn
  have hat := hc.running.1.wellFormed.deferred n hn o ho
  obtain ⟨-, hchild, gap, name, p, s, -, hedge, hi, -, -⟩ :=
    (hc.built_fill.traced.step j e he δ hδ).of_isAtGap hb (extends_fillDeferred.item ho) hat
  refine ⟨o, ⟨by rw [hb, Option.map_some, extends_fillDeferred.item ho], by rw [hchild]; rfl⟩, ?_⟩
  have hrec : (fillDeferred input c).1.Records (o.step o.start (.offset s)) n none :=
    ⟨j, e, he, hi, δ, hδ, hb, hchild⟩
  obtain ⟨htarget, hm⟩ := (hc.records_fill hgo.2 hn ⟨ho, hedge.next, hedge.following, hedge.stop⟩).1 hrec
  -- the counterpart is deferred too, and has the same targets
  obtain ⟨n', hn', ho'⟩ := (h.deferred_iff hc hc').1 ⟨n, hn, ho⟩
  have hedge' : GapEdge c' n' (σ.item o) gap name p :=
    ⟨ho', by rw [σ.item_next?, hedge.next], by rw [σ.item_following?, hedge.following], hedge.stop⟩
  have hrec' := (hc'.records_fill (h.goesOn hc hc' hgo).2 hn' hedge').2 ⟨h.target htarget, hm⟩
  rw [hi]
  exact hrec'.follows (extends_fillDeferred.item ho') rfl

/-- **What the gaps of charts in step are filled with** is the same. -/
theorem InStep.fill (h : InStep σ c c') (hc : Settled lexer input k c)
    (hc' : Settled lexer input k c') (hgo : GoesOn input c) :
    Inside σ (fillDeferred input c).1 (fillDeferred input c').1 := by
  have htake : Chart.Adds (fun b _ _ => b ∈ c.deferred) c c.takeDeferred.2 := .of_edges rfl
  have hadds : Chart.Adds (fun b _ _ => b ∈ c.deferred) c (fillDeferred input c).1 :=
    htake.trans (fillGaps_adds (Prod.ext rfl hgo.2))
  -- a derivation is one from before, or it is based on an edge that was deferred
  have hall (m : Nat) (e : Edge g.rules) (he : (fillDeferred input c).1.edge? m = some e)
      (δ : Derivation) (hδ : δ ∈ e.derivations) : ∃ o f, δ.Moves (fillDeferred input c).1 o f ∧
        (fillDeferred input c').1.Follows (σ.item e.item) (σ.item o) (f.map σ.item) := by
    rcases hadds.based m e he δ hδ with ⟨e₀, he₀, hδ₀⟩ | ⟨b, -, hb, -, hbd⟩
    · obtain ⟨x, hx, hi, -⟩ := hadds.grown m e₀ he₀
      obtain rfl := Option.some.inj (hx.symm.trans he)
      obtain ⟨o, f, hm, -⟩ := (hc.running.1.built.traced.step m e₀ he₀ δ hδ₀).exists_moves
      rw [hi]
      exact ⟨o, f, hm.mono hadds.grown,
        extends_fillDeferred.follows ((h.inside m e₀ he₀).2 δ hδ₀ o f hm)⟩
    · obtain ⟨o, hm, hfol⟩ := h.follows_fill hc hc' hgo he hδ hb hbd
      exact ⟨o, none, hm, hfol⟩
  intro m e he
  refine ⟨?_, fun δ hδ o f hm => ?_⟩
  · have hhas : (fillDeferred input c).1.Has e.item := ⟨m, Chart.item?_eq_some.2 ⟨e, he, rfl⟩⟩
    rcases fillGaps_has hhas with hi | hdot
    · exact extends_fillDeferred.has (h.inside.has hi)
    · obtain ⟨δ, hδ⟩ := List.exists_mem_of_ne_nil _ (hc.built_fill.derivations_ne_nil he hdot)
      obtain ⟨o, f, -, hfol⟩ := hall m e he δ hδ
      exact hfol.has
  · obtain ⟨o', f', hm', hfol⟩ := hall m e he δ hδ
    obtain ⟨rfl, rfl⟩ := hm.unique hm'
    exact hfol

/-- Charts are in step at the end of a round if each of them has what the other one begins the round with. -/
theorem inStep_of_works (hc : Settled lexer input k c) (hc' : Settled lexer input k c')
    (ho : Opens lexer input k c₀) (ho' : Opens lexer input k c₀') (hw : Works lexer input c₀ c)
    (hw' : Works lexer input c₀' c') (hin : Inside σ c₀ c') (hback : Inside σ.symm c₀' c)
    (ht : ∀ i, Taken c₀ i ↔ Taken c₀' (σ.item i)) : InStep σ c c' where
  inside := hw.inside ho.running hin hc'.running.2.1
  back := hw'.inside ho'.running hback hc.running.2.1
  taken i := by rw [hw.taken_iff ho.running, hw'.taken_iff ho'.running, ht]

/-- **Settled charts of one round are in step.** -/
theorem Settled.inStep (hc : Settled lexer input k c) (hc' : Settled lexer input k c') :
    InStep σ c c' := by
  induction k generalizing c c' with
  | zero =>
      have ⟨c₀, ho, hw, _⟩ := hc
      have ⟨c₀', ho', hw', _⟩ := hc'
      cases ho
      cases ho'
      refine inStep_of_works hc hc' .first .first hw hw' (begin_inside hc'.running.2.1)
        (begin_inside hc.running.2.1) (fun i => ?_)
      exact iff_of_false (not_taken_begin i) (not_taken_begin (σ.item i))
  | succ k ih =>
      have ⟨c₀, ho, hw, _⟩ := hc
      have ⟨c₀', ho', hw', _⟩ := hc'
      have hr := ho.running
      have hr' := ho'.running
      cases ho with
      | @fill _ x d hx hxd ha hd =>
          cases ho' with
          | @fill _ x' d' hx' hxd' ha' hd' =>
              have hs : Settled lexer input k d := ⟨x, hx, hxd, ha⟩
              have hs' : Settled lexer input k d' := ⟨x', hx', hxd', ha'⟩
              have hl : InStep σ d d' := ih hs hs'
              refine inStep_of_works hc hc' (hx.fill hxd ha hd) (hx'.fill hxd' ha' hd') hw hw'
                ((hl.fill hs hs' hd).mono (hw'.running hr').2)
                ((hl.symm.fill hs' hs hd').mono (hw.running hr).2) (fun i => ?_)
              rw [hs.taken_fill, hs'.taken_fill, hl.has_iff, σ.item_isAtGap]

/-! ### The last rounds -/

/-- **Both parses have the same number of rounds.** -/
theorem Settled.last_eq (hc : Settled lexer input k c) (hgo : ¬ GoesOn input c)
    (hc' : Settled lexer input j c') (hgo' : ¬ GoesOn input c') (σ : Reordering g g') : k = j := by
  rcases Nat.lt_trichotomy k j with hlt | rfl | hlt
  · obtain ⟨d', hd', hgo'⟩ := hc'.earlier hlt
    have hl : InStep σ c d' := hc.inStep hd'
    exact absurd (hl.symm.goesOn hd' hc hgo') hgo
  · rfl
  · obtain ⟨d, hd, hgo⟩ := hc.earlier hlt
    have hl : InStep σ d c' := hd.inStep hc'
    exact absurd (hl.goesOn hd hc' hgo) hgo'

end Parser

end ChartParsing
