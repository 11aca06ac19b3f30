import ChartParsing.Proofs.Gaps.Rounds
import ChartParsing.Proofs.Parsing.Moves
import ChartParsing.Proofs.Reordering.Rules

/-!
# What one chart has of another

The charts of two grammars with the same rules number their edges differently, so their derivations are
compared by the items that they refer to.  `Inside σ c c'` says that the chart `c'` has the counterpart of
each edge of `c` with the counterparts of its derivations.

A saturated chart has the counterpart of everything that the steps of a parser add to a chart inside it.  So
what such steps lead to is inside it again, in whatever order they are taken.

* **`Built.inside`**: a whole chart, for the strategies that fill no gaps.
* **`process_inside`**: the turn of an edge that is not in front of a gap.

The additions that fill gaps are left out.  They depend on what the chart has at that time, so a saturated
chart need not have them.
-/

namespace ChartParsing

namespace Parser

variable {g g' : Grammar} {σ : Reordering g g'} {strategy : Strategy} {lexer : Lexer} {input : Text}
  {c d : Chart g.rules} {c' d' : Chart g'.rules} {e : Edge g.rules} {i o : Item g.rules}
  {f : Option (Item g.rules)} {δ : Derivation} {n : Nat}

/-- The second chart has the counterpart of an edge of the first one, with those of its derivations. -/
def Carried (σ : Reordering g g') (c : Chart g.rules) (e : Edge g.rules) (c' : Chart g'.rules) : Prop :=
  c'.Has (σ.item e.item) ∧ ∀ δ ∈ e.derivations, ∀ o f, δ.Moves c o f →
    c'.Follows (σ.item e.item) (σ.item o) (f.map σ.item)

/-- The second chart has the counterparts of all edges of the first one. -/
def Inside (σ : Reordering g g') (c : Chart g.rules) (c' : Chart g'.rules) : Prop :=
  ∀ n e, c.edge? n = some e → Carried σ c e c'

theorem Inside.has (h : Inside σ c c') (hi : c.Has i) : c'.Has (σ.item i) := by
  obtain ⟨n, hn⟩ := hi
  obtain ⟨e, he, rfl⟩ := Chart.item?_eq_some.1 hn
  exact (h n e he).1

theorem Inside.follows (h : Inside σ c c') (hf : c.Follows i o f) :
    c'.Follows (σ.item i) (σ.item o) (f.map σ.item) := by
  obtain ⟨n, e, he, rfl, δ, hδ, hm⟩ := hf
  exact (h n e he).2 δ hδ o f hm

theorem Inside.mono (hc : c'.Extends d') (h : Inside σ c c') : Inside σ c d' :=
  fun n e he => ⟨hc.has (h n e he).1, fun δ hδ o f hm => hc.follows ((h n e he).2 δ hδ o f hm)⟩

/-- Only the edges of a chart count. -/
theorem Inside.of_edges (he : d.edges = c.edges) (h : Inside σ c c') : Inside σ d c' := by
  have hedge (n : Nat) : d.edge? n = c.edge? n := by rw [Chart.edge?, Chart.edge?, he]
  have hitem : d.item? = c.item? := funext fun n => by rw [Chart.item?, Chart.item?, hedge]
  intro n e hn
  obtain ⟨hhas, hfol⟩ := h n e (hedge n ▸ hn)
  refine ⟨hhas, fun δ hδ o f hm => hfol δ hδ o f ⟨?_, ?_⟩⟩
  · rw [← hitem]
    exact hm.base
  · rw [← hitem]
    exact hm.child

/-- **An addition whose edge is carried over** leaves a chart inside. -/
theorem Inside.add (h : Inside σ c c') (hb : Built strategy lexer input c)
    (ha : Addition strategy lexer input c e) (he : Carried σ c e c') (place : Destination) :
    Inside σ (c.add e place).1 c' := by
  have hext := Chart.extends_add c e place
  -- an edge refers to edges from before the addition, so it is carried over as it was
  have hnew (δ : Derivation) (hδ : δ ∈ e.derivations) (o f) (hm : δ.Moves (c.add e place).1 o f) :
      c'.Follows (σ.item e.item) (σ.item o) (f.map σ.item) :=
    he.2 δ hδ o f (hm.of_later hext (fun m hl => (ha.step hb hδ).exists_item hl))
  have hold (n x) (hx : c.edge? n = some x) (δ : Derivation) (hδ : δ ∈ x.derivations) (o f)
      (hm : δ.Moves (c.add e place).1 o f) :
      c'.Follows (σ.item x.item) (σ.item o) (f.map σ.item) :=
    (h n x hx).2 δ hδ o f (hm.of_later hext
      (fun m hl => (hb.traced.step n x hx δ hδ).exists_item hl))
  intro n x hx
  rcases Chart.edge?_add hx with hx' | rfl | ⟨old, ho, hi, rfl⟩
  · exact ⟨(h n x hx').1, hold n x hx'⟩
  · exact ⟨he.1, hnew⟩
  · rw [Carried, Edge.learnAll_item]
    refine ⟨(h n old ho).1, fun δ hδ o f hm => ?_⟩
    rcases Edge.mem_learnAll hδ with hδ | hδ
    · exact hold n old ho δ hδ o f hm
    · rw [hi]
      exact hnew δ hδ o f hm

/-! ### What a saturated chart has -/

theorem Predicts.has_counterpart {r : g.RuleId} {place : Position}
    (hp : Predicts strategy lexer input c r place) (h : Inside σ c c')
    (hs : Saturated strategy lexer input c') : c'.Has (.initial (σ.number r) place) := by
  cases hp with
  | entity hk hr => exact hs.entities hk _ (σ.mem_select.2 hr)
  | seed hk hr hf hx hm =>
      exact hs.seeds hk _ (σ.mem_select.2 hr) _ (by rw [σ.rule_number, hf]) _ hx _ hm
  | empty hk hr => exact hs.empties hk _ (σ.mem_rulesStarting.2 hr)
  | wanted hk hi hw hr =>
      obtain ⟨m, hm⟩ := h.has ⟨_, hi⟩
      exact (hs.handled m _ hm).wanted hk _ (by rw [σ.item_wanted?, hw]) _ (σ.mem_select.2 hr)
  | emptyWanted hk hi hw hr =>
      obtain ⟨m, hm⟩ := h.has ⟨_, hi⟩
      exact (hs.handled m _ hm).emptyWanted hk _ (by rw [σ.item_wanted?, hw]) _
        (σ.mem_emptyRulesFor.2 hr)
  | started hk hi hd hr =>
      obtain ⟨m, hm⟩ := h.has ⟨_, hi⟩
      exact (hs.handled m _ hm).started hk (by rw [σ.item_isReduced, hd]) _
        (by rw [σ.item_lhs]; exact σ.mem_rulesStarting.2 hr)

theorem carried_one (hm : δ.Moves c o f)
    (hf : c'.Follows (σ.item i) (σ.item o) (f.map σ.item)) : Carried σ c ⟨i, [δ]⟩ c' := by
  refine ⟨hf.has, fun δ' hδ' o' f' hm' => ?_⟩
  obtain rfl := List.mem_singleton.1 hδ'
  obtain ⟨rfl, rfl⟩ := hm.unique hm'
  exact hf

/-- **A saturated chart has the counterpart of each addition** to a chart inside it, unless a gap is
filled. -/
theorem Addition.carried (ha : Addition strategy lexer input c e) (h : Inside σ c c')
    (hs : Saturated strategy lexer input c') : Carried σ c e c' ∨
      ∃ base o texts, e.derivations = [⟨some base, none, texts⟩] ∧ c.item? base = some o ∧
        o.isAtGap = true := by
  cases ha with
  | predicted hp => exact .inl ⟨hp.has_counterpart h hs, by simp⟩
  | @joined base child o f ho hf ht =>
      obtain ⟨b, hb⟩ := h.has ⟨_, ho⟩
      obtain ⟨k, hk⟩ := h.has ⟨_, hf⟩
      have hr := hs.joined b k _ _ hb hk (σ.takes_item ht)
      exact .inl (carried_one (o := o) (f := some f) ⟨by simp [ho], by simp [hf]⟩
        (hr.follows hb (by simp [hk])))
  | @scanned base o s p m ho hn hsc hp hm =>
      obtain ⟨b, hb⟩ := h.has ⟨_, ho⟩
      have hr := (hs.handled b _ hb).scanned s (by rw [σ.item_next?, hn]) hsc p hp m hm
      exact .inl (carried_one (o := o) (f := none) ⟨by simp [ho], rfl⟩ (hr.follows hb rfl))
  | @scannedAnywhere base o s x m ho hn hsc hp hx hm =>
      obtain ⟨b, hb⟩ := h.has ⟨_, ho⟩
      have hr := (hs.handled b _ hb).scannedAnywhere s (by rw [σ.item_next?, hn]) hsc hp x hx m hm
      exact .inl (carried_one (o := o) (f := none) ⟨by simp [ho], rfl⟩ (hr.follows hb rfl))
  | @filled base _ o _ _ _ _ m _ ho hg hp _ _ _ _ _ _ =>
      obtain ⟨hn, hfol⟩ := gapAt_eq_ok.1 hg
      have hat : GapEdge c base o _ _ _ := ⟨ho, hn, hfol, hp⟩
      exact .inr ⟨base, o, some m.texts, rfl, ho, hat.isAtGap⟩

/-- **A chart without filled gaps** is inside every saturated one. -/
theorem Built.inside (hne : strategy ≠ .bottomUpWithGaps) (hc : Built strategy lexer input c)
    (hs : Saturated strategy lexer input c') : Inside σ c c' := by
  induction hc with
  | empty => exact fun n e he => absurd he (by simp [Chart.edge?, Chart.empty])
  | add hb ha place ih =>
      refine ih.add hb ha ((ha.carried ih hs).resolve_right ?_) place
      rintro ⟨base, o, texts, hd, ho, hat⟩
      have hstep := ha.step hb (hd ▸ List.mem_singleton_self _)
      exact absurd (hat.symm.trans (hstep.base_notAtGap hne rfl ho)) (by simp)
  | requeue _ he ih => exact ih.of_edges he

/-- Without gaps and predictions less is asked of a chart. -/
theorem Handled.bottomUp (h : Handled .bottomUpWithGaps lexer input c i n) :
    Handled .bottomUp lexer input c i n where
  started _ := h.started rfl
  wanted hk := absurd hk (by simp [Strategy.predictsWanted])
  emptyWanted _ := h.emptyWanted rfl
  scanned := h.scanned
  scannedAnywhere := h.scannedAnywhere

theorem Saturated.bottomUp (hs : Saturated .bottomUpWithGaps lexer input c) :
    Saturated .bottomUp lexer input c where
  entities hk := absurd hk (by simp)
  seeds _ := hs.seeds rfl
  empties _ := hs.empties rfl
  handled n i hi := (hs.handled n i hi).bottomUp
  joined := hs.joined

/-- What a parse with gaps begins with is what one without them begins with. -/
theorem begin_inside (hs : Saturated .bottomUpWithGaps lexer input c') :
    Inside σ (Parser.begin .bottomUpWithGaps lexer input) c' := by
  obtain ⟨hseed, -⟩ := beginBottomUp_spec (g := g) .bottomUp lexer input rfl
  exact hseed.settle.built.inside (by simp) hs.bottomUp

/-- What moves a gap edge was there before growth that moves no gap edge. -/
theorem follows_of_adds (hb : Built strategy lexer input c) (hadds : Chart.Adds NotAtGap c d)
    {base : Nat} (ho : d.item? base = some o) (hat : o.isAtGap = true)
    (hr : d.Records i base none) : c.Follows i o none := by
  obtain ⟨n, e, he, hi, δ, hδ, hbase, hchild⟩ := (hadds.records_iff (not_notAtGap ho hat)).1 hr
  obtain ⟨b, o', hb', ho', -⟩ := (hb.traced.step n e he δ hδ).exists_base
  obtain rfl := Option.some.inj (hb'.symm.trans hbase)
  obtain rfl := Option.some.inj ((hadds.grown.item ho').symm.trans ho)
  exact ⟨n, e, he, hi, δ, hδ, by rw [hbase, Option.map_some, ho'], by rw [hchild]; rfl⟩

/-- **Growth that moves no gap edge** stays inside a saturated chart. -/
theorem Grows.inside (hg : Grows strategy lexer input c d) (hb : Built strategy lexer input c)
    (hadds : Chart.Adds NotAtGap c d) (h : Inside σ c c') (hs : Saturated strategy lexer input c') :
    Inside σ d c' := by
  suffices hall : ∀ x : Chart g.rules, Grows strategy lexer input c x → x.Extends d →
      Inside σ x c' from hall d hg (.refl d)
  intro x hx
  induction hx with
  | refl => exact fun _ => h
  | @add x e hx ha ih =>
      intro hext
      have hext' := (Chart.extends_add x e .agenda).trans hext
      refine (ih hext').add (hx.built hb) ha ?_ .agenda
      rcases ha.carried (ih hext') hs with hc | ⟨base, o, texts, hd, ho, hat⟩
      · exact hc
      · -- the chart had this derivation before anything was added
        have hrec := hext.records (Chart.records_add x .agenda (hd ▸ List.mem_singleton_self _) rfl)
        have hfol := h.follows (follows_of_adds hb hadds (hext'.item ho) hat hrec)
        obtain ⟨i, ds⟩ := e
        obtain rfl := hd
        exact carried_one (o := o) (f := none) ⟨by simp [ho], rfl⟩ hfol

/-- **The turn of an edge** that is not in front of a gap. -/
theorem process_inside (hb : Built strategy lexer input c) (hi : c.item? n = some i)
    (hg : i.isAtGap = false) (h : Inside σ c c') (hs : Saturated strategy lexer input c') :
    Inside σ (process strategy lexer input c n) c' :=
  (process_grows strategy lexer input hi hg).inside hb (process_adds strategy lexer input hi hg) h hs

end Parser

end ChartParsing
