import ChartParsing.Proofs.Forest.Descent

/-!
# What edges yield

`Chart.Yields` says which lists of arguments can be had from an edge by following derivations that count,
in whatever way they lead back to each other.  A forest that cuts and keeps what it finds may leave out
some of them, but it makes none up.

Main statement: **`exists_yields_of_mem_resultsOfAll`**.  Each result is the reading of a finished edge over
arguments that the edge yields.
-/

namespace ChartParsing

variable {rules : Array Rule}

namespace Chart

/-- The arguments can be had from the edge along derivations that count. -/
inductive Yields (c : Chart rules) : Nat → Arguments → Prop
  /-- With the dot in front there are no arguments yet. -/
  | start {n : Nat} {i : Item rules} (hi : c.item? n = some i) (hdot : i.isPredicted = true) :
      Yields c n []
  /-- A derivation over a terminal puts one of its texts behind what its open edge yields. -/
  | leaf {n base : Nat} {i o : Item rules} {d : Derivation} {texts : List String} {text : String}
      {args : Arguments} (hi : c.item? n = some i) (hd : d ∈ c.derivations n)
      (hb : d.base = some base) (ht : d.texts = some texts) (ho : c.item? base = some o)
      (hmem : text ∈ texts) (h : Yields c base args) :
      Yields c n (args ++ [.leaf text (o.stop.orElse i.start) i.stop])
  /-- Another derivation puts a reading of its finished edge there. -/
  | child {n base m : Nat} {i f : Item rules} {d : Derivation} {args args' : Arguments}
      (hi : c.item? n = some i) (hd : d ∈ c.derivations n) (hb : d.base = some base)
      (hc : d.child = some m) (hf : c.item? m = some f) (hr : f.isReduced = true)
      (h : Yields c base args) (h' : Yields c m args') : Yields c n (args ++ [f.reading args'])

/-- An edge unfolds into nothing but what it yields. -/
structure Explains (c : Chart rules) (n : Nat) (e : Expansion) : Prop where
  arguments : ∀ args ∈ e.toArguments, c.Yields n args
  readings : ∀ r ∈ e.toReadings, ∃ i args, c.item? n = some i ∧ i.isReduced = true ∧
    c.Yields n args ∧ r = i.reading args

variable {c : Chart rules} {n : Nat} {i : Item rules}

theorem explains_expansion (hi : c.item? n = some i) {lists : List Arguments}
    (h : ∀ args ∈ lists, c.Yields n args) : c.Explains n (i.expansion lists) := by
  unfold Item.expansion
  by_cases hr : i.isReduced = true
  · rw [if_pos hr]
    refine ⟨by simp [Expansion.toArguments], fun r hmem => ?_⟩
    obtain ⟨args, hargs, rfl⟩ := List.mem_map.1 hmem
    exact ⟨i, args, hi, hr, h args hargs, rfl⟩
  · rw [if_neg hr]
    exact ⟨h, by simp [Expansion.toReadings]⟩

theorem explains_nothing (c : Chart rules) (n : Nat) : c.Explains n (Forest.nothing c n) := by
  unfold Forest.nothing
  cases hi : c.item? n with
  | none => exact ⟨by simp [Expansion.toArguments], by simp [Expansion.toReadings]⟩
  | some i => exact explains_expansion hi (by simp)

end Chart

namespace Forest

variable {chart : Chart rules} {f : Forest chart} {n k depth : Nat} {i : Item rules}

/-- Nothing is known of an edge but what it yields. -/
def Sound (f : Forest chart) : Prop := ∀ n e, f.known.lookup n = some e → chart.Explains n e

theorem sound_new (chart : Chart rules) : (new chart).Sound := by
  intro n e h
  simp [new] at h

theorem Sound.learn (h : f.Sound) {e : Expansion} (he : chart.Explains n e)
    (active : List (Nat × Nat)) : (⟨(n, e) :: f.known, active⟩ : Forest chart).Sound := by
  intro m e' hm
  rw [List.lookup_cons] at hm
  split at hm
  · next hmn =>
      obtain rfl : m = n := by simpa using hmn
      rwa [← Option.some.inj hm]
  · exact h m e' hm

theorem Sound.answer? (h : f.Sound) {a : Forest chart × Unfolded} (ha : f.answer? n = some a) :
    a.1.Sound ∧ chart.Explains n a.2.expansion := by
  unfold Forest.answer? at ha
  split at ha
  · next e hk =>
      obtain rfl := Option.some.inj ha
      exact ⟨h, h n e hk⟩
  · obtain rfl := Option.some.inj ha
    exact ⟨h, Chart.explains_nothing chart n⟩
  · obtain rfl := Option.some.inj ha
    exact ⟨h, Chart.explains_nothing chart n⟩
  · next i hk ha hi =>
      split at ha
      · next hp =>
          obtain rfl := Option.some.inj ha
          have he : chart.Explains n (i.expansion [[]]) :=
            Chart.explains_expansion hi (fun args hargs => List.mem_singleton.1 hargs ▸ .start hi hp)
          exact ⟨h.learn he _, he⟩
      · simp at ha

theorem Sound.conclude (h : f.Sound) (hi : chart.item? n = some i) {found : List Arguments}
    (hfound : ∀ args ∈ found, chart.Yields n args) (depth : Nat) (cut : Option Nat) :
    (f.conclude n depth i found cut).1.Sound ∧
      chart.Explains n (f.conclude n depth i found cut).2.expansion := by
  have he := Chart.explains_expansion hi hfound
  unfold Forest.conclude
  dsimp only
  split
  · exact ⟨h.learn he _, he⟩
  · exact ⟨h, he⟩

end Forest

/-- The work on the derivations of an edge has found nothing but what the edge yields. -/
structure Progress.Sound {chart : Chart rules} (p : Progress chart) (n : Nat) : Prop where
  forest : p.forest.Sound
  found : ∀ args ∈ p.found, chart.Yields n args

/-- Lists of arguments extended by readings. -/
theorem Arguments.mem_product {lists : List Arguments} {readings : List Reading} {args : Arguments} :
    args ∈ Arguments.product lists readings ↔
      ∃ front ∈ lists, ∃ r ∈ readings, front ++ [r] = args := by
  simp [product, extendBy, List.mem_flatMap, List.mem_map]

namespace Forest

variable {chart : Chart rules} {f : Forest chart} {n k depth : Nat} {i : Item rules}

theorem Sound.take {ask : Forest chart → Nat → Forest chart × Unfolded}
    (hask : ∀ f m, f.Sound → (ask f m).1.Sound ∧ chart.Explains m (ask f m).2.expansion)
    (hi : chart.item? n = some i) {d : Derivation} (hd : d ∈ chart.derivations n)
    {p : Progress chart} (hp : p.Sound n) : (p.take ask i d).Sound n := by
  obtain ⟨base, child, texts⟩ := d
  cases base with
  | none => exact hp
  | some base =>
      obtain ⟨hsound, hbase⟩ := hask p.forest base hp.forest
      cases texts with
      | some texts =>
          refine ⟨hsound, fun args hargs => ?_⟩
          rcases List.mem_append.1 hargs with hargs | hargs
          · exact hp.found args hargs
          · obtain ⟨front, hfront, r, hr, rfl⟩ := Arguments.mem_product.1 hargs
            cases ho : chart.item? base with
            | none => simp [ho] at hr
            | some o =>
                rw [ho] at hr
                obtain ⟨text, htext, rfl⟩ := List.mem_map.1 hr
                exact .leaf hi hd rfl rfl ho htext (hbase.arguments front hfront)
      | none =>
          cases child with
          | none => exact ⟨hsound, hp.found⟩
          | some child =>
              obtain ⟨hsound', hchild⟩ := hask _ child hsound
              refine ⟨hsound', fun args hargs => ?_⟩
              rcases List.mem_append.1 hargs with hargs | hargs
              · exact hp.found args hargs
              · obtain ⟨front, hfront, r, hr, rfl⟩ := Arguments.mem_product.1 hargs
                obtain ⟨j, args', hj, hreduced, hyields, rfl⟩ := hchild.readings r hr
                exact .child hi hd rfl rfl hj hreduced (hbase.arguments front hfront) hyields

theorem Sound.foldl_take {ask : Forest chart → Nat → Forest chart × Unfolded}
    (hask : ∀ f m, f.Sound → (ask f m).1.Sound ∧ chart.Explains m (ask f m).2.expansion)
    (hi : chart.item? n = some i) {ds : List Derivation} (hds : ∀ d ∈ ds, d ∈ chart.derivations n)
    {p : Progress chart} (hp : p.Sound n) : (ds.foldl (Progress.take ask i) p).Sound n := by
  induction ds generalizing p with
  | nil => exact hp
  | cons d ds ih =>
      exact ih (fun d' hd' => hds d' (List.mem_cons_of_mem _ hd'))
        (take hask hi (hds d List.mem_cons_self) hp)

/-- The recursion makes nothing up. -/
theorem Sound.descend (h : f.Sound) (k depth n : Nat) : (f.descend k depth n).1.Sound ∧
    chart.Explains n (f.descend k depth n).2.expansion := by
  induction k generalizing f depth n with
  | zero =>
      cases ha : f.answer? n with
      | some a =>
          rw [descend_of_answer? ha]
          exact h.answer? ha
      | none =>
          unfold Forest.descend
          rw [ha]
          exact ⟨h, Chart.explains_nothing chart n⟩
  | succ k ih =>
      cases ha : f.answer? n with
      | some a =>
          rw [descend_of_answer? ha]
          exact h.answer? ha
      | none =>
          obtain ⟨-, -, i, hi, -⟩ := answer?_eq_none ha
          rw [descend_of_item ha hi]
          have hp := foldl_take (fun f m hf => ih (f := f) hf (depth + 1) m) hi (fun d hd => hd)
            (p := ⟨{ f with active := (n, depth) :: f.active }, [], none⟩) ⟨h, by simp⟩
          exact hp.forest.conclude hi hp.found depth _

theorem Sound.expand (h : f.Sound) (n : Nat) :
    (f.expand n).1.Sound ∧ chart.Explains n (f.expand n).2 := by
  rw [expand_eq_descend]
  exact h.descend chart.size 0 n

/-- **Results are made of what edges yield**, whatever leads back to what. -/
theorem exists_yields_of_mem_resultsOfAll (h : f.Sound) {numbers : List Nat} {r : Reading}
    (hr : r ∈ f.resultsOfAll numbers) : ∃ n ∈ numbers, ∃ i args, chart.item? n = some i ∧
      i.isReduced = true ∧ chart.Yields n args ∧ r = i.reading args := by
  induction numbers generalizing f with
  | nil => simp [resultsOfAll] at hr
  | cons n rest ih =>
      obtain ⟨hsound, hexplains⟩ := h.expand n
      rcases List.mem_append.1 hr with hr | hr
      · exact ⟨n, List.mem_cons_self, hexplains.readings r hr⟩
      · obtain ⟨m, hm, hrest⟩ := ih hsound hr
        exact ⟨m, List.mem_cons_of_mem _ hm, hrest⟩

end Forest

end ChartParsing
