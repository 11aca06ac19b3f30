import ChartParsing.Chart
import Mathlib.Tactic.Common

/-!
# How charts grow

Work on a chart never takes anything back: an edge keeps its number and its item, and the derivations
that it has stay in front of those that it learns later.  `Chart.Extends` is this order, and whatever is
said in terms of `Chart.Has` and `Chart.Records` holds of every later chart too.

`Chart.WellFormed` is what the operations keep of the chart's own bookkeeping.

* No two edges have one item, so `Chart.find?` finds the edge of an item.
* Every number is in exactly one of the lists of processed, coming, staged and deferred edges.
* The deferred edges are those in front of a gap.
* No derivation stands twice with an edge.
-/

namespace ChartParsing

variable {rules : Array Rule}

/-! ### Derivations of one edge -/

theorem Derivation.same_iff (a b : Derivation) :
    a.same b = true ↔ a.base = b.base ∧ a.child = b.child := by
  simp [Derivation.same]

/-- No two of the derivations are the same. -/
def Derivation.Distinct (ds : List Derivation) : Prop :=
  ds.Pairwise (fun a b => a.same b = false)

theorem Derivation.Distinct.eq_of_same {ds : List Derivation} {a b : Derivation}
    (h : Derivation.Distinct ds) (ha : a ∈ ds) (hb : b ∈ ds) (hs : a.same b = true) : a = b := by
  have hs' : b.same a = true := by
    rw [same_iff] at hs ⊢
    exact ⟨hs.1.symm, hs.2.symm⟩
  induction ds with
  | nil => simp at ha
  | cons d ds ih =>
      obtain ⟨hd, hds⟩ := List.pairwise_cons.1 h
      rcases List.mem_cons.1 ha with rfl | ha'
      · rcases List.mem_cons.1 hb with rfl | hb'
        · rfl
        · exact absurd hs (by simp [hd b hb'])
      · rcases List.mem_cons.1 hb with rfl | hb'
        · exact absurd hs' (by simp [hd a ha'])
        · exact ih hds ha' hb'

namespace Edge

@[simp] theorem learn_item (e : Edge rules) (d : Derivation) : (e.learn d).item = e.item := by
  unfold learn
  split <;> rfl

@[simp] theorem learnAll_item (e : Edge rules) (ds : List Derivation) :
    (e.learnAll ds).item = e.item := by
  unfold learnAll
  induction ds generalizing e with
  | nil => rfl
  | cons d ds ih => rw [List.foldl_cons, ih, learn_item]

theorem prefix_learn (e : Edge rules) (d : Derivation) :
    e.derivations <+: (e.learn d).derivations := by
  unfold learn
  split
  · exact List.prefix_refl _
  · exact List.prefix_append _ _

theorem prefix_learnAll (e : Edge rules) (ds : List Derivation) :
    e.derivations <+: (e.learnAll ds).derivations := by
  unfold learnAll
  induction ds generalizing e with
  | nil => exact List.prefix_refl _
  | cons d ds ih => exact (prefix_learn e d).trans (ih (e.learn d))

/-- What an edge learns is known to it afterwards, if not by these texts. -/
theorem exists_same_learn (e : Edge rules) (d : Derivation) :
    ∃ known ∈ (e.learn d).derivations, known.same d = true := by
  unfold learn
  split
  · next h => exact List.any_eq_true.1 h
  · exact ⟨d, by simp, by simp [Derivation.same]⟩

theorem exists_same_learnAll (e : Edge rules) {ds : List Derivation} {d : Derivation}
    (hd : d ∈ ds) : ∃ known ∈ (e.learnAll ds).derivations, known.same d = true := by
  induction ds generalizing e with
  | nil => simp at hd
  | cons x ds ih =>
      rcases List.mem_cons.1 hd with rfl | hd
      · obtain ⟨known, hk, hs⟩ := exists_same_learn e d
        exact ⟨known, (prefix_learnAll (e.learn d) ds).subset hk, hs⟩
      · exact ih (e.learn x) hd

theorem mem_learn {e : Edge rules} {d x : Derivation} (h : x ∈ (e.learn d).derivations) :
    x ∈ e.derivations ∨ x = d := by
  unfold learn at h
  split at h
  · exact .inl h
  · simpa using h

theorem mem_learnAll {e : Edge rules} {ds : List Derivation} {x : Derivation}
    (h : x ∈ (e.learnAll ds).derivations) : x ∈ e.derivations ∨ x ∈ ds := by
  induction ds generalizing e with
  | nil => exact .inl h
  | cons d ds ih =>
      rcases ih (e := e.learn d) h with h | h
      · rcases mem_learn h with h | rfl
        · exact .inl h
        · exact .inr (by simp)
      · exact .inr (List.mem_cons_of_mem _ h)

theorem distinct_learn {e : Edge rules} (d : Derivation) (h : Derivation.Distinct e.derivations) :
    Derivation.Distinct (e.learn d).derivations := by
  unfold learn
  split
  · exact h
  · next hd =>
      refine List.pairwise_append.2 ⟨h, List.pairwise_singleton _ _, ?_⟩
      intro a ha b hb
      obtain rfl := List.mem_singleton.1 hb
      by_contra hs
      exact hd (List.any_eq_true.2 ⟨a, ha, by simpa using hs⟩)

theorem distinct_learnAll {e : Edge rules} (ds : List Derivation)
    (h : Derivation.Distinct e.derivations) : Derivation.Distinct (e.learnAll ds).derivations := by
  unfold learnAll
  induction ds generalizing e with
  | nil => exact h
  | cons d ds ih => exact ih (distinct_learn d h)

end Edge

namespace Chart

variable {c c' c'' : Chart rules} {n : Nat} {i : Item rules} {e : Edge rules}

/-! ### Later charts -/

/-- There is an edge with this item. -/
def Has (c : Chart rules) (i : Item rules) : Prop := ∃ n, c.item? n = some i

/-- There is an edge with this item, and one of its derivations moved the dot of `base` over `child`,
or over a terminal if there is no child. -/
def Records (c : Chart rules) (i : Item rules) (base : Nat) (child : Option Nat) : Prop :=
  ∃ n e, c.edge? n = some e ∧ e.item = i ∧
    ∃ d ∈ e.derivations, d.base = some base ∧ d.child = child

/-- The second chart has all edges of the first one, under their numbers, and all their derivations. -/
def Extends (c c' : Chart rules) : Prop :=
  ∀ n e, c.edge? n = some e →
    ∃ e', c'.edge? n = some e' ∧ e'.item = e.item ∧ e.derivations <+: e'.derivations

theorem Extends.refl (c : Chart rules) : c.Extends c :=
  fun _ e h => ⟨e, h, rfl, List.prefix_refl _⟩

theorem Extends.trans (h : c.Extends c') (h' : c'.Extends c'') : c.Extends c'' := by
  intro n e he
  obtain ⟨e', he', hi, hp⟩ := h n e he
  obtain ⟨e'', he'', hi', hp'⟩ := h' n e' he'
  exact ⟨e'', he'', hi'.trans hi, hp.trans hp'⟩

theorem Extends.of_edges (h : c'.edges = c.edges) : c.Extends c' :=
  fun _ e he => ⟨e, by rw [← he, edge?, edge?, h], rfl, List.prefix_refl _⟩

/-- A row of steps that each keep a property of the chart and reach a lasting goal reaches all goals. -/
theorem foldl_spec {α : Type} {step : Chart rules → α → Chart rules} {list : List α}
    (keep : Chart rules → Prop) (goal : α → Chart rules → Prop)
    (hstep : ∀ c a, a ∈ list → keep c → keep (step c a) ∧ c.Extends (step c a) ∧ goal a (step c a))
    (hmono : ∀ a c₁ c₂, c₁.Extends c₂ → goal a c₁ → goal a c₂) (hc : keep c) :
    keep (list.foldl step c) ∧ c.Extends (list.foldl step c) ∧
      ∀ a ∈ list, goal a (list.foldl step c) := by
  induction list generalizing c with
  | nil => exact ⟨hc, .refl c, by simp⟩
  | cons a list ih =>
      obtain ⟨hk, he, hgoal⟩ := hstep c a (by simp) hc
      obtain ⟨hk', he', hgoal'⟩ := ih (fun c b hb => hstep c b (by simp [hb])) hk
      refine ⟨hk', he.trans he', ?_⟩
      intro b hb
      rcases List.mem_cons.1 hb with rfl | hb
      · exact hmono b _ _ he' hgoal
      · exact hgoal' b hb

theorem item?_eq_some : c.item? n = some i ↔ ∃ e, c.edge? n = some e ∧ e.item = i := by
  simp [item?, Option.map_eq_some_iff]

theorem lt_size_of_edge? (h : c.edge? n = some e) : n < c.size :=
  (Array.getElem?_eq_some_iff.1 h).1

theorem lt_size_of_item? (h : c.item? n = some i) : n < c.size := by
  obtain ⟨e, he, -⟩ := item?_eq_some.1 h
  exact lt_size_of_edge? he

theorem exists_item_of_lt_size (h : n < c.size) : ∃ i, c.item? n = some i :=
  ⟨c.edges[n].item, item?_eq_some.2 ⟨c.edges[n], Array.getElem?_eq_getElem h, rfl⟩⟩

theorem Extends.item (h : c.Extends c') (hn : c.item? n = some i) : c'.item? n = some i := by
  obtain ⟨e, he, rfl⟩ := item?_eq_some.1 hn
  obtain ⟨e', he', hi, -⟩ := h n e he
  exact item?_eq_some.2 ⟨e', he', hi⟩

theorem Extends.has (h : c.Extends c') (hi : c.Has i) : c'.Has i := by
  obtain ⟨n, hn⟩ := hi
  exact ⟨n, h.item hn⟩

theorem Extends.records (h : c.Extends c') {base : Nat} {child : Option Nat}
    (hr : c.Records i base child) : c'.Records i base child := by
  obtain ⟨n, e, he, hi, d, hd, hb, hc⟩ := hr
  obtain ⟨e', he', hi', hp⟩ := h n e he
  exact ⟨n, e', he', hi'.trans hi, d, hp.subset hd, hb, hc⟩

theorem Records.has {base : Nat} {child : Option Nat} (h : c.Records i base child) : c.Has i := by
  obtain ⟨n, e, he, hi, -⟩ := h
  exact ⟨n, item?_eq_some.2 ⟨e, he, hi⟩⟩

theorem Extends.size_le (h : c.Extends c') : c.size ≤ c'.size := by
  by_contra hlt
  obtain ⟨i, hi⟩ := exists_item_of_lt_size (Nat.lt_of_not_le hlt)
  exact absurd (lt_size_of_item? (h.item hi)) (Nat.lt_irrefl _)

/-! ### What adding an edge does -/

@[simp] theorem edges_push (c : Chart rules) (e : Edge rules) (place : Destination) :
    (c.push e place).edges = c.edges.push e := by
  unfold push
  cases place <;> dsimp only <;> split <;> rfl

@[simp] theorem processed_push (c : Chart rules) (e : Edge rules) (place : Destination) :
    (c.push e place).processed = c.processed := by
  unfold push
  cases place <;> dsimp only <;> split <;> rfl

@[simp] theorem size_push (c : Chart rules) (e : Edge rules) (place : Destination) :
    (c.push e place).size = c.size + 1 := by
  simp [size]

theorem edge?_push (c : Chart rules) (e : Edge rules) (place : Destination) (n : Nat) :
    (c.push e place).edge? n = if n = c.size then some e else c.edge? n := by
  unfold edge? size
  rw [edges_push, Array.getElem?_push]

@[simp] theorem size_learn (c : Chart rules) (n : Nat) (ds : List Derivation) :
    (c.learn n ds).size = c.size := by
  simp [learn, size]

theorem edge?_learn (c : Chart rules) (n : Nat) (ds : List Derivation) (m : Nat) :
    (c.learn n ds).edge? m = if n = m then (c.edge? m).map (fun e => e.learnAll ds)
      else c.edge? m := by
  simp [learn, edge?, Array.getElem?_modify]

theorem item?_learn (c : Chart rules) (n : Nat) (ds : List Derivation) (m : Nat) :
    (c.learn n ds).item? m = c.item? m := by
  unfold item?
  rw [edge?_learn]
  split
  · simp [Function.comp_def]
  · rfl

theorem item?_of_find? (h : c.find? i = some n) : c.item? n = some i := by
  obtain ⟨hn, hi, -⟩ := Array.findIdx?_eq_some_iff_getElem.1 h
  exact item?_eq_some.2 ⟨c.edges[n], Array.getElem?_eq_getElem hn, by simpa using hi⟩

theorem item?_ne_of_find? (h : c.find? i = none) (n : Nat) : c.item? n ≠ some i := by
  intro hn
  obtain ⟨e, he, hi⟩ := item?_eq_some.1 hn
  have hmem : e ∈ c.edges := Array.mem_of_getElem? he
  simpa [hi] using Array.findIdx?_eq_none_iff.1 h e hmem

theorem add_of_find? {place : Destination} (h : c.find? e.item = some n) :
    c.add e place = (c.learn n e.derivations, n) := by
  unfold add
  rw [h]

theorem add_of_find?_eq_none {place : Destination} (h : c.find? e.item = none) :
    c.add e place = (c.push e place, c.size) := by
  unfold add
  rw [h]

/-- An edge after an addition was there before, or is the new one, or is the edge of the added item,
which knows the added derivations now. -/
theorem edge?_add {place : Destination} {x : Edge rules}
    (h : (c.add e place).1.edge? n = some x) :
    c.edge? n = some x ∨ x = e ∨
      ∃ old, c.edge? n = some old ∧ old.item = e.item ∧ x = old.learnAll e.derivations := by
  cases hf : c.find? e.item with
  | none =>
      rw [add_of_find?_eq_none hf, edge?_push] at h
      split at h
      · exact .inr (.inl (Option.some.inj h).symm)
      · exact .inl h
  | some k =>
      rw [add_of_find? hf, edge?_learn] at h
      split at h
      · next hk =>
          obtain ⟨old, ho, rfl⟩ := Option.map_eq_some_iff.1 h
          subst hk
          obtain ⟨y, hy, hi⟩ := item?_eq_some.1 (item?_of_find? hf)
          obtain rfl : old = y := Option.some.inj (ho.symm.trans hy)
          exact .inr (.inr ⟨old, ho, hi, rfl⟩)
      · exact .inl h

theorem extends_add (c : Chart rules) (e : Edge rules) (place : Destination) :
    c.Extends (c.add e place).1 := by
  intro n x hx
  cases hf : c.find? e.item with
  | none =>
      have hn : n ≠ c.size := Nat.ne_of_lt (lt_size_of_edge? hx)
      refine ⟨x, ?_, rfl, List.prefix_refl _⟩
      rw [add_of_find?_eq_none hf, edge?_push, if_neg hn, hx]
  | some k =>
      rw [add_of_find? hf]
      by_cases hk : k = n
      · exact ⟨x.learnAll e.derivations, by simp [edge?_learn, hk, hx], by simp,
          Edge.prefix_learnAll _ _⟩
      · exact ⟨x, by rw [edge?_learn, if_neg hk, hx], rfl, List.prefix_refl _⟩

/-- The number that an addition answers is that of the edge with the added item. -/
theorem item?_add (c : Chart rules) (e : Edge rules) (place : Destination) :
    (c.add e place).1.item? (c.add e place).2 = some e.item := by
  cases hf : c.find? e.item with
  | none =>
      rw [add_of_find?_eq_none hf]
      exact item?_eq_some.2 ⟨e, by simp [edge?_push], rfl⟩
  | some k =>
      rw [add_of_find? hf, item?_learn]
      exact item?_of_find? hf

theorem has_add (c : Chart rules) (e : Edge rules) (place : Destination) :
    (c.add e place).1.Has e.item :=
  ⟨_, item?_add c e place⟩

theorem records_add (c : Chart rules) {e : Edge rules} (place : Destination) {d : Derivation}
    {base : Nat} (hd : d ∈ e.derivations) (hb : d.base = some base) :
    (c.add e place).1.Records e.item base d.child := by
  cases hf : c.find? e.item with
  | none =>
      rw [add_of_find?_eq_none hf]
      exact ⟨c.size, e, by simp [edge?_push], rfl, d, hd, hb, rfl⟩
  | some k =>
      rw [add_of_find? hf]
      obtain ⟨old, ho, hi⟩ := item?_eq_some.1 (item?_of_find? hf)
      obtain ⟨known, hk, hs⟩ := Edge.exists_same_learnAll old hd
      obtain ⟨hb', hc⟩ := (Derivation.same_iff known d).1 hs
      exact ⟨k, old.learnAll e.derivations, by simp [edge?_learn, ho], by simp [hi], known, hk,
        hb'.trans hb, hc⟩

theorem records_add_one (c : Chart rules) (i : Item rules) (place : Destination) (base : Nat)
    (child : Option Nat) (texts : Option (List String)) :
    (c.add ⟨i, [⟨some base, child, texts⟩]⟩ place).1.Records i base child :=
  records_add (e := ⟨i, [⟨some base, child, texts⟩]⟩) c place (List.mem_singleton_self _) rfl

@[simp] theorem processed_add (c : Chart rules) (e : Edge rules) (place : Destination) :
    (c.add e place).1.processed = c.processed := by
  unfold add
  split <;> simp [learn]

/-! ### Well-formed charts -/

/-- What the operations keep of a chart's bookkeeping. -/
structure WellFormed (c : Chart rules) : Prop where
  /-- No two edges have one item. -/
  unique : ∀ n m i, c.item? n = some i → c.item? m = some i → n = m
  /-- Every edge is in one list, and there once. -/
  numbered : (c.processed ++ c.agenda ++ c.staged ++ c.deferred).Perm (List.range c.size)
  /-- The deferred edges are in front of gaps. -/
  deferred : ∀ n ∈ c.deferred, ∀ i, c.item? n = some i → i.isAtGap = true
  /-- The edges to come are not. -/
  waiting : ∀ n ∈ c.agenda ++ c.staged, ∀ i, c.item? n = some i → i.isAtGap = false
  /-- No derivation stands twice with an edge. -/
  distinct : ∀ n e, c.edge? n = some e → Derivation.Distinct e.derivations

theorem wellFormed_empty : (empty : Chart rules).WellFormed where
  unique := by intro n m i h; simp [item?, edge?, empty] at h
  numbered := by simp [empty, size]
  deferred := by simp [empty]
  waiting := by simp [empty]
  distinct := by intro n e h; simp [edge?, empty] at h

theorem WellFormed.lt_size (h : c.WellFormed)
    (hn : n ∈ c.processed ++ c.agenda ++ c.staged ++ c.deferred) : n < c.size :=
  List.mem_range.1 (h.numbered.mem_iff.1 hn)

theorem WellFormed.size_not_mem (h : c.WellFormed) :
    c.size ∉ c.processed ++ c.agenda ++ c.staged ++ c.deferred :=
  fun hn => Nat.lt_irrefl _ (h.lt_size hn)

theorem WellFormed.learn (h : c.WellFormed) (n : Nat) (ds : List Derivation) :
    (c.learn n ds).WellFormed where
  unique := by
    intro k m i hk hm
    rw [item?_learn] at hk hm
    exact h.unique k m i hk hm
  numbered := by
    rw [size_learn]
    exact h.numbered
  deferred := by
    intro k hk i hi
    rw [item?_learn] at hi
    exact h.deferred k hk i hi
  waiting := by
    intro k hk i hi
    rw [item?_learn] at hi
    exact h.waiting k hk i hi
  distinct := by
    intro k e he
    rw [edge?_learn] at he
    split at he
    · obtain ⟨old, ho, rfl⟩ := Option.map_eq_some_iff.1 he
      exact Edge.distinct_learnAll ds (h.distinct k old ho)
    · exact h.distinct k e he

/-- Where a new edge goes: behind the deferred ones if it is in front of a gap, and else behind those
of its destination. -/
theorem push_lists (c : Chart rules) (e : Edge rules) (place : Destination) :
    (e.item.isAtGap = true ∧ (c.push e place).agenda = c.agenda ∧
      (c.push e place).staged = c.staged ∧ (c.push e place).deferred = c.deferred ++ [c.size]) ∨
    (e.item.isAtGap = false ∧ place = .agenda ∧ (c.push e place).agenda = c.agenda ++ [c.size] ∧
      (c.push e place).staged = c.staged ∧ (c.push e place).deferred = c.deferred) ∨
    (e.item.isAtGap = false ∧ place = .staged ∧ (c.push e place).agenda = c.agenda ∧
      (c.push e place).staged = c.staged ++ [c.size] ∧ (c.push e place).deferred = c.deferred) := by
  unfold push
  cases hg : e.item.isAtGap <;> cases place <;> simp

theorem item?_push (c : Chart rules) (e : Edge rules) (place : Destination) (n : Nat) :
    (c.push e place).item? n = if n = c.size then some e.item else c.item? n := by
  unfold item?
  rw [edge?_push]
  split <;> rfl

theorem numbered_push (h : c.WellFormed) (e : Edge rules) (place : Destination) :
    ((c.push e place).processed ++ (c.push e place).agenda ++ (c.push e place).staged
      ++ (c.push e place).deferred).Perm (List.range (c.push e place).size) := by
  have hp : (c.size :: (c.processed ++ c.agenda ++ c.staged ++ c.deferred)).Perm
      (List.range (c.size + 1)) := by
    rw [List.range_succ]
    exact (h.numbered.cons c.size).trans (List.perm_append_singleton c.size _).symm
  rw [size_push, processed_push]
  rcases push_lists c e place with ⟨-, ha, hs, hd⟩ | ⟨-, -, ha, hs, hd⟩ | ⟨-, -, ha, hs, hd⟩
  all_goals
    rw [ha, hs, hd]
    refine List.Perm.trans ?_ hp
    grind

theorem WellFormed.push (h : c.WellFormed) (hf : c.find? e.item = none)
    (hd : Derivation.Distinct e.derivations) (place : Destination) :
    (c.push e place).WellFormed where
  unique := by
    intro n m i hn hm
    rw [item?_push] at hn hm
    split at hn <;> split at hm
    · next a b => exact a.trans b.symm
    · exact absurd ((Option.some.inj hn).symm ▸ hm) (item?_ne_of_find? hf m)
    · exact absurd ((Option.some.inj hm).symm ▸ hn) (item?_ne_of_find? hf n)
    · exact h.unique n m i hn hm
  numbered := numbered_push h e place
  deferred := by
    intro n hn i hi
    rw [item?_push] at hi
    split at hi
    · next hs =>
        obtain rfl := Option.some.inj hi
        rcases push_lists c e place with ⟨hg, -⟩ | ⟨-, -, -, -, he⟩ | ⟨-, -, -, -, he⟩
        · exact hg
        · exact absurd (by simp [hs ▸ he ▸ hn]) h.size_not_mem
        · exact absurd (by simp [hs ▸ he ▸ hn]) h.size_not_mem
    · next hs =>
        have hn' : n ∈ c.deferred := by
          rcases push_lists c e place with ⟨-, -, -, he⟩ | ⟨-, -, -, -, he⟩ | ⟨-, -, -, -, he⟩ <;>
            rw [he] at hn
          · simpa [hs] using hn
          · exact hn
          · exact hn
        exact h.deferred n hn' i hi
  waiting := by
    intro n hn i hi
    rw [item?_push] at hi
    split at hi
    · next hs =>
        obtain rfl := Option.some.inj hi
        rcases push_lists c e place with ⟨-, ha, hs', -⟩ | ⟨hg, -⟩ | ⟨hg, -⟩
        · rw [ha, hs', hs, List.mem_append] at hn
          refine absurd ?_ h.size_not_mem
          simp only [List.mem_append]
          tauto
        · exact hg
        · exact hg
    · next hs =>
        have hn' : n ∈ c.agenda ++ c.staged := by
          rcases push_lists c e place with ⟨-, ha, hs', -⟩ | ⟨-, -, ha, hs', -⟩ | ⟨-, -, ha, hs', -⟩ <;>
            rw [ha, hs'] at hn <;> simp_all
        exact h.waiting n hn' i hi
  distinct := by
    intro n x hx
    rw [edge?_push] at hx
    split at hx
    · obtain rfl := Option.some.inj hx
      exact hd
    · exact h.distinct n x hx

/-- **Adding an edge keeps a chart well-formed.** -/
theorem WellFormed.add (h : c.WellFormed) (hd : Derivation.Distinct e.derivations)
    (place : Destination) : (c.add e place).1.WellFormed := by
  cases hf : c.find? e.item with
  | none =>
      rw [add_of_find?_eq_none hf]
      exact h.push hf hd place
  | some k =>
      rw [add_of_find? hf]
      exact h.learn k e.derivations

theorem extends_settle (c : Chart rules) : c.Extends c.settle := .of_edges rfl

theorem WellFormed.settle (h : c.WellFormed) : c.settle.WellFormed where
  unique := h.unique
  numbered := by
    refine List.Perm.trans ?_ h.numbered
    simp only [Chart.settle]
    grind
  deferred := h.deferred
  waiting := by
    intro n hn i hi
    exact h.waiting n (List.mem_append_left _ (by simpa [Chart.settle] using hn)) i hi
  distinct := h.distinct

/-! ### Taking edges -/

theorem next?_eq_some (h : c.next? = some (n, c')) :
    c.agenda = n :: c'.agenda ∧
      c' = { c with processed := c.processed ++ [n], agenda := c'.agenda } := by
  unfold next? at h
  split at h
  · simp at h
  · next m rest ha =>
      obtain ⟨rfl, rfl⟩ := Prod.mk.inj (Option.some.inj h)
      exact ⟨ha, rfl⟩

theorem next?_eq_none (h : c.next? = none) : c.agenda = [] := by
  unfold next? at h
  split at h
  · assumption
  · simp at h

theorem next?_of_agenda (h : c.agenda = []) : c.next? = none := by
  unfold next?
  rw [h]

theorem hasDeferred_iff : c.hasDeferred = true ↔ c.deferred ≠ [] := by
  simp [hasDeferred]

theorem WellFormed.next? (h : c.WellFormed) (hn : c.next? = some (n, c')) : c'.WellFormed := by
  obtain ⟨ha, he⟩ := next?_eq_some hn
  rw [he]
  refine ⟨h.unique, ?_, h.deferred, ?_, h.distinct⟩
  · refine List.Perm.trans ?_ h.numbered
    rw [ha]
    simp
  · intro m hm i hi
    refine h.waiting m ?_ i hi
    rw [ha]
    simp only [List.mem_append, List.mem_cons] at hm ⊢
    exact hm.imp_left .inr

theorem WellFormed.takeDeferred (h : c.WellFormed) : c.takeDeferred.2.WellFormed where
  unique := h.unique
  numbered := by
    refine List.Perm.trans ?_ h.numbered
    simp only [Chart.takeDeferred]
    grind
  deferred := by simp [Chart.takeDeferred]
  waiting := h.waiting
  distinct := h.distinct

end Chart

end ChartParsing
