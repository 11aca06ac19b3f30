import ChartParsing.Proofs.Forest.Unfolding

/-!
# The work on the stack as a recursion

`Forest.descend` unfolds an edge by recursion instead of on a stack of frames, with all that the frames
keep track of: what is known, which edges are being unfolded and at what depth, and where something was
cut.  Histories may lead back to their own edges.  What ends the recursion is that an edge that is being
unfolded is not entered again, so `Forest.free`, the number of edges that are not, gets less on the way
down.

* **`leads_descend`**: the work on the stack comes to what the recursion says, in a number of steps that the
  free edges bound.
* **`expand_eq_descend`**: so `expand` always has steps enough, and answers what the recursion does.
-/

namespace ChartParsing

variable {rules : Array Rule}

/-- What the work on the derivations of an edge has come to: the forest, the lists of arguments found so
far, and the lowest depth at which something was cut. -/
structure Progress (chart : Chart rules) where
  forest : Forest chart
  found : List Arguments
  cut : Option Nat

/-- The work on one derivation of an item, if `ask` unfolds the edges that it refers to. -/
def Progress.take {chart : Chart rules} (ask : Forest chart → Nat → Forest chart × Unfolded)
    (i : Item rules) (p : Progress chart) (d : Derivation) : Progress chart :=
  match d.base with
  | none => p
  | some base =>
      let (f, u) := ask p.forest base
      match d.texts, d.child with
      | some texts, _ =>
          ⟨f, p.found ++ Arguments.product u.expansion.toArguments (match chart.item? base with
            | some o => i.leaves o texts
            | none => []), lowerCut p.cut u.cut⟩
      | none, some child =>
          let (f, v) := ask f child
          ⟨f, p.found ++ Arguments.product u.expansion.toArguments v.expansion.toReadings,
            lowerCut (lowerCut p.cut u.cut) v.cut⟩
      | none, none => ⟨f, p.found, lowerCut p.cut u.cut⟩

namespace Forest

variable {chart : Chart rules} {f f' : Forest chart} {n m k depth : Nat} {i : Item rules}
  {u : Unfolded}

/-- What turning to an edge answers at once, if it does. -/
def answer? (f : Forest chart) (n : Nat) : Option (Forest chart × Unfolded) :=
  match f.known.lookup n, f.active.lookup n, chart.item? n with
  | some e, _, _ => some (f, ⟨e, none⟩)
  | none, some cut, _ => some (f, ⟨nothing chart n, some cut⟩)
  | none, none, none => some (f, ⟨nothing chart n, none⟩)
  | none, none, some i =>
      if i.isPredicted then
        some ({ f with known := (n, i.expansion [[]]) :: f.known }, ⟨i.expansion [[]], none⟩)
      else none

/-- Ends the work on an edge, with what was found of it. -/
def conclude (f : Forest chart) (n depth : Nat) (i : Item rules) (found : List Arguments)
    (cut : Option Nat) : Forest chart × Unfolded :=
  let active := f.active.filter (fun p => p.1 ≠ n)
  if cut.all (fun c => depth ≤ c) then
    (⟨(n, i.expansion found) :: f.known, active⟩, ⟨i.expansion found, none⟩)
  else (⟨f.known, active⟩, ⟨i.expansion found, cut⟩)

/-- Unfolds an edge by recursion, down to this number of edges below each other. -/
def descend : Nat → Forest chart → Nat → Nat → Forest chart × Unfolded
  | 0, f, _, n => (f.answer? n).getD (f, ⟨nothing chart n, none⟩)
  | k + 1, f, depth, n =>
      match f.answer? n, chart.item? n with
      | some a, _ => a
      | none, none => (f, ⟨nothing chart n, none⟩)
      | none, some i =>
          let p := (chart.derivations n).foldl
            (Progress.take (fun f m => descend k f (depth + 1) m) i)
            ⟨{ f with active := (n, depth) :: f.active }, [], none⟩
          p.forest.conclude n depth i p.found p.cut

/-- How many edges are not being unfolded. -/
def free (f : Forest chart) : Nat :=
  ((List.range chart.size).filter (fun n => (f.active.lookup n).isNone)).length

/-! ### Turning to an edge -/

theorem visit_of_answer? {a : Forest chart × Unfolded} (h : f.answer? n = some a)
    (stack : List (Frame rules)) (depth : Nat) : f.visit stack n depth = ⟨a.1, stack, some a.2⟩ := by
  unfold answer? at h
  unfold visit
  cases hk : f.known.lookup n with
  | some e =>
      rw [hk] at h
      obtain rfl := Option.some.inj h
      rfl
  | none =>
      rw [hk] at h
      cases ha : f.active.lookup n with
      | some cut =>
          rw [ha] at h
          obtain rfl := Option.some.inj h
          rfl
      | none =>
          rw [ha] at h
          cases hi : chart.item? n with
          | none =>
              rw [hi] at h
              obtain rfl := Option.some.inj h
              rfl
          | some i =>
              rw [hi] at h
              dsimp only at h ⊢
              by_cases hp : i.isPredicted = true
              · rw [if_pos hp] at h ⊢
                obtain rfl := Option.some.inj h
                rfl
              · rw [if_neg hp] at h
                exact absurd h (by simp)

/-- An edge that has to be unfolded is not known, not being unfolded, and not one with the dot in front. -/
theorem answer?_eq_none (h : f.answer? n = none) : f.known.lookup n = none ∧
    f.active.lookup n = none ∧ ∃ i, chart.item? n = some i ∧ i.isPredicted = false := by
  unfold answer? at h
  split at h
  · simp at h
  · simp at h
  · simp at h
  · next i hk ha hi =>
      split at h
      · simp at h
      · next hp => exact ⟨hk, ha, i, hi, by simpa using hp⟩

theorem visit_of_item (h : f.answer? n = none) (hi : chart.item? n = some i)
    (stack : List (Frame rules)) (depth : Nat) : f.visit stack n depth =
      ⟨{ f with active := (n, depth) :: f.active },
        ⟨n, i, depth, chart.derivations n, none, [], none⟩ :: stack, none⟩ := by
  obtain ⟨hknown, hactive, i', hi', hp⟩ := answer?_eq_none h
  obtain rfl := Option.some.inj (hi.symm.trans hi')
  unfold visit
  rw [hknown, hactive, hi]
  dsimp only
  rw [if_neg (by simp [hp])]

theorem active_of_answer? {a : Forest chart × Unfolded} (h : f.answer? n = some a) :
    a.1.active = f.active := by
  unfold answer? at h
  split at h
  · obtain rfl := Option.some.inj h
    rfl
  · obtain rfl := Option.some.inj h
    rfl
  · obtain rfl := Option.some.inj h
    rfl
  · split at h
    · obtain rfl := Option.some.inj h
      rfl
    · simp at h

theorem finish_eq_conclude (f : Forest chart) (n depth : Nat) (i : Item rules)
    (pending : List Derivation) (bases : Option (List Arguments)) (found : List Arguments)
    (cut : Option Nat) (rest : List (Frame rules)) :
    f.finish ⟨n, i, depth, pending, bases, found, cut⟩ rest =
      ⟨(f.conclude n depth i found cut).1, rest, some (f.conclude n depth i found cut).2⟩ := by
  unfold finish conclude
  dsimp only
  split <;> rfl

/-- When the work on an edge ends, only the edge itself is not being unfolded any more. -/
theorem active_conclude {active : List (Nat × Nat)} (ha : f.active = (n, depth) :: active)
    (hn : active.lookup n = none) (i : Item rules) (found : List Arguments) (cut : Option Nat) :
    (f.conclude n depth i found cut).1.active = active := by
  have hfilter : f.active.filter (fun p => p.1 ≠ n) = active := by
    rw [ha, List.filter_cons_of_neg (by simp), List.filter_eq_self]
    intro p hp
    have hne : (n == p.1) = false := by
      simpa using List.lookup_eq_none_iff.1 hn p hp
    rw [beq_eq_false_iff_ne] at hne
    exact decide_eq_true (Ne.symm hne)
  unfold conclude
  dsimp only
  split <;> exact hfilter

/-- An edge that is entered is not free any more. -/
theorem free_enter_lt (hn : f.active.lookup n = none) (hlt : n < chart.size) (depth : Nat) :
    (⟨f.known, (n, depth) :: f.active⟩ : Forest chart).free < f.free := by
  have hfilter : (List.range chart.size).filter
      (fun m => (((n, depth) :: f.active).lookup m).isNone) =
      ((List.range chart.size).filter (fun m => (f.active.lookup m).isNone)).filter
        (fun m => m != n) := by
    rw [List.filter_filter]
    refine List.filter_congr (fun m _ => ?_)
    rw [List.lookup_cons]
    cases hm : m == n <;> simp [bne, hm]
  unfold free
  rw [hfilter, List.length_filter_lt_length_iff_exists]
  exact ⟨n, List.mem_filter.2 ⟨List.mem_range.2 hlt, by simp [hn]⟩, by simp⟩

theorem free_of_active (h : f'.active = f.active) : f'.free = f.free := by
  unfold free
  rw [h]

/-! ### The work on the stack -/

/-- Turning to any edge comes to what the recursion says, in less than this number of steps, if no more
than `k` edges are free. -/
def Descends (chart : Chart rules) (k bound : Nat) : Prop :=
  ∀ (f : Forest chart) (stack : List (Frame rules)) (depth n : Nat), f.free ≤ k →
    (∃ steps < bound, Unfolding.Leads steps (f.visit stack n depth)
      ⟨(f.descend k depth n).1, stack, some (f.descend k depth n).2⟩) ∧
    (f.descend k depth n).1.active = f.active

variable {bound : Nat} {p : Progress chart}

/-- The work of a frame on one derivation. -/
theorem take_leads (h : Descends chart k bound) (hp : p.forest.free ≤ k) (n depth : Nat)
    (i : Item rules) (rest : List (Frame rules)) (d : Derivation) (ds : List Derivation) :
    (∃ steps ≤ 2 * bound, Unfolding.Leads steps
      (Unfolding.resume p.forest ⟨n, i, depth, d :: ds, none, p.found, p.cut⟩ rest)
      (Unfolding.resume (p.take (fun f m => f.descend k (depth + 1) m) i d).forest
        ⟨n, i, depth, ds, none, (p.take (fun f m => f.descend k (depth + 1) m) i d).found,
          (p.take (fun f m => f.descend k (depth + 1) m) i d).cut⟩ rest)) ∧
    (p.take (fun f m => f.descend k (depth + 1) m) i d).forest.active = p.forest.active := by
  obtain ⟨base, child, texts⟩ := d
  cases base with
  | none =>
      refine ⟨⟨0, Nat.zero_le _, ?_⟩, rfl⟩
      rw [Unfolding.resume_skip]
      exact .refl _
  | some base =>
      obtain ⟨⟨k₁, hk₁, hl₁⟩, ha₁⟩ := h p.forest
        (⟨n, i, depth, ⟨some base, child, texts⟩ :: ds, none, p.found, p.cut⟩ :: rest)
        (depth + 1) base hp
      have hstep₁ := hl₁.trans (Unfolding.leads_receive _ _ _ _)
      cases texts with
      | some texts =>
          refine ⟨⟨k₁ + 1, by omega, ?_⟩, ha₁⟩
          have htexts := Unfolding.resume_texts (p.forest.descend k (depth + 1) base).1 n depth base i
            (lowerCut p.cut (p.forest.descend k (depth + 1) base).2.cut) child texts ds p.found
            (p.forest.descend k (depth + 1) base).2.expansion.toArguments rest
          exact htexts ▸ hstep₁
      | none =>
          cases child with
          | none =>
              refine ⟨⟨k₁ + 1, by omega, ?_⟩, ha₁⟩
              have hnothing := Unfolding.resume_nothing (p.forest.descend k (depth + 1) base).1 n
                depth base i (lowerCut p.cut (p.forest.descend k (depth + 1) base).2.cut) ds p.found
                (p.forest.descend k (depth + 1) base).2.expansion.toArguments rest
              exact hnothing ▸ hstep₁
          | some child =>
              obtain ⟨⟨k₂, hk₂, hl₂⟩, ha₂⟩ := h (p.forest.descend k (depth + 1) base).1
                (⟨n, i, depth, ⟨some base, some child, none⟩ :: ds,
                  some (p.forest.descend k (depth + 1) base).2.expansion.toArguments, p.found,
                  lowerCut p.cut (p.forest.descend k (depth + 1) base).2.cut⟩ :: rest)
                (depth + 1) child (by rw [free_of_active ha₁]; exact hp)
              have hstep₂ := hl₂.trans (Unfolding.leads_receive _ _ _ _)
              exact ⟨⟨k₁ + 1 + (k₂ + 1), by omega, hstep₁.trans hstep₂⟩, ha₂.trans ha₁⟩

/-- The work of a frame on all its derivations. -/
theorem foldl_take_leads (h : Descends chart k bound) (hp : p.forest.free ≤ k) (n depth : Nat)
    (i : Item rules) (rest : List (Frame rules)) (ds : List Derivation) :
    (∃ steps ≤ 2 * ds.length * bound, Unfolding.Leads steps
      (Unfolding.resume p.forest ⟨n, i, depth, ds, none, p.found, p.cut⟩ rest)
      ((ds.foldl (Progress.take (fun f m => f.descend k (depth + 1) m) i) p).forest.finish
        ⟨n, i, depth, [], none, (ds.foldl (Progress.take (fun f m => f.descend k (depth + 1) m) i)
          p).found, (ds.foldl (Progress.take (fun f m => f.descend k (depth + 1) m) i) p).cut⟩
        rest)) ∧
    (ds.foldl (Progress.take (fun f m => f.descend k (depth + 1) m) i) p).forest.active =
      p.forest.active := by
  induction ds generalizing p with
  | nil => exact ⟨⟨0, Nat.zero_le _, .refl _⟩, rfl⟩
  | cons d ds ih =>
      obtain ⟨⟨k₁, hk₁, hl₁⟩, ha₁⟩ := take_leads h hp n depth i rest d ds
      obtain ⟨⟨k₂, hk₂, hl₂⟩, ha₂⟩ := ih (by rw [free_of_active ha₁]; exact hp)
      have hlen : 2 * (d :: ds).length * bound = 2 * ds.length * bound + 2 * bound := by
        rw [List.length_cons, Nat.mul_succ, Nat.add_mul]
      exact ⟨⟨k₁ + k₂, by omega, hl₁.trans hl₂⟩, ha₂.trans ha₁⟩

theorem descend_of_answer? {a : Forest chart × Unfolded} (h : f.answer? n = some a)
    (k depth : Nat) : f.descend k depth n = a := by
  cases k with
  | zero =>
      unfold descend
      rw [h]
      rfl
  | succ k =>
      unfold descend
      rw [h]

/-- The equation of the recursion, for an edge that has to be unfolded. -/
theorem descend_of_item (h : f.answer? n = none) (hi : chart.item? n = some i) (k depth : Nat) :
    f.descend (k + 1) depth n =
      let p := (chart.derivations n).foldl
        (Progress.take (fun f m => f.descend k (depth + 1) m) i)
        ⟨{ f with active := (n, depth) :: f.active }, [], none⟩
      p.forest.conclude n depth i p.found p.cut := by
  conv_lhs => unfold descend
  rw [h, hi]

/-- If an edge has to be unfolded some edge is free. -/
theorem free_pos (h : f.answer? n = none) : 0 < f.free := by
  obtain ⟨-, hactive, i, hi, -⟩ := answer?_eq_none h
  exact Nat.lt_of_le_of_lt (Nat.zero_le _) (free_enter_lt hactive (Chart.lt_size_of_item? hi) 0)

/-- **The work on the stack is the recursion**, whatever leads back to what. -/
theorem leads_descend (chart : Chart rules) (k : Nat) :
    Descends chart k (Nat.pow (2 * derivationCount chart + 2) (k + 1)) := by
  induction k with
  | zero =>
      intro f stack depth n hfree
      cases ha : f.answer? n with
      | none => exact absurd (free_pos ha) (by omega)
      | some a =>
          rw [descend_of_answer? ha, visit_of_answer? ha]
          exact ⟨⟨0, Nat.one_le_pow _ _ (by omega), .refl _⟩, active_of_answer? ha⟩
  | succ k ih =>
      intro f stack depth n hfree
      cases ha : f.answer? n with
      | some a =>
          rw [descend_of_answer? ha, visit_of_answer? ha]
          exact ⟨⟨0, Nat.one_le_pow _ _ (by omega), .refl _⟩, active_of_answer? ha⟩
      | none =>
          obtain ⟨-, hactive, i, hi, -⟩ := answer?_eq_none ha
          have hless := free_enter_lt hactive (Chart.lt_size_of_item? hi) depth
          obtain ⟨⟨steps, hsteps, hl⟩, hact⟩ := foldl_take_leads ih
            (p := ⟨{ f with active := (n, depth) :: f.active }, [], none⟩)
            (by dsimp only; omega) n depth i stack (chart.derivations n)
          rw [descend_of_item ha hi, visit_of_item ha hi]
          rw [finish_eq_conclude] at hl
          have hlen : 2 * (chart.derivations n).length *
              Nat.pow (2 * derivationCount chart + 2) (k + 1) ≤
                2 * derivationCount chart * Nat.pow (2 * derivationCount chart + 2) (k + 1) :=
            Nat.mul_le_mul_right _ (Nat.mul_le_mul_left 2 (Chart.length_derivations_le chart n))
          have hbound := mul_pow_add_two_le chart (k + 1)
          exact ⟨⟨1 + steps, by omega, (Unfolding.leads_resume _ _ _).trans hl⟩,
            active_conclude hact hactive i _ _⟩

theorem free_le_size (f : Forest chart) : f.free ≤ chart.size := by
  have hle := List.length_filter_le (fun n => (f.active.lookup n).isNone) (List.range chart.size)
  rwa [List.length_range] at hle

/-- However an edge is unfolded, the frames are gone before the steps are. -/
theorem run_visit (f : Forest chart) (n : Nat) : (f.visit [] n 0).run (Forest.steps chart) =
    ⟨(f.descend chart.size 0 n).1, [], some (f.descend chart.size 0 n).2⟩ := by
  obtain ⟨⟨steps, hsteps, hl⟩, -⟩ := leads_descend chart chart.size f [] 0 n f.free_le_size
  have hle : steps ≤ Forest.steps chart := by
    have hpow : Nat.pow (2 * derivationCount chart + 2) (chart.size + 1) ≤ Forest.steps chart :=
      Nat.pow_le_pow_right (by omega) (by omega)
    omega
  obtain ⟨fuel, hfuel⟩ := Nat.exists_eq_add_of_le hle
  rw [hfuel]
  refine (hl fuel).trans ?_
  cases fuel with
  | zero => rfl
  | succ fuel => rfl

/-- **Steps are never wanting.**  Unfolding an edge ends on every chart, with what the recursion says. -/
theorem expand_eq_descend (f : Forest chart) (n : Nat) :
    f.expand n = ((f.descend chart.size 0 n).1, (f.descend chart.size 0 n).2.expansion) := by
  unfold expand
  rw [run_visit]

/-- Unfolding an edge leaves the edges alone that are being unfolded. -/
theorem active_expand (f : Forest chart) (n : Nat) : (f.expand n).1.active = f.active := by
  rw [expand_eq_descend]
  exact (leads_descend chart chart.size f [] 0 n f.free_le_size).2

end Forest

end ChartParsing
