import ChartParsing.Chart.Preference
import ChartParsing.Proofs.Chart.Growth
import Mathlib.Data.List.Perm.Subperm

/-!
# Derivations that count

Which of several things are preferred depends on their priorities alone: `mem_preferred`.  Of the
derivations of an edge the preferred ones count for which no other one stands: `mem_derivations`.  They
stay as many as they were or become fewer, and none of them comes twice.
-/

namespace ChartParsing

/-! ### Preferred priorities -/

/-- Several priorities have a greatest one, which is among them. -/
theorem greatest?_cons (p : Int) (list : List Int) :
    ∃ b, greatest? (p :: list) = some b ∧ b ∈ p :: list ∧ ∀ x ∈ p :: list, x ≤ b := by
  induction list generalizing p with
  | nil => exact ⟨p, rfl, by simp, by simp⟩
  | cons q list ih =>
      obtain ⟨b, hb, hmem, hall⟩ := ih (max p q)
      have hmax := hall (max p q) List.mem_cons_self
      refine ⟨b, hb, ?_, ?_⟩
      · rcases List.mem_cons.1 hmem with rfl | hmem
        · rcases Int.le_total p q with hp | hp
          · rw [Int.max_eq_right hp]
            simp
          · rw [Int.max_eq_left hp]
            simp
        · simp [hmem]
      · intro x hx
        rcases List.mem_cons.1 hx with rfl | hx
        · omega
        · rcases List.mem_cons.1 hx with rfl | hx
          · omega
          · exact hall x (List.mem_cons_of_mem _ hx)

/-- The greatest of some priorities is among them, and none of them is greater. -/
theorem greatest?_eq_some {list : List Int} {b : Int} (h : greatest? list = some b) :
    b ∈ list ∧ ∀ x ∈ list, x ≤ b := by
  cases list with
  | nil => simp [greatest?] at h
  | cons p list =>
      obtain ⟨x, hx, hmem, hall⟩ := greatest?_cons p list
      obtain rfl : x = b := Option.some.inj (hx.symm.trans h)
      exact ⟨hmem, hall⟩

theorem greatest?_eq_none {list : List Int} (h : greatest? list = none) : list = [] := by
  cases list with
  | nil => rfl
  | cons p list =>
      obtain ⟨b, hb, -⟩ := greatest?_cons p list
      rw [hb] at h
      simp at h

section Preferred

variable {α : Type} {priority : α → Option Int} {list : List α} {a : α}

/-- **What is preferred** has no priority, or none of the others has a greater one. -/
theorem mem_preferred : a ∈ preferred priority list ↔
    a ∈ list ∧ ∀ b, priority a = some b → ∀ x ∈ list, ∀ y, priority x = some y → y ≤ b := by
  unfold preferred
  cases hg : greatest? (list.filterMap priority) with
  | none =>
      have hnil := List.filterMap_eq_nil_iff.1 (greatest?_eq_none hg)
      refine ⟨fun ha => ⟨ha, fun b hb => ?_⟩, fun ha => ha.1⟩
      rw [hnil a ha] at hb
      simp at hb
  | some best =>
      obtain ⟨hbest, hall⟩ := greatest?_eq_some hg
      obtain ⟨w, hw, hwb⟩ := List.mem_filterMap.1 hbest
      simp only [List.mem_append, List.mem_filter, decide_eq_true_eq, Option.isNone_iff_eq_none]
      constructor
      · rintro (⟨ha, hp⟩ | ⟨ha, hp⟩)
        · refine ⟨ha, fun b hb x hx y hy => ?_⟩
          obtain rfl := Option.some.inj (hp.symm.trans hb)
          exact hall y (List.mem_filterMap.2 ⟨x, hx, hy⟩)
        · refine ⟨ha, fun b hb => ?_⟩
          rw [hp] at hb
          simp at hb
      · rintro ⟨ha, hmax⟩
        cases hp : priority a with
        | none => exact .inr ⟨ha, rfl⟩
        | some b =>
            have h₁ := hmax b hp w hw best hwb
            have h₂ := hall b (List.mem_filterMap.2 ⟨a, ha, hp⟩)
            refine .inl ⟨ha, ?_⟩
            rw [Int.le_antisymm h₂ h₁]

/-- Something is preferred, if there is anything. -/
theorem preferred_ne_nil (priority : α → Option Int) (h : list ≠ []) : preferred priority list ≠ [] := by
  unfold preferred
  split
  · next best hg =>
      obtain ⟨x, hx, hp⟩ := List.mem_filterMap.1 (greatest?_eq_some hg).1
      have hmem : x ∈ list.filter (fun a => priority a = some best) :=
        List.mem_filter.2 ⟨hx, decide_eq_true hp⟩
      exact List.append_ne_nil_of_left_ne_nil (List.ne_nil_of_mem hmem) _
  · exact h

/-- What is preferred comes in two parts, each in the order of the list: what has the greatest priority, and
then what has none. -/
theorem preferred_eq_append (priority : α → Option Int) (list : List α) : ∃ first rest,
    preferred priority list = first ++ rest ∧ first.Sublist list ∧ rest.Sublist list ∧
      (∀ a ∈ first, ∃ b, priority a = some b) ∧ ∀ a ∈ rest, priority a = none := by
  unfold preferred
  split
  · next best _ =>
      refine ⟨_, _, rfl, List.filter_sublist, List.filter_sublist, fun a ha => ⟨best, ?_⟩,
        fun a ha => ?_⟩
      · exact of_decide_eq_true (List.mem_filter.1 ha).2
      · exact Option.isNone_iff_eq_none.1 (List.mem_filter.1 ha).2
  · next hg =>
      have hnone := List.filterMap_eq_nil_iff.1 (greatest?_eq_none hg)
      exact ⟨[], list, rfl, List.nil_sublist _, .refl _, by simp, hnone⟩

/-- Nothing is preferred that is not there, or more often than it is there. -/
theorem subperm_preferred (priority : α → Option Int) (list : List α) :
    (preferred priority list).Subperm list := by
  unfold preferred
  split
  · next best _ =>
      have hrest : (list.filter (fun a => (priority a).isNone)).Sublist
          (list.filter (fun a => !decide (priority a = some best))) :=
        List.monotone_filter_right list (fun a ha => by simp [Option.isNone_iff_eq_none.1 ha])
      exact (hrest.append_left _).subperm.trans (List.filter_append_perm _ list).subperm
  · exact .refl _

theorem nodup_preferred (h : list.Nodup) : (preferred priority list).Nodup := by
  obtain ⟨part, hperm, hpart⟩ := subperm_preferred priority list
  exact hperm.nodup_iff.1 (hpart.nodup h)

end Preferred

/-! ### Derivations that count -/

namespace Chart

variable {rules : Array Rule} {c : Chart rules} {n : Nat} {d other : Derivation}

/-- The open edge decides before the finished one. -/
theorem standsFor_cases (h : c.standsFor other d = true) :
    (c.isFloating d.base = true ∧ c.isAnchored other.base = true ∧
        c.sameRule other.base d.base = true ∧ other.child = d.child) ∨
      (c.isFloating d.base = false ∧ c.isFloating d.child = true ∧ c.isAnchored other.child = true ∧
        c.sameRule other.child d.child = true ∧ other.base = d.base) := by
  unfold standsFor at h
  by_cases hb : c.isFloating d.base = true
  · rw [if_pos hb] at h
    simp only [Bool.and_eq_true, decide_eq_true_eq] at h
    exact .inl ⟨hb, h.1.1, h.1.2, h.2⟩
  · rw [if_neg hb] at h
    by_cases hc : c.isFloating d.child = true
    · rw [if_pos hc] at h
      simp only [Bool.and_eq_true, decide_eq_true_eq] at h
      exact .inr ⟨by simpa using hb, hc, h.1.1, h.1.2, h.2⟩
    · rw [if_neg hc] at h
      simp at h

/-- Nothing stands for a derivation between edges with a place. -/
theorem standsFor_eq_false (hb : c.isFloating d.base = false)
    (hc : c.isFloating d.child = false) : c.standsFor other d = false := by
  simp [standsFor, hb, hc]

theorem mem_derivations : d ∈ c.derivations n ↔ ∃ e, c.edge? n = some e ∧
    d ∈ preferred c.childPriority? e.derivations ∧
      ∀ other ∈ preferred c.childPriority? e.derivations, c.standsFor other d = false := by
  unfold derivations
  cases he : c.edge? n with
  | none => simp
  | some e =>
      simp only [List.mem_filter, Bool.not_eq_true', List.any_eq_false, Bool.not_eq_true,
        Option.some.injEq, exists_eq_left']

/-- What counts was found. -/
theorem exists_mem_of_mem_derivations (h : d ∈ c.derivations n) :
    ∃ e, c.edge? n = some e ∧ d ∈ e.derivations := by
  obtain ⟨e, he, hd, -⟩ := mem_derivations.1 h
  exact ⟨e, he, (mem_preferred.1 hd).1⟩

theorem nodup_of_distinct {ds : List Derivation} (h : Derivation.Distinct ds) : ds.Nodup := by
  refine h.imp (fun {a b} hab heq => ?_)
  subst heq
  simp [Derivation.same] at hab

theorem WellFormed.nodup_derivations (h : c.WellFormed) (n : Nat) : (c.derivations n).Nodup := by
  unfold derivations
  split
  · next e he => exact (nodup_preferred (nodup_of_distinct (h.distinct n e he))).filter _
  · exact List.nodup_nil

/-- No more derivations of an edge count than there are in the whole chart. -/
theorem length_derivations_le (c : Chart rules) (n : Nat) :
    (c.derivations n).length ≤ c.edges.foldl (fun n e => n + e.derivations.length) 0 := by
  have hsum (edges : List (Edge rules)) (k : Nat) :
      k ≤ edges.foldl (fun n e => n + e.derivations.length) k ∧ ∀ e ∈ edges,
        e.derivations.length ≤ edges.foldl (fun n e => n + e.derivations.length) k := by
    induction edges generalizing k with
    | nil => exact ⟨Nat.le_refl _, by simp⟩
    | cons x edges ih =>
        obtain ⟨hk, hall⟩ := ih (k + x.derivations.length)
        refine ⟨?_, fun e he => ?_⟩
        · rw [List.foldl_cons]
          omega
        · rw [List.foldl_cons]
          rcases List.mem_cons.1 he with rfl | he
          · omega
          · exact hall e he
  rw [← Array.foldl_toList]
  cases he : c.edge? n with
  | none => simp [derivations, he]
  | some e =>
      have hmem : e ∈ c.edges.toList := Array.mem_toList_iff.2 (Array.mem_of_getElem? he)
      have hle := (hsum c.edges.toList 0).2 e hmem
      have hpref := (subperm_preferred c.childPriority? e.derivations).length_le
      have hfilter : (c.derivations n).length ≤
          (preferred c.childPriority? e.derivations).length := by
        unfold derivations
        rw [he]
        exact List.length_filter_le _ _
      omega

end Chart

end ChartParsing
