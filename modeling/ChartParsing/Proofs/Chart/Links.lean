import ChartParsing.Chart.Outermost
import ChartParsing.Proofs.Chart.Growth
import Mathlib.Data.List.Perm.Subperm
import Mathlib.Logic.Relation

/-!
# Links between edges

An edge links to the edges that its derivations refer to.

* **`mem_within`**: `Chart.within` finds exactly what at least one link leads to.  The number of steps
  that it is given is enough, since every step takes a number off the work list and the links of an edge
  are put there once.
* **`acyclic_iff`**: so it can be looked up whether an edge leads back to itself.
* **`shallow_of_acyclic`**: where no edge leads back to itself, chains of links are no longer than there
  are edges.  `Shallow` is what recursion along the links is done on.
-/

namespace ChartParsing

/-! ### Chains of links -/

/-- No chain of links from here is longer than this. -/
def Shallow (link : Nat → Nat → Prop) : Nat → Nat → Prop
  | 0, n => ∀ m, ¬ link n m
  | h + 1, n => ∀ m, link n m → Shallow link h m

section Shallow

open Relation

variable {link : Nat → Nat → Prop} {h n size : Nat}

theorem Shallow.succ (hs : Shallow link h n) : Shallow link (h + 1) n := by
  induction h generalizing n with
  | zero => exact fun m hm => absurd hm (hs m)
  | succ h ih => exact fun m hm => ih (hs m hm)

theorem Shallow.mono {k : Nat} (hs : Shallow link h n) (hk : h ≤ k) : Shallow link k n := by
  induction hk with
  | refl => exact hs
  | step _ ih => exact ih.succ

/-- Induction along short chains of links. -/
theorem Shallow.induction {P : Nat → Prop} (hs : Shallow link h n)
    (step : ∀ n, (∀ m, link n m → P m) → P n) : P n := by
  induction h generalizing n with
  | zero => exact step n (fun m hm => absurd hm (hs m))
  | succ h ih => exact step n (fun m hm => ih (hs m hm))

theorem Shallow.irrefl (hs : Shallow link h n) : ¬ TransGen link n n := by
  induction h generalizing n with
  | zero =>
      intro hn
      obtain ⟨m, hm, -⟩ := TransGen.head'_iff.1 hn
      exact hs m hm
  | succ h ih =>
      intro hn
      obtain ⟨m, hm, hmn⟩ := TransGen.head'_iff.1 hn
      exact ih (hs m hm) (TransGen.tail' hmn hm)

/-- The numbers that lead to a number are different from it and from each other, so there are fewer of
them than there are numbers with links. -/
theorem shallow_of_visited (hlt : ∀ m k, ReflTransGen link n m → link m k → m < size)
    (visited : List Nat) (hnodup : visited.Nodup)
    (hvisited : ∀ x ∈ visited, x < size ∧ TransGen link x n)
    (hacyclic : ∀ m, ReflTransGen link n m → ¬ TransGen link m m)
    (hh : size ≤ visited.length + h) : Shallow link h n := by
  induction h generalizing n visited with
  | zero =>
      have hnew : n ∉ visited := fun hm => hacyclic n .refl (hvisited n hm).2
      intro m hm
      have hsub : n :: visited ⊆ List.range size := by
        intro x hx
        rcases List.mem_cons.1 hx with rfl | hx
        · exact List.mem_range.2 (hlt x m .refl hm)
        · exact List.mem_range.2 (hvisited x hx).1
      have hlen := (List.subperm_of_subset (List.nodup_cons.2 ⟨hnew, hnodup⟩) hsub).length_le
      rw [List.length_cons, List.length_range] at hlen
      omega
  | succ h ih =>
      have hnew : n ∉ visited := fun hm => hacyclic n .refl (hvisited n hm).2
      intro m hm
      refine ih (fun x k hx => hlt x k (.head hm hx)) (n :: visited)
        (List.nodup_cons.2 ⟨hnew, hnodup⟩) ?_ ?_ ?_
      · intro x hx
        rcases List.mem_cons.1 hx with rfl | hx
        · exact ⟨hlt x m .refl hm, .single hm⟩
        · exact ⟨(hvisited x hx).1, (hvisited x hx).2.tail hm⟩
      · exact fun k hk => hacyclic k (.head hm hk)
      · rw [List.length_cons]
        omega

/-- **Without cycles chains of links are short.** -/
theorem shallow_of_acyclic (hlt : ∀ m k, ReflTransGen link n m → link m k → m < size)
    (hacyclic : ∀ m, ReflTransGen link n m → ¬ TransGen link m m) : Shallow link size n :=
  shallow_of_visited hlt [] List.nodup_nil (by simp) hacyclic (by simp)

end Shallow

namespace Chart

open Relation

variable {rules : Array Rule} {c : Chart rules} {n m fuel : Nat} {marked : NatSet}
  {work : List Nat}

/-- One of the edge's derivations refers to the other edge. -/
def Links (c : Chart rules) (n m : Nat) : Prop := m ∈ c.linksOf n

theorem links_iff : c.Links n m ↔ ∃ e, c.edge? n = some e ∧ ∃ d ∈ e.derivations, m ∈ d.links := by
  unfold Links linksOf
  cases c.edge? n with
  | none => simp
  | some e => simp [Edge.links, List.mem_flatMap]

/-! ### Marking -/

/-- How many links the first `k` edges have, less those of marked ones. -/
def linksLeft (c : Chart rules) (marked : NatSet) : Nat → Nat
  | 0 => 0
  | k + 1 => c.linksLeft marked k + if marked.contains k then 0 else (c.linksOf k).length

theorem linksLeft_insert (hn : marked.contains n = false) (k : Nat) :
    c.linksLeft (marked.insert n) k + (if n < k then (c.linksOf n).length else 0) =
      c.linksLeft marked k := by
  induction k with
  | zero => simp [linksLeft]
  | succ k ih =>
      unfold linksLeft
      rw [NatSet.contains_insert]
      by_cases hk : n = k
      · subst hk
        simp only [Nat.lt_irrefl, if_false, Nat.add_zero] at ih
        rw [ih, hn]
        simp
      · have hlt : (n < k + 1) ↔ n < k := by omega
        simp only [hk, hlt, decide_false, Bool.or_false]
        omega

theorem linksLeft_empty (c : Chart rules) : c.linksLeft .empty c.size = c.linkCount := by
  have hcount (edges : List (Edge rules)) (k : Nat) :
      edges.foldl (fun n e => n + e.links.length) k =
        k + (edges.map (fun e => e.links.length)).sum := by
    induction edges generalizing k with
    | nil => rfl
    | cons e edges ih => rw [List.foldl_cons, ih, List.map_cons, List.sum_cons, Nat.add_assoc]
  have hleft (k : Nat) (hk : k ≤ c.size) : c.linksLeft .empty k =
      ((c.edges.toList.take k).map (fun e => e.links.length)).sum := by
    induction k with
    | zero => rfl
    | succ k ih =>
        have hlt : k < c.edges.toList.length := by
          rw [Array.length_toList]
          exact hk
        have hedge : c.linksOf k = c.edges.toList[k].links := by
          unfold linksOf edge?
          rw [Array.getElem?_eq_getElem hk, Array.getElem_toList]
          rfl
        rw [List.take_succ_eq_append_getElem hlt, List.map_append, List.sum_append, linksLeft,
          ih (by omega), hedge]
        simp
  have hall : c.edges.toList.take c.size = c.edges.toList :=
    List.take_of_length_le (Nat.le_of_eq Array.length_toList)
  rw [hleft c.size (Nat.le_refl _), hall, linkCount, ← Array.foldl_toList, hcount, Nat.zero_add]

theorem linksOf_of_size_le (h : c.size ≤ n) : c.linksOf n = [] := by
  unfold linksOf edge?
  rw [Array.getElem?_eq_none h]

/-- Marking an edge takes its links off those that are left. -/
theorem length_linksOf_add (hk : marked.contains n = false) :
    (c.linksOf n).length + c.linksLeft (marked.insert n) c.size = c.linksLeft marked c.size := by
  have hleft := c.linksLeft_insert hk c.size
  by_cases hlt : n < c.size
  · rw [if_pos hlt] at hleft
    omega
  · rw [if_neg hlt] at hleft
    rw [linksOf_of_size_le (Nat.le_of_not_lt hlt), List.length_nil]
    omega

/-- All that the links of marked edges lead to is marked, or still to be worked on. -/
def Pending (c : Chart rules) (marked : NatSet) (work : List Nat) : Prop :=
  ∀ n, marked.contains n = true → ∀ m, c.Links n m → marked.contains m = true ∨ m ∈ work

theorem Pending.skip (h : c.Pending marked (n :: work)) (hn : marked.contains n = true) :
    c.Pending marked work := by
  intro k hk m hm
  rcases h k hk m hm with h | h
  · exact .inl h
  · rcases List.mem_cons.1 h with rfl | h
    · exact .inl hn
    · exact .inr h

theorem Pending.insert (h : c.Pending marked (n :: work)) :
    c.Pending (marked.insert n) (c.linksOf n ++ work) := by
  intro k hk m hm
  rw [NatSet.contains_insert, Bool.or_eq_true, decide_eq_true_eq] at hk
  rw [NatSet.contains_insert, Bool.or_eq_true, decide_eq_true_eq]
  rcases hk with hk | rfl
  · rcases h k hk m hm with h | h
    · exact .inl (.inl h)
    · rcases List.mem_cons.1 h with rfl | h
      · exact .inl (.inr rfl)
      · exact .inr (List.mem_append_right _ h)
  · exact .inr (List.mem_append_left _ hm)

/-- Marking comes to an end. -/
theorem Pending.mark (h : c.Pending marked work)
    (hfuel : work.length + c.linksLeft marked c.size ≤ fuel) :
    c.Pending (c.mark fuel marked work) [] := by
  induction fuel generalizing marked work with
  | zero =>
      obtain rfl : work = [] := List.eq_nil_of_length_eq_zero (by omega)
      exact h
  | succ fuel ih =>
      cases work with
      | nil => exact h
      | cons k rest =>
          rw [List.length_cons] at hfuel
          unfold Chart.mark
          by_cases hk : marked.contains k = true
          · rw [if_pos hk]
            exact ih (h.skip hk) (by omega)
          · rw [if_neg hk]
            have hlen := length_linksOf_add (c := c) (Bool.eq_false_iff.2 hk)
            exact ih h.insert (by rw [List.length_append]; omega)

/-- What is marked, and what is worked on, is marked in the end. -/
theorem contains_mark (hfuel : work.length + c.linksLeft marked c.size ≤ fuel)
    (hn : marked.contains n = true ∨ n ∈ work) : (c.mark fuel marked work).contains n = true := by
  induction fuel generalizing marked work with
  | zero =>
      obtain rfl : work = [] := List.eq_nil_of_length_eq_zero (by omega)
      exact hn.resolve_right (by simp)
  | succ fuel ih =>
      cases work with
      | nil => exact hn.resolve_right (by simp)
      | cons k rest =>
          rw [List.length_cons] at hfuel
          rw [List.mem_cons] at hn
          unfold mark
          by_cases hk : marked.contains k = true
          · rw [if_pos hk]
            refine ih (by omega) ?_
            rcases hn with hn | rfl | hn
            · exact .inl hn
            · exact .inl hk
            · exact .inr hn
          · rw [if_neg hk]
            have hlen := length_linksOf_add (c := c) (Bool.eq_false_iff.2 hk)
            refine ih (by rw [List.length_append]; omega) ?_
            rw [NatSet.contains_insert, Bool.or_eq_true, decide_eq_true_eq, List.mem_append]
            rcases hn with hn | rfl | hn
            · exact .inl (.inl hn)
            · exact .inl (.inr rfl)
            · exact .inr (.inr hn)

/-- Nothing is marked without a reason. -/
theorem exists_of_contains_mark (hn : (c.mark fuel marked work).contains n = true) :
    marked.contains n = true ∨ ∃ m ∈ work, ReflTransGen c.Links m n := by
  induction fuel generalizing marked work with
  | zero => exact .inl hn
  | succ fuel ih =>
      cases work with
      | nil => exact .inl hn
      | cons k rest =>
          unfold mark at hn
          split at hn
          · refine (ih hn).imp_right (fun ⟨m, hm, hr⟩ => ?_)
            exact ⟨m, List.mem_cons_of_mem _ hm, hr⟩
          · rcases ih hn with hn | ⟨m, hm, hr⟩
            · rw [NatSet.contains_insert, Bool.or_eq_true, decide_eq_true_eq] at hn
              rcases hn with hn | rfl
              · exact .inl hn
              · exact .inr ⟨k, by simp, .refl⟩
            · rcases List.mem_append.1 hm with hm | hm
              · exact .inr ⟨k, by simp, .head hm hr⟩
              · exact .inr ⟨m, List.mem_cons_of_mem _ hm, hr⟩

/-- **What links lead to** from some edges is found. -/
theorem mem_within {numbers : List Nat} : (c.within numbers).contains n = true ↔
    ∃ m ∈ numbers, TransGen c.Links m n := by
  have hfuel : (numbers.flatMap c.linksOf).length + c.linksLeft .empty c.size ≤
      (numbers.flatMap c.linksOf).length + c.linkCount :=
    Nat.le_of_eq (by rw [linksLeft_empty])
  constructor
  · intro hn
    rcases exists_of_contains_mark hn with hn | ⟨m, hm, hr⟩
    · simp at hn
    · obtain ⟨k, hk, hkm⟩ := List.mem_flatMap.1 hm
      exact ⟨k, hk, TransGen.head' hkm hr⟩
  · rintro ⟨k, hk, hkn⟩
    obtain ⟨m, hm, hr⟩ := TransGen.head'_iff.1 hkn
    have hstart := contains_mark hfuel (.inr (List.mem_flatMap.2 ⟨k, hk, hm⟩))
    have hpending : c.Pending (c.within numbers) [] :=
      Pending.mark (fun n hn => absurd hn (by simp)) hfuel
    clear hkn
    induction hr with
    | refl => exact hstart
    | tail _ hlink ih => exact (hpending _ ih _ hlink).resolve_right (by simp)

/-- Whether an edge leads back to itself can be looked up. -/
theorem acyclic_iff : (∀ n, ¬ TransGen c.Links n n) ↔
    ∀ n < c.size, (c.within [n]).contains n = false := by
  have hwithin (n : Nat) : (c.within [n]).contains n = false ↔ ¬ TransGen c.Links n n := by
    rw [← Bool.not_eq_true, mem_within]
    simp
  refine ⟨fun h n _ => (hwithin n).2 (h n), fun h n hn => ?_⟩
  obtain ⟨m, hm, -⟩ := TransGen.head'_iff.1 hn
  obtain ⟨e, he, -⟩ := links_iff.1 hm
  exact (hwithin n).1 (h n (lt_size_of_edge? he)) hn

end Chart

end ChartParsing
