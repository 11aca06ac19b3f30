import ChartParsing.Grammar
import Mathlib.Data.List.Nodup

/-!
# Adding rules

What a grammar keeps of the rules that are added to it: of those with one text the first one, in their order.

* **`addAll_append`**: rules are added one after the other, and counted.
* **`exists_mem_addAll`**: for every rule the grammar has one with the same text.
* **`Distinct.addAll`**: it never has two.
-/

namespace ChartParsing.Grammar

variable {g : Grammar} {q r : Rule} {rules : List Rule}

/-- One more rule, counted if it is new. -/
def addCounted (x : Grammar × Nat) (r : Rule) : Grammar × Nat :=
  ((x.1.add r).1, x.2 + if (x.1.add r).2 then 1 else 0)

theorem addAll_eq_foldl (g : Grammar) (rules : List Rule) :
    g.addAll rules = rules.foldl addCounted (g, 0) := by
  unfold addAll
  refine congrArg (fun step => List.foldl step (g, 0) rules) (funext fun x => funext fun r => ?_)
  obtain ⟨h, n⟩ := x
  unfold addCounted
  dsimp only
  rcases h.add r with ⟨next, _ | _⟩ <;> rfl

theorem foldl_addCounted (rules : List Rule) (g : Grammar) (n : Nat) :
    rules.foldl addCounted (g, n) = ((g.addAll rules).1, n + (g.addAll rules).2) := by
  induction rules generalizing g n with
  | nil => rfl
  | cons r rest ih =>
      rw [addAll_eq_foldl, List.foldl_cons, List.foldl_cons, addCounted, addCounted, ih, ih _ (0 + _),
        Nat.zero_add, Nat.add_assoc]

theorem addAll_append (g : Grammar) (rules others : List Rule) :
    g.addAll (rules ++ others) =
      (((g.addAll rules).1.addAll others).1,
        (g.addAll rules).2 + ((g.addAll rules).1.addAll others).2) := by
  rw [addAll_eq_foldl, List.foldl_append, ← addAll_eq_foldl]
  exact foldl_addCounted others _ _

theorem addAll_cons (g : Grammar) (r : Rule) (rules : List Rule) :
    g.addAll (r :: rules) =
      (((g.add r).1.addAll rules).1,
        (if (g.add r).2 then 1 else 0) + ((g.add r).1.addAll rules).2) := by
  rw [addAll_eq_foldl, List.foldl_cons, addCounted, foldl_addCounted, Nat.zero_add]

/-! ### One rule -/

theorem mem_add_iff : q ∈ (g.add r).1.rules.toList ↔
    q ∈ g.rules.toList ∨ q = r ∧ g.has r = false := by
  unfold add
  cases hhas : g.has r with
  | true => simp
  | false => simp [or_comm]

/-- A rule with the text is there now. -/
theorem exists_mem_add (g : Grammar) (r : Rule) :
    ∃ q ∈ (g.add r).1.rules.toList, q.render = r.render := by
  cases hhas : g.has r with
  | true =>
      obtain ⟨q, hq, hrender⟩ := List.any_eq_true.1 hhas
      exact ⟨q, mem_add_iff.2 (.inl hq), of_decide_eq_true hrender⟩
  | false => exact ⟨r, mem_add_iff.2 (.inr ⟨rfl, hhas⟩), rfl⟩

/-- No two rules of a grammar have the same text. -/
def Distinct (g : Grammar) : Prop := (g.rules.toList.map Rule.render).Nodup

theorem Distinct.add (h : g.Distinct) (r : Rule) : (g.add r).1.Distinct := by
  unfold Grammar.add
  cases hhas : g.has r with
  | true => exact h
  | false =>
      have hnew : ∀ q ∈ g.rules.toList, q.render ≠ r.render := by
        intro q hq
        simpa using List.any_eq_false.1 hhas q hq
      unfold Distinct at h ⊢
      simp only [Bool.false_eq_true, if_false, Array.toList_push, List.map_append, List.map_cons,
        List.map_nil]
      refine List.nodup_append.2 ⟨h, by simp, fun t ht u hu => ?_⟩
      obtain ⟨q, hq, rfl⟩ := List.mem_map.1 ht
      obtain rfl := List.mem_singleton.1 hu
      exact hnew q hq

/-! ### Many rules -/

theorem mem_addAll_of_mem (h : q ∈ g.rules.toList) (rules : List Rule) :
    q ∈ (g.addAll rules).1.rules.toList := by
  induction rules generalizing g with
  | nil => exact h
  | cons r rest ih =>
      rw [addAll_cons]
      exact ih (mem_add_iff.2 (.inl h))

/-- A rule of the grammar was there, or was added. -/
theorem mem_of_mem_addAll (h : q ∈ (g.addAll rules).1.rules.toList) :
    q ∈ g.rules.toList ∨ q ∈ rules := by
  induction rules generalizing g with
  | nil => exact .inl h
  | cons r rest ih =>
      rw [addAll_cons] at h
      rcases ih h with hq | hq
      · rcases mem_add_iff.1 hq with hq | ⟨rfl, -⟩
        · exact .inl hq
        · exact .inr List.mem_cons_self
      · exact .inr (List.mem_cons_of_mem r hq)

/-- **For every rule** the grammar has one with the same text. -/
theorem exists_mem_addAll (g : Grammar) (h : r ∈ rules) :
    ∃ q ∈ (g.addAll rules).1.rules.toList, q.render = r.render := by
  induction rules generalizing g with
  | nil => simp at h
  | cons p rest ih =>
      rw [addAll_cons]
      rcases List.mem_cons.1 h with rfl | hr
      · obtain ⟨q, hq, hrender⟩ := exists_mem_add g r
        exact ⟨q, mem_addAll_of_mem hq rest, hrender⟩
      · exact ih _ hr

theorem Distinct.addAll (h : g.Distinct) (rules : List Rule) : (g.addAll rules).1.Distinct := by
  induction rules generalizing g with
  | nil => exact h
  | cons r rest ih =>
      rw [addAll_cons]
      exact ih (h.add r)

/-- **It never has two** rules with one text. -/
theorem Distinct.eq (h : g.Distinct) (hq : q ∈ g.rules.toList) (hr : r ∈ g.rules.toList)
    (hrender : q.render = r.render) : q = r :=
  List.inj_on_of_nodup_map h hq hr hrender

theorem addAll_empty_ne_zero (hne : rules ≠ []) : (empty.addAll rules).2 ≠ 0 := by
  cases rules with
  | nil => exact absurd rfl hne
  | cons r rest =>
      rw [addAll_cons]
      show 1 + _ ≠ 0
      omega

end ChartParsing.Grammar
