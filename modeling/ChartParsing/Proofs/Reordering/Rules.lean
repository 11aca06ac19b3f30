import ChartParsing.Proofs.Gaps.Filling
import Mathlib.Logic.Equiv.Fin.Basic
import Mathlib.Logic.Equiv.Option

/-!
# The same rules in another order

A parser knows rules by their numbers, so two grammars with the same rules in different orders are different
grammars to it.  A `Reordering` leads from the number of each rule in one grammar to the number of the same
rule in the other one, and so from the items over one grammar to those over the other.

All that is asked of an item reads its rule and its dot, so it is the same for both.  The look-ups of a
grammar answer with corresponding numbers, although not in a corresponding order: `mem_select`.

There is a reordering whenever the rules are a permutation of each other: `Reordering.nonempty_of_perm`.
-/

namespace ChartParsing

/-- Leads from each rule of the first grammar to the same rule in the second one, and back. -/
structure Reordering (g g' : Grammar) where
  number : g.RuleId ≃ g'.RuleId
  rule_number : ∀ r, g'.rule (number r) = g.rule r

namespace Reordering

variable {g g' : Grammar} (σ : Reordering g g')

/-- The way back. -/
def symm : Reordering g' g where
  number := σ.number.symm
  rule_number r := by rw [← σ.rule_number, Equiv.apply_symm_apply]

/-- The item over the same rule. -/
def item (i : Item g.rules) : Item g'.rules := ⟨σ.number i.number, i.dot, i.start, i.stop⟩

/-! ### Items -/

variable {i o f : Item g.rules}

@[simp] theorem item_dot : (σ.item i).dot = i.dot := rfl

@[simp] theorem item_start : (σ.item i).start = i.start := rfl

@[simp] theorem item_stop : (σ.item i).stop = i.stop := rfl

@[simp] theorem symm_item_item (i : Item g.rules) : σ.symm.item (σ.item i) = i := by
  simp [item, symm]

@[simp] theorem item_symm_item (j : Item g'.rules) : σ.item (σ.symm.item j) = j := by
  simp [item, symm]

theorem item_injective : Function.Injective σ.item :=
  Function.LeftInverse.injective σ.symm_item_item

/-- An item and its counterpart have the same rule. -/
@[simp] theorem item_rule : (σ.item i).rule = i.rule := σ.rule_number i.number

@[simp] theorem item_lhs : (σ.item i).lhs = i.lhs := by simp [Item.lhs]

@[simp] theorem item_next? : (σ.item i).next? = i.next? := by simp [Item.next?]

@[simp] theorem item_following? : (σ.item i).following? = i.following? := by simp [Item.following?]

@[simp] theorem item_wanted? : (σ.item i).wanted? = i.wanted? := by simp [Item.wanted?]

@[simp] theorem item_isReduced : (σ.item i).isReduced = i.isReduced := by simp [Item.isReduced]

@[simp] theorem item_isAtGap : (σ.item i).isAtGap = i.isAtGap := by simp [Item.isAtGap]

@[simp] theorem veto?_item : Chart.veto? (σ.item o) (σ.item f) = Chart.veto? o f := by
  simp [Chart.veto?]

/-- What can be put together can be put together over the other grammar. -/
theorem takes_item (h : o.Takes f) : (σ.item o).Takes (σ.item f) where
  wanted := by simpa using h.wanted
  reduced := by simpa using h.reduced
  meets := h.meets
  allowed := by simpa using h.allowed

theorem gapAt_item {gap : Gap} {name : String} :
    Parser.gapAt (σ.item i) = .ok (gap, name) ↔ Parser.gapAt i = .ok (gap, name) := by
  simp [Parser.gapAt_eq_ok]

/-! ### Look-ups -/

/-- The rules that satisfy `p` are the same ones. -/
@[simp] theorem mem_select {P : Rule → Bool} {r : g.RuleId} :
    σ.number r ∈ g'.select P ↔ r ∈ g.select P := by
  rw [Grammar.mem_select, Grammar.mem_select, σ.rule_number]

@[simp] theorem mem_rulesStarting {first : Option Symbol} {r : g.RuleId} :
    σ.number r ∈ g'.rulesStarting first ↔ r ∈ g.rulesStarting first :=
  σ.mem_select

@[simp] theorem mem_emptyRulesFor {name : String} {r : g.RuleId} :
    σ.number r ∈ g'.emptyRulesFor name ↔ r ∈ g.emptyRulesFor name := by
  rw [Grammar.mem_emptyRulesFor, Grammar.mem_emptyRulesFor, σ.rule_number]

/-! ### Permutations -/

/-- The places of two lists that are permutations of each other can be matched. -/
theorem exists_equiv_of_perm {α : Type} {list list' : List α} (h : list.Perm list') :
    ∃ e : Fin list.length ≃ Fin list'.length, ∀ k, list'.get (e k) = list.get k := by
  induction h with
  | nil => exact ⟨.refl _, fun _ => rfl⟩
  | @cons a list list' _ ih =>
      obtain ⟨e, he⟩ := ih
      refine ⟨(finSuccEquiv _).trans (e.optionCongr.trans (finSuccEquiv _).symm), fun k => ?_⟩
      cases k using Fin.cases with
      | zero => rfl
      | succ k => simpa using he k
  | swap a b list =>
      refine ⟨Equiv.swap ⟨0, by simp⟩ ⟨1, by simp⟩, fun k => ?_⟩
      by_cases h₀ : k = ⟨0, by simp⟩
      · simp [h₀]
      · by_cases h₁ : k = ⟨1, by simp⟩
        · simp [h₁]
        · obtain ⟨_ | _ | k, hk⟩ := k
          · exact absurd rfl h₀
          · exact absurd rfl h₁
          · rw [Equiv.swap_apply_of_ne_of_ne h₀ h₁]
            rfl
  | trans _ _ ih ih' =>
      obtain ⟨e, he⟩ := ih
      obtain ⟨e', he'⟩ := ih'
      exact ⟨e.trans e', fun k => (he' (e k)).trans (he k)⟩

/-- **Grammars whose rules are a permutation of each other** have a reordering. -/
theorem nonempty_of_perm (h : g.rules.toList.Perm g'.rules.toList) : Nonempty (Reordering g g') := by
  obtain ⟨e, he⟩ := exists_equiv_of_perm h
  exact ⟨⟨e, he⟩⟩

end Reordering

end ChartParsing
