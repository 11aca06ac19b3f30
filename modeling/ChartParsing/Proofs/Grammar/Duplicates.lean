import ChartParsing.Proofs.Grammar.Additions
import ChartParsing.Proofs.Grammar.Concatenation
import ChartParsing.Proofs.Grammar.RuleTexts

/-!
# Rules that are left out

A grammar takes no rule whose text it has.  The text of a rule that was read says all but which symbols it has,
so a rule is left out exactly if an alike one stands before it: one that differs in its symbols at most, where
these have one text.

* **`add_eq_false_iff`**: a rule is rejected if an alike one was added before.
* **`mem_ofRules_iff`**: all rules of a list are taken if alike ones are the same.

Main statement: **`load_keeps`**.  A literal that looks like two is such a case: **`load_keeps_unescaped`**.
-/

namespace ChartParsing.Grammar

variable {v : Vocabulary} {g : Grammar} {q r : Rule} {rules : List Rule}

theorem add_eq_false_iff_has : (g.add r).2 = false ↔ ∃ q ∈ g.rules.toList, q.render = r.render := by
  have hadd : (g.add r).2 = !g.has r := by
    unfold add
    cases g.has r <;> rfl
  rw [hadd, Bool.not_eq_false', has, List.any_eq_true]
  simp only [decide_eq_true_eq]

theorem mem_of_mem_ofRules (h : q ∈ (ofRules rules).rules.toList) : q ∈ rules :=
  (mem_of_mem_addAll h).resolve_left (by simp [empty])

theorem distinct_ofRules (rules : List Rule) : (ofRules rules).Distinct := by
  refine Distinct.addAll ?_ rules
  show ([] : List String).Nodup
  exact List.nodup_nil

/-- **A rule is rejected** if an alike one was added before. -/
theorem add_eq_false_iff (hrules : ∀ q ∈ rules, q.Loaded v) (hr : r.Loaded v) :
    ((ofRules rules).add r).2 = false ↔ ∃ q ∈ rules, q.Alike r := by
  rw [add_eq_false_iff_has]
  constructor
  · rintro ⟨q, hq, hrender⟩
    have hmem := mem_of_mem_ofRules hq
    exact ⟨q, hmem, Rule.alike_of_render (hrules q hmem) hr hrender⟩
  · rintro ⟨q, hq, halike⟩
    obtain ⟨p, hp, hrender⟩ := exists_mem_addAll empty hq
    exact ⟨p, hp, hrender.trans halike.render_eq⟩

/-- For every rule the grammar has an alike one. -/
theorem exists_alike_mem_ofRules (hrules : ∀ q ∈ rules, q.Loaded v) (hr : r ∈ rules) :
    ∃ q ∈ (ofRules rules).rules.toList, q.Alike r := by
  obtain ⟨q, hq, hrender⟩ := exists_mem_addAll empty hr
  exact ⟨q, hq, Rule.alike_of_render (hrules q (mem_of_mem_ofRules hq)) (hrules r hr) hrender⟩

/-- **All rules are taken** if alike ones are the same. -/
theorem mem_ofRules_iff (hrules : ∀ q ∈ rules, q.Loaded v) :
    (∀ r ∈ rules, r ∈ (ofRules rules).rules.toList) ↔
      ∀ q ∈ rules, ∀ r ∈ rules, q.Alike r → q.rhs = r.rhs := by
  constructor
  · intro hall q hq r hr halike
    rw [(distinct_ofRules rules).eq (hall q hq) (hall r hr) halike.render_eq]
  · intro hsame r hr
    obtain ⟨q, hq, halike⟩ := exists_alike_mem_ofRules hrules hr
    obtain rfl := halike.eq (hsame q (mem_of_mem_ofRules hq) r hr halike)
    exact hq

theorem load_of_readRules {source : String} (h : Source.readRules v source.toList = .ok rules)
    (hne : rules ≠ []) : load v source = .ok (ofRules rules) := by
  rw [load, extend_of_readRules empty h]
  exact if_neg (addAll_empty_ne_zero hne)

/-- **What a grammar has of the rules of its text.**  A rule is left out if an alike one stands before it, so
none is if alike rules have the same symbols.  Symbols whose ends are in sight are the same if they have one
text. -/
theorem load_keeps (v : Vocabulary) (source : String)
    (hread : Source.readRules v source.toList = .ok rules) (hne : rules ≠ []) :
    ∃ g, load v source = .ok g ∧
      (∀ r ∈ rules, ∃ q ∈ g.rules.toList, q.Alike r) ∧
      (∀ before r after, rules = before ++ r :: after →
        (((ofRules before).add r).2 = false ↔ ∃ q ∈ before, q.Alike r)) ∧
      ((∀ r ∈ rules, r ∈ g.rules.toList) ↔
        ∀ q ∈ rules, ∀ r ∈ rules, q.Alike r → q.rhs = r.rhs) ∧
      ((∀ r ∈ rules, ∀ s ∈ r.rhs, s.Sealed) → ∀ r ∈ rules, r ∈ g.rules.toList) := by
  have hloaded := (Source.readRules_eq_ok_iff.1 hread).loaded
  have hall := mem_ofRules_iff hloaded
  refine ⟨ofRules rules, load_of_readRules hread hne, fun r hr => exists_alike_mem_ofRules hloaded hr,
    fun before r after hsplit => ?_, hall, fun hsealed => hall.2 fun q hq r hr halike => ?_⟩
  · rw [hsplit] at hloaded
    exact add_eq_false_iff (fun q hq => hloaded q (List.mem_append_left _ hq))
      (hloaded r (List.mem_append_right before List.mem_cons_self))
  · exact Symbol.row_injective halike.symbols
      (fun s hs => ⟨(hloaded q hq).symbols s hs, hsealed q hq s hs⟩)
      (fun s hs => ⟨(hloaded r hr).symbols s hs, hsealed r hr s hs⟩)

theorem load_keeps_quotes : ∃ rules g,
    Source.readRules .empty "A -> \"a\" \"b\"\nA -> \"a\" \"\\\"\"".toList = .ok rules ∧
      load .empty "A -> \"a\" \"b\"\nA -> \"a\" \"\\\"\"" = .ok g ∧ rules.length = 2 ∧
        ∀ r ∈ rules, r ∈ g.rules.toList := by
  obtain ⟨rules, hrules⟩ := exists_of_isOk
    (show (Source.readRules .empty "A -> \"a\" \"b\"\nA -> \"a\" \"\\\"\"".toList).isOk = true by
      decide +kernel)
  have hshape : (Source.readRules .empty "A -> \"a\" \"b\"\nA -> \"a\" \"\\\"\"".toList).toOption.map
      (fun rules => (rules.length, rules.all (fun r => r.rhs.all (fun s => decide s.Sealed)))) =
        some (2, true) := by
    decide +kernel
  rw [hrules] at hshape
  obtain ⟨hlength, hsealed⟩ := Prod.mk.inj (Option.some.inj hshape)
  have hne : rules ≠ [] := by
    rintro rfl
    simp at hlength
  obtain ⟨g, hload, -, -, -, hkeeps⟩ := load_keeps .empty _ hrules hne
  exact ⟨rules, g, hrules, hload, hlength, hkeeps (by simpa using hsealed)⟩

/-- A literal with a quote and a space in it is written like two, and the rule with it is left out. -/
theorem load_keeps_unescaped : ¬ ∀ (v : Vocabulary) (source : String) (rules : List Rule) (g : Grammar),
    Source.readRules v source.toList = .ok rules → load v source = .ok g →
      ∀ r ∈ rules, ∃ q ∈ g.rules.toList, q.lhs = r.lhs ∧
        List.Forall₂ (fun s t => s.same t = true) q.rhs r.rhs ∧
        q.action.map Action.name = r.action.map Action.name ∧ (q.weight == r.weight) = true ∧
        q.priority = r.priority ∧ q.entity = r.entity ∧ q.operators = r.operators := by
  intro h
  obtain ⟨rules, hrules⟩ := exists_of_isOk
    (show (Source.readRules .empty "A -> \"a\" \"b\"\nA -> \"a\\\" \\\"b\"".toList).isOk = true by
      decide +kernel)
  have hshape : (Source.readRules .empty "A -> \"a\" \"b\"\nA -> \"a\\\" \\\"b\"".toList).toOption.map
      (List.map (fun r => (r.render, r.rhs.length))) =
        some [("A -> \"a\" \"b\"", 2), ("A -> \"a\" \"b\"", 1)] := by
    decide +kernel
  rw [hrules] at hshape
  have hlist : rules.map (fun r => (r.render, r.rhs.length)) =
      [("A -> \"a\" \"b\"", 2), ("A -> \"a\" \"b\"", 1)] := Option.some.inj hshape
  have hne : rules ≠ [] := by
    rintro rfl
    simp at hlist
  -- a rule of either length is kept, though all have one text
  have hlength {n : Nat} (hmem : ("A -> \"a\" \"b\"", n) ∈ rules.map (fun r => (r.render, r.rhs.length))) :
      ∃ q ∈ (ofRules rules).rules.toList, q.rhs.length = n := by
    obtain ⟨r, hr, hshape⟩ := List.mem_map.1 hmem
    obtain ⟨q, hq, -, hrhs, -⟩ := h .empty _ rules _ hrules (load_of_readRules hrules hne) r hr
    exact ⟨q, hq, hrhs.length_eq.trans (Prod.mk.inj hshape).2⟩
  have htext {q : Rule} (hq : q ∈ (ofRules rules).rules.toList) : q.render = "A -> \"a\" \"b\"" := by
    have hmem := List.mem_map_of_mem (f := fun r => (r.render, r.rhs.length)) (mem_of_mem_ofRules hq)
    rw [hlist] at hmem
    simp only [List.mem_cons, Prod.mk.injEq, List.not_mem_nil, or_false] at hmem
    rcases hmem with ⟨htext, -⟩ | ⟨htext, -⟩ <;> exact htext
  obtain ⟨q, hq, htwo⟩ := hlength (n := 2) (by simp [hlist])
  obtain ⟨r, hr, hone⟩ := hlength (n := 1) (by simp [hlist])
  obtain rfl := (distinct_ofRules rules).eq hq hr ((htext hq).trans (htext hr).symm)
  omega

end ChartParsing.Grammar
