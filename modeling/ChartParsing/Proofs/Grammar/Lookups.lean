import ChartParsing.Grammar.Indexed
import ChartParsing.Proofs.Grammar.Additions
import Mathlib.Data.List.Induction
import Mathlib.Data.List.Nodup

/-!
# Look-ups of grammars

A grammar with tables does what the grammar without them does, and its tables answer what is found there by
going through all rules: `Represents`, which every change keeps (**`Represents.perform`**).

What a run of changes offered to the grammar since it was last renewed is `offeredBy`.  Of these rules the
grammar has the ones whose text was new then, `firstArrivals`.

Main statement: **`performAll_lookups`**.  After any run of changes the rules are the first arrivals, every
look-up lists exactly the rules that it is for, in their order, and what a text adds is what the grammar
grows by.
-/

namespace ChartParsing

namespace Grammar

variable {g : Grammar} {r : Rule} {rules : List Rule}

/-! ### First arrivals -/

/-- The rules of a list less those whose text comes before. -/
def firstArrivals (rules : List Rule) : List Rule :=
  (rules.zipIdx.filter (fun (r, n) => !(rules.take n).any (fun q => q.render = r.render))).map Prod.fst

theorem firstArrivals_concat (rules : List Rule) (r : Rule) : firstArrivals (rules ++ [r]) =
    firstArrivals rules ++ (if rules.any (fun q => q.render = r.render) then [] else [r]) := by
  have hold : rules.zipIdx.filter
      (fun (q, n) => !((rules ++ [r]).take n).any (fun p => p.render = q.render)) =
        rules.zipIdx.filter (fun (q, n) => !(rules.take n).any (fun p => p.render = q.render)) := by
    refine List.filter_congr (fun x hx => ?_)
    obtain ⟨q, n⟩ := x
    have hn : n < rules.length := by
      have hlt := List.snd_lt_add_of_mem_zipIdx hx
      omega
    dsimp only
    rw [List.take_append_of_le_length (Nat.le_of_lt hn)]
  have hnew : (rules ++ [r]).take rules.length = rules := List.take_left
  unfold firstArrivals
  rw [List.zipIdx_append, List.filter_append, List.map_append, hold, Nat.zero_add]
  refine congrArg _ ?_
  rw [List.zipIdx_singleton, List.filter_singleton]
  dsimp only
  rw [hnew]
  cases rules.any (fun q => q.render = r.render) <;> rfl

/-- A text is among the first arrivals if it is among the rules. -/
theorem any_firstArrivals (rules : List Rule) (t : String) :
    (firstArrivals rules).any (fun q => q.render = t) = rules.any (fun q => q.render = t) := by
  induction rules using List.reverseRecOn with
  | nil => rfl
  | append_singleton rules r ih =>
      rw [firstArrivals_concat, List.any_append, List.any_append, ih]
      cases hany : rules.any (fun q => q.render = r.render) with
      | false => rfl
      | true =>
          rw [if_pos rfl, List.any_nil, List.any_cons, List.any_nil, Bool.or_false, Bool.or_false]
          by_cases ht : r.render = t
          · rw [← ht, hany, Bool.true_or]
          · rw [decide_eq_false ht, Bool.or_false]

/-- Adding a rule to the first arrivals of some rules. -/
theorem rules_add (h : g.rules.toList = firstArrivals rules) (r : Rule) :
    (g.add r).1.rules.toList = firstArrivals (rules ++ [r]) := by
  have hhas : g.has r = rules.any (fun q => q.render = r.render) := by
    rw [has, h, any_firstArrivals]
  rw [firstArrivals_concat, ← hhas, ← h]
  unfold add
  cases g.has r with
  | true => simp
  | false => simp

/-- Nothing was offered to the empty grammar. -/
theorem rules_empty : empty.rules.toList = firstArrivals [] := rfl

theorem rules_addAll (h : g.rules.toList = firstArrivals rules) (more : List Rule) :
    (g.addAll more).1.rules.toList = firstArrivals (rules ++ more) := by
  induction more generalizing g rules with
  | nil => rw [List.append_nil, ← h]; rfl
  | cons r rest ih =>
      rw [addAll_cons, ← List.singleton_append, ← List.append_assoc]
      exact ih (rules_add h r)

/-- What a change adds to what was offered before. -/
def Change.offered (before : List Rule) : Change → List Rule
  | .add r => before ++ [r]
  | .renew rules => rules
  | .extend v source =>
      match Source.readRules v source.toList with
      | .ok rules => before ++ rules
      | .error _ => before

/-- The rules that a run of changes offered since the grammar was last renewed. -/
def offeredBy (changes : List Change) : List Rule := changes.foldl Change.offered []

/-- **The rules of a grammar** are the first arrivals of what was offered to it. -/
theorem rules_perform (h : g.rules.toList = firstArrivals rules) (change : Change) :
    (g.perform change).1.rules.toList = firstArrivals (change.offered rules) := by
  cases change with
  | add r => exact rules_add h r
  | renew rules => exact rules_addAll rules_empty rules
  | extend v source =>
      dsimp only [perform, extend, Change.offered]
      cases Source.readRules v source.toList with
      | error e => exact h
      | ok more => exact rules_addAll h more

theorem rules_performAll (h : g.rules.toList = firstArrivals rules) (changes : List Change) :
    (g.performAll changes).1.rules.toList = firstArrivals (changes.foldl Change.offered rules) := by
  induction changes generalizing g rules with
  | nil => exact h
  | cons change rest ih => exact ih (rules_perform h change)

/-! ### Going through all rules -/

/-- The numbers of the rules that satisfy `p`, without the bound in them. -/
theorem map_val_select (g : Grammar) (p : Rule → Bool) : (g.select p).map Fin.val =
    (List.range g.rules.size).filter (fun n => g.rules[n]?.any p) := by
  have hp : (fun i : g.RuleId => p (g.rule i)) = (fun n => g.rules[n]?.any p) ∘ Fin.val := by
    funext i
    show p g.rules[i.val] = g.rules[i.val]?.any p
    rw [Array.getElem?_eq_getElem i.isLt]
    rfl
  unfold select
  rw [hp, ← List.filter_map, List.map_coe_finRange_eq_range]

/-- A new rule comes last in every look-up that it belongs to. -/
theorem map_val_select_push (rules : Array Rule) (r : Rule) (p : Rule → Bool) :
    ((⟨rules.push r⟩ : Grammar).select p).map Fin.val =
      ((⟨rules⟩ : Grammar).select p).map Fin.val ++ (if p r then [rules.size] else []) := by
  have hold : (List.range rules.size).filter (fun n => (rules.push r)[n]?.any p) =
      (List.range rules.size).filter (fun n => rules[n]?.any p) := by
    refine List.filter_congr (fun n hn => ?_)
    rw [Array.getElem?_push, if_neg (Nat.ne_of_lt (List.mem_range.1 hn))]
  rw [map_val_select, map_val_select, Array.size_push, List.range_succ, List.filter_append, hold,
    List.filter_singleton, Array.getElem?_push, if_pos rfl, Option.any_some]
  cases p r <;> rfl

end Grammar

namespace IndexedGrammar

open Grammar (Change offeredBy firstArrivals)

variable {g : IndexedGrammar} {plain : Grammar} {r : Rule}

/-! ### Tables and rules -/

/-- The rules are those of the grammar, the texts are theirs, and the tables answer what is found in the
grammar by going through all rules. -/
structure Represents (g : IndexedGrammar) (plain : Grammar) : Prop where
  grammar : g.toGrammar = plain
  texts : ∀ r : Rule, g.texts.contains r.render = plain.has r
  rulesFor : ∀ lhs, g.rulesFor lhs = (plain.rulesFor lhs).map Fin.val
  rulesStarting : ∀ first, g.rulesStarting first = (plain.rulesStarting first).map Fin.val

theorem represents_empty : empty.Represents Grammar.empty where
  grammar := rfl
  texts _ := rfl
  rulesFor _ := rfl
  rulesStarting _ := rfl

/-- A rule is entered under the key of its first symbol. -/
theorem key_first?_eq_iff (r : Rule) (first : Option Symbol) :
    r.first?.map Symbol.key = first.map Symbol.key ↔ r.startsWith first = true := by
  unfold Rule.startsWith
  cases r.first? with
  | none => cases first <;> simp
  | some s =>
      cases first with
      | none => simp
      | some t =>
          rw [Option.map_some, Option.map_some, Option.some_inj, Symbol.key_eq_iff, Symbol.same_comm]

theorem Represents.push (h : g.Represents plain) (hnew : plain.has r = false) :
    (g.add r).1.Represents (plain.add r).1 := by
  have htexts := h.texts r
  obtain rfl := h.grammar
  unfold add Grammar.add
  rw [htexts, hnew, if_neg Bool.false_ne_true, if_neg Bool.false_ne_true]
  refine ⟨rfl, fun q => ?_, fun lhs => ?_, fun first => ?_⟩
  · have hhas : Grammar.has ⟨g.rules.push r⟩ q = (g.toGrammar.has q || decide (r.render = q.render)) := by
      rw [Grammar.has, Array.toList_push, List.any_append, List.any_cons, List.any_nil, Bool.or_false]
      rfl
    refine Eq.trans ?_ hhas.symm
    rw [List.contains_cons, h.texts q, Bool.or_comm]
    refine congrArg _ ?_
    rw [Bool.eq_iff_iff, beq_iff_eq, decide_eq_true_iff, eq_comm]
  · refine (Table.get_enter _ _ _ _).trans ?_
    rw [Grammar.rulesFor, Grammar.map_val_select_push]
    refine congrArg₂ _ (h.rulesFor lhs) ?_
    simp only [decide_eq_true_eq]
    rfl
  · refine (Table.get_enter _ _ _ _).trans ?_
    rw [Grammar.rulesStarting, Grammar.map_val_select_push]
    refine congrArg₂ _ (h.rulesStarting first) ?_
    simp only [key_first?_eq_iff]
    rfl

theorem Represents.add (h : g.Represents plain) (r : Rule) :
    (g.add r).1.Represents (plain.add r).1 ∧ (g.add r).2 = (plain.add r).2 := by
  cases hhas : plain.has r with
  | false =>
      refine ⟨h.push hhas, ?_⟩
      unfold IndexedGrammar.add Grammar.add
      rw [h.texts, hhas]
      rfl
  | true =>
      unfold IndexedGrammar.add Grammar.add
      rw [h.texts, hhas]
      exact ⟨h, rfl⟩

theorem Represents.addAll (h : g.Represents plain) (rules : List Rule) :
    (g.addAll rules).1.Represents (plain.addAll rules).1 ∧
      (g.addAll rules).2 = (plain.addAll rules).2 := by
  unfold IndexedGrammar.addAll Grammar.addAll
  generalize 0 = n
  induction rules generalizing g plain n with
  | nil => exact ⟨h, rfl⟩
  | cons r rest ih =>
      obtain ⟨hadd, hnew⟩ := h.add r
      rcases hg : g.add r with ⟨g', new⟩
      rcases hp : plain.add r with ⟨plain', new'⟩
      rw [hg, hp] at hadd hnew
      obtain rfl : new = new' := hnew
      simp only [List.foldl_cons, hg, hp]
      cases new with
      | true => exact ih hadd (n + 1)
      | false => exact ih hadd n

/-- **Every change does the same** to a grammar with tables and to the one without, and answers the same. -/
theorem Represents.perform (h : g.Represents plain) (change : Change) :
    (g.perform change).1.Represents (plain.perform change).1 ∧
      (g.perform change).2 = (plain.perform change).2 := by
  cases change with
  | add r =>
      obtain ⟨hadd, hnew⟩ := h.add r
      exact ⟨hadd, congrArg Grammar.Reply.added hnew⟩
  | renew rules => exact ⟨(represents_empty.addAll rules).1, rfl⟩
  | extend v source =>
      dsimp only [IndexedGrammar.perform, Grammar.perform, IndexedGrammar.extend, Grammar.extend]
      cases Source.readRules v source.toList with
      | error e => exact ⟨h, rfl⟩
      | ok rules =>
          obtain ⟨hall, hcount⟩ := h.addAll rules
          exact ⟨hall, congrArg Grammar.Reply.extended hcount⟩

theorem Represents.performAll (h : g.Represents plain) (changes : List Change) :
    (g.performAll changes).1.Represents (plain.performAll changes).1 ∧
      (g.performAll changes).2 = (plain.performAll changes).2 := by
  induction changes generalizing g plain with
  | nil => exact ⟨h, rfl⟩
  | cons change rest ih =>
      obtain ⟨hchange, hreply⟩ := h.perform change
      obtain ⟨hrest, hreplies⟩ := ih hchange
      exact ⟨hrest, List.cons_eq_cons.2 ⟨hreply, hreplies⟩⟩

/-! ### Look-ups -/

/-- The numbers are those of the rules of this kind, in increasing order. -/
def Lists (g : IndexedGrammar) (numbers : List Nat) (kind : Rule → Prop) : Prop :=
  numbers.Pairwise (· < ·) ∧ ∀ n, n ∈ numbers ↔ ∃ r, g.rules[n]? = some r ∧ kind r

/-- Every look-up lists the rules that it is for. -/
structure Answers (g : IndexedGrammar) : Prop where
  rulesFor : ∀ lhs, g.Lists (g.rulesFor lhs) (fun r => r.lhs = lhs)
  rulesStarting : ∀ s, g.Lists (g.rulesStarting (some s))
    (fun r => ∃ first, r.rhs.head? = some first ∧ first.same s = true)
  rulesStartingWith : ∀ name, g.Lists (g.rulesStartingWith name)
    (fun r => r.rhs.head? = some (.nonterminal name))
  emptyRules : g.Lists g.emptyRules (fun r => r.rhs = [])
  emptyRulesFor : ∀ lhs, g.Lists (g.emptyRulesFor lhs) (fun r => r.lhs = lhs ∧ r.rhs = [])
  entityRules : g.Lists g.entityRules (fun r => r.entity = true)
  terminalRules : g.Lists g.terminalRules
    (fun r => ∃ first, r.rhs.head? = some first ∧ first.isScannable = true)

theorem lists_select (g : IndexedGrammar) {p : Rule → Bool} {kind : Rule → Prop}
    (hkind : ∀ r, p r = true ↔ kind r) : g.Lists (g.select p) kind := by
  refine ⟨List.pairwise_lt_range.filter _, fun n => ?_⟩
  unfold select
  rw [List.mem_filter, List.mem_range, Option.any_eq_true]
  simp only [hkind]
  refine and_iff_right_of_imp ?_
  rintro ⟨r, hr, -⟩
  exact (Array.getElem?_eq_some_iff.1 hr).1

theorem Represents.lists (h : g.Represents plain) {numbers : List Nat} {p : Rule → Bool}
    {kind : Rule → Prop} (hnumbers : numbers = (plain.select p).map Fin.val)
    (hkind : ∀ r, p r = true ↔ kind r) : g.Lists numbers kind := by
  obtain rfl := h.grammar
  rw [hnumbers, Grammar.map_val_select]
  exact g.lists_select hkind

theorem Lists.filter {numbers : List Nat} {kind kind' : Rule → Prop} {p : Rule → Bool}
    (h : g.Lists numbers kind) (hp : ∀ r, kind r ∧ p r = true ↔ kind' r) :
    g.Lists (numbers.filter (fun n => g.rules[n]?.any p)) kind' := by
  refine ⟨h.1.filter _, fun n => ?_⟩
  rw [List.mem_filter, h.2, Option.any_eq_true]
  constructor
  · rintro ⟨⟨r, hr, hkind⟩, q, hq, hpq⟩
    obtain rfl := Option.some.inj (hr.symm.trans hq)
    exact ⟨r, hr, (hp r).1 ⟨hkind, hpq⟩⟩
  · rintro ⟨r, hr, hkind⟩
    obtain ⟨hkind, hpr⟩ := (hp r).2 hkind
    exact ⟨⟨r, hr, hkind⟩, r, hr, hpr⟩

theorem startsWith_some_iff (r : Rule) (s : Symbol) : r.startsWith (some s) = true ↔
    ∃ first, r.rhs.head? = some first ∧ first.same s = true := by
  unfold Rule.startsWith Rule.first?
  cases r.rhs.head? with
  | none => simp
  | some t => simp [Symbol.same_comm s t]

theorem same_nonterminal_iff (s : Symbol) (name : String) :
    s.same (.nonterminal name) = true ↔ s = .nonterminal name := by
  cases s <;> simp [Symbol.same, Symbol.kind, Symbol.identity, Symbol.name]

theorem Represents.answers (h : g.Represents plain) : g.Answers where
  rulesFor lhs := h.lists (h.rulesFor lhs) (fun r => by simp)
  rulesStarting s := h.lists (h.rulesStarting (some s)) (fun r => startsWith_some_iff r s)
  rulesStartingWith name := h.lists (h.rulesStarting _)
    (fun r => by simp [startsWith_some_iff, same_nonterminal_iff])
  emptyRules := h.lists (h.rulesStarting none)
    (fun r => by cases hr : r.rhs <;> simp [Rule.startsWith, Rule.first?, hr])
  emptyRulesFor lhs := (h.lists (h.rulesFor lhs) (fun r => decide_eq_true_iff)).filter
    (fun r => by simp [Rule.isEmpty])
  entityRules := g.lists_select (fun r => Iff.rfl)
  terminalRules := g.lists_select
    (fun r => by simp [Rule.startsWithTerminal, Rule.first?, Option.any_eq_true])

/-! ### Growth -/

theorem size_addAll (g : Grammar) (rules : List Rule) :
    (g.addAll rules).1.rules.size = g.rules.size + (g.addAll rules).2 := by
  induction rules generalizing g with
  | nil => rfl
  | cons r rest ih =>
      have hadd : (g.add r).1.rules.size = g.rules.size + if (g.add r).2 then 1 else 0 := by
        unfold Grammar.add
        cases g.has r <;> simp
      rw [Grammar.addAll_cons, ih, hadd]
      omega

/-- **The tables stay in step with the rules.**  After any run of changes a grammar has the first arrivals of
what was offered to it, each look-up lists exactly the rules that it is for, in their order, and the grammar
without tables is at the same point, after the same answers.  A text that can be read adds as many rules as
it says, and one that cannot changes nothing. -/
theorem performAll_lookups (changes : List Change) :
    (empty.performAll changes).1.rules.toList = firstArrivals (offeredBy changes) ∧
      (empty.performAll changes).1.Answers ∧
      (empty.performAll changes).1.toGrammar = (Grammar.empty.performAll changes).1 ∧
      (empty.performAll changes).2 = (Grammar.empty.performAll changes).2 ∧
      ∀ v source,
        (∀ g' n, (empty.performAll changes).1.extend v source = .ok (g', n) →
          (empty.performAll changes).1.perform (.extend v source) = (g', .extended n) ∧
            g'.length = (empty.performAll changes).1.length + n) ∧
        (∀ e, (empty.performAll changes).1.extend v source = .error e →
          (empty.performAll changes).1.perform (.extend v source) =
            ((empty.performAll changes).1, .failure e)) := by
  obtain ⟨h, hreplies⟩ := represents_empty.performAll changes
  have hrules := Grammar.rules_performAll Grammar.rules_empty changes
  refine ⟨?_, h.answers, h.grammar, hreplies, fun v source => ⟨fun g' n hextend => ?_, fun e he => ?_⟩⟩
  · rw [← h.grammar] at hrules
    exact hrules
  · refine ⟨by dsimp only [perform]; rw [hextend], ?_⟩
    unfold extend at hextend
    cases hread : Source.readRules v source.toList with
    | error e => simp [hread, bind, Except.bind] at hextend
    | ok rules =>
        rw [hread] at hextend
        obtain ⟨hall, hcount⟩ := h.addAll rules
        have hpair := Except.ok.inj hextend
        have hsize := size_addAll (Grammar.empty.performAll changes).1 rules
        rw [← hall.grammar, ← hcount, ← h.grammar, hpair] at hsize
        exact hsize
  · dsimp only [perform]
    rw [he]

end IndexedGrammar

end ChartParsing
