import ChartParsing.Proofs.Grammar.Writing

/-!
# Rules from their items

The items of a written rule put the rule together again.  Symbols, actions and options change
different parts of a rule (**`foldlM_addTo`**), and options with different keys do so too, so it
does not matter where the options stand (**`foldl_addTo_of_perm`**).  Classes are put in their
places one after the other, and those that come in order are only put behind one another.

The main result is **`Writing.foldlM_items`**.
-/

namespace ChartParsing

/-! ### Classes in order -/

theorem insertClass_of_lt {c : String} {list : List String} (h : ∀ d ∈ list, d < c) :
    insertClass c list = list ++ [c] := by
  induction list with
  | nil => rfl
  | cons d ds ih =>
      have hd : d < c := h d (by simp)
      have hne : c ≠ d := by
        rintro rfl
        exact String.lt_irrefl c hd
      rw [insertClass, if_neg hne,
        if_neg (fun hc => String.lt_irrefl d (String.lt_trans hd hc)),
        ih (fun e he => h e (List.mem_cons_of_mem d he)), List.cons_append]

theorem insertPrecedence_of_lt {c : String} {value : Int} {list : List (String × Int)}
    (h : ∀ p ∈ list, p.1 < c) : insertPrecedence c value list = list ++ [(c, value)] := by
  induction list with
  | nil => rfl
  | cons p ps ih =>
      have hp : p.1 < c := h p (by simp)
      have hne : c ≠ p.1 := by
        rintro rfl
        exact String.lt_irrefl p.1 hp
      rw [insertPrecedence, if_neg hne,
        if_neg (fun hc => String.lt_irrefl p.1 (String.lt_trans hp hc)),
        ih (fun q hq => h q (List.mem_cons_of_mem p hq)), List.cons_append]

/-- What is inserted in order is appended. -/
theorem foldl_insert_of_pairwise {α : Type} {lt : α → α → Prop} {insert : List α → α → List α}
    (hinsert : ∀ list a, (∀ b ∈ list, lt b a) → insert list a = list ++ [a]) {list : List α}
    (h : list.Pairwise lt) : list.foldl insert [] = list := by
  suffices hfold : ∀ acc : List α, (acc ++ list).Pairwise lt → list.foldl insert acc = acc ++ list by
    simpa using hfold [] (by simpa using h)
  induction list with
  | nil => exact fun acc _ => (List.append_nil acc).symm
  | cons a rest ih =>
      intro acc hacc
      have ha : ∀ b ∈ acc, lt b a := fun b hb => (List.pairwise_append.1 hacc).2.2 b hb a (by simp)
      rw [List.foldl_cons, hinsert acc a ha, ih h.of_cons (acc ++ [a]) (by simpa using hacc),
        List.append_assoc, List.singleton_append]

namespace Source

/-! ### Options -/

namespace RuleOption

variable {r : Rule}

/-- An option changes the part of the rule that its key stands for. -/
theorem addTo_eq (o : RuleOption) (r : Rule) : o.addTo r = match o with
    | .entity flag => { r with entity := flag }
    | .weight w => { r with weight := w }
    | .priority p => { r with priority := some p }
    | .precedence list => { r with operators := { r.operators with
        precedence := list.foldl (fun l p => insertPrecedence p.1 p.2 l) r.operators.precedence } }
    | .left list => { r with operators := { r.operators with
        left := list.foldl (fun l c => insertClass c l) r.operators.left } }
    | .right list => { r with operators := { r.operators with
        right := list.foldl (fun l c => insertClass c l) r.operators.right } }
    | .non list => { r with operators := { r.operators with
        non := list.foldl (fun l c => insertClass c l) r.operators.non } } := by
  cases o with
  | entity | weight | priority => rfl
  | precedence list =>
      induction list generalizing r with
      | nil => rfl
      | cons p rest ih => exact ih (r.withPrecedence p.1 p.2)
  | left list =>
      induction list generalizing r with
      | nil => rfl
      | cons c rest ih => exact ih (r.withLeft c)
  | right list =>
      induction list generalizing r with
      | nil => rfl
      | cons c rest ih => exact ih (r.withRight c)
  | non list =>
      induction list generalizing r with
      | nil => rfl
      | cons c rest ih => exact ih (r.withNon c)

/-- Options leave the symbols and the action alone. -/
theorem addTo_with (o : RuleOption) (rhs : List Symbol) (action : Option Action) :
    o.addTo { r with rhs, action } = { o.addTo r with rhs, action } := by
  rw [addTo_eq, addTo_eq]
  cases o <;> rfl

theorem rhs_addTo (o : RuleOption) : (o.addTo r).rhs = r.rhs := by
  rw [addTo_eq]
  cases o <;> rfl

theorem action_addTo (o : RuleOption) : (o.addTo r).action = r.action := by
  rw [addTo_eq]
  cases o <;> rfl

/-- Options with different keys change different parts of a rule. -/
theorem addTo_comm {o p : RuleOption} (h : o.key ≠ p.key) :
    p.addTo (o.addTo r) = o.addTo (p.addTo r) := by
  simp only [addTo_eq]
  cases o <;> cases p <;> first | exact absurd rfl h | rfl

end RuleOption

/-! ### Items -/

/-- The symbols of a row of items are appended, the action is kept, and the options are set. -/
theorem foldlM_addTo {items : List Item} {r : Rule}
    (h : r.action.toList.length + (items.filterMap Item.action?).length ≤ 1) :
    items.foldlM Item.addTo r = .ok ((items.filterMap Item.option?).foldl RuleOption.addTo
      { r with
        rhs := r.rhs ++ items.filterMap Item.symbol?
        action := r.action.or (items.filterMap Item.action?).head? }) := by
  induction items generalizing r with
  | nil =>
      simp only [List.filterMap_nil, List.append_nil, List.head?_nil, Option.or_none]
      rfl
  | cons item rest ih =>
      rw [List.foldlM_cons]
      -- the options come last in the result, so one of them is moved past the symbols and the action
      cases item with
      | symbol s =>
          have hrest := ih (r := { r with rhs := r.rhs ++ [s] }) h
          simp only [List.append_assoc, List.singleton_append] at hrest
          exact hrest
      | action a =>
          have hnone : r.action = none := by
            cases haction : r.action with
            | none => rfl
            | some b =>
                simp only [haction, List.filterMap_cons, Item.action?, Option.toList_some,
                  List.length_cons] at h
                omega
          have hrest := ih (r := { r with action := some a }) (by
            simp only [List.filterMap_cons, Item.action?, List.length_cons] at h
            simp only [Option.toList_some, List.length_singleton]
            omega)
          have hadd : Item.addTo r (.action a) = .ok { r with action := some a } := by
            simp [Item.addTo, hnone, Rule.withAction]
          rw [hadd]
          simp only [hnone, Option.none_or]
          exact hrest
      | option o =>
          have hrest := ih (r := o.addTo r) (by rwa [RuleOption.action_addTo])
          rw [RuleOption.rhs_addTo, RuleOption.action_addTo, ← RuleOption.addTo_with] at hrest
          exact hrest

end Source

open Source

namespace Rule

/-! ### The options of a rule -/

variable {r : Rule}

theorem key_of_option? {key : OptionKey} {o : RuleOption} (h : r.option? key = some o) :
    o.key = key := by
  have hlist : ∀ {α : Type} {option : List α → RuleOption} {list : List α},
      option?.unlessEmpty option list = some o → option list = o := by
    intro α option list h
    rw [option?.unlessEmpty, Option.ite_none_left_eq_some] at h
    exact Option.some.inj h.2
  cases key with
  | entity =>
      rw [option?, Option.ite_none_right_eq_some] at h
      rw [← Option.some.inj h.2]
      rfl
  | weight => simp [option?] at h
  | priority =>
      obtain ⟨p, _, rfl⟩ := Option.map_eq_some_iff.1 h
      rfl
  | precedence => exact (hlist h) ▸ rfl
  | left => exact (hlist h) ▸ rfl
  | right => exact (hlist h) ▸ rfl
  | non => exact (hlist h) ▸ rfl

/-- No two options that a rule is written with have the same key. -/
theorem eq_of_mem_written {o p : RuleOption} (ho : o ∈ r.written) (hp : p ∈ r.written)
    (h : o.key = p.key) : o = p := by
  obtain ⟨k, _, hk⟩ := List.mem_filterMap.1 ho
  obtain ⟨l, _, hl⟩ := List.mem_filterMap.1 hp
  rw [key_of_option? hk, key_of_option? hl] at h
  exact Option.some.inj (hk.symm.trans (h ▸ hl))

/-- The options of a rule can be set in any order. -/
theorem foldl_addTo_of_perm {options : List RuleOption} (h : options.Perm r.written) (x : Rule) :
    options.foldl RuleOption.addTo x = r.written.foldl RuleOption.addTo x := by
  refine h.foldl_eq' (fun o ho p hp x => ?_) x
  -- of options with the same key there is only one
  by_cases hkey : o.key = p.key
  · rw [eq_of_mem_written (h.subset ho) (h.subset hp) hkey]
  · exact RuleOption.addTo_comm hkey

/-- Sets an option, if there is one. -/
def setOption (x : Rule) : Option RuleOption → Rule
  | some o => o.addTo x
  | none => x

theorem setOption_entity {x : Rule} (h : x.entity = false) :
    x.setOption (r.option? .entity) = { x with entity := r.entity } := by
  unfold option?
  cases r.entity with
  | false =>
      show x = _
      rw [← h]
  | true => rfl

theorem setOption_priority {x : Rule} (h : x.priority = none) :
    x.setOption (r.option? .priority) = { x with priority := r.priority } := by
  unfold option?
  cases r.priority with
  | none =>
      show x = _
      rw [← h]
  | some p => rfl

/-- A list that is left out because it is empty could as well have been set. -/
theorem setOption_unlessEmpty {α : Type} {option : List α → RuleOption} {list : List α} {x : Rule}
    (h : list = [] → (option list).addTo x = x) :
    x.setOption (option?.unlessEmpty option list) = (option list).addTo x := by
  unfold option?.unlessEmpty
  by_cases hlist : list = []
  · rw [if_pos hlist, h hlist, setOption]
  · rw [if_neg hlist, setOption]

theorem setOption_precedence {x : Rule} (h : x.operators.precedence = [])
    (hr : r.operators.precedence.Pairwise (fun p q => p.1 < q.1)) :
    x.setOption (r.option? .precedence) = { x with operators := { x.operators with
      precedence := r.operators.precedence } } := by
  have hlist := foldl_insert_of_pairwise (fun list a hlt => insertPrecedence_of_lt hlt) hr
  rw [option?, setOption_unlessEmpty (fun hempty => by rw [hempty]; rfl), RuleOption.addTo_eq]
  simp only [h, hlist]

/-- Classes that come in order are put together as they are. -/
theorem foldl_insertClass_of_pairwise {list : List String} (h : list.Pairwise (· < ·)) :
    list.foldl (fun l c => insertClass c l) [] = list :=
  foldl_insert_of_pairwise (fun _ _ hlt => insertClass_of_lt hlt) h

theorem setOption_left {x : Rule} (h : x.operators.left = [])
    (hr : r.operators.left.Pairwise (· < ·)) : x.setOption (r.option? .left) =
      { x with operators := { x.operators with left := r.operators.left } } := by
  rw [option?, setOption_unlessEmpty (fun hempty => by rw [hempty]; rfl), RuleOption.addTo_eq]
  simp only [h, foldl_insertClass_of_pairwise hr]

theorem setOption_right {x : Rule} (h : x.operators.right = [])
    (hr : r.operators.right.Pairwise (· < ·)) : x.setOption (r.option? .right) =
      { x with operators := { x.operators with right := r.operators.right } } := by
  rw [option?, setOption_unlessEmpty (fun hempty => by rw [hempty]; rfl), RuleOption.addTo_eq]
  simp only [h, foldl_insertClass_of_pairwise hr]

theorem setOption_non {x : Rule} (h : x.operators.non = [])
    (hr : r.operators.non.Pairwise (· < ·)) : x.setOption (r.option? .non) =
      { x with operators := { x.operators with non := r.operators.non } } := by
  rw [option?, setOption_unlessEmpty (fun hempty => by rw [hempty]; rfl), RuleOption.addTo_eq]
  simp only [h, foldl_insertClass_of_pairwise hr]

/-- The options that a rule is written with make a rule without options the rule itself. -/
theorem foldl_written {v : Vocabulary} (h : r.Expressible v) :
    r.written.foldl RuleOption.addTo { of r.lhs r.rhs with action := r.action } = r := by
  have hset : ∀ x, r.written.foldl RuleOption.addTo x =
      OptionKey.all.foldl (fun x key => x.setOption (r.option? key)) x := by
    intro x
    rw [written, List.foldl_filterMap]
    congr 1
    funext x key
    cases r.option? key <;> rfl
  have hweight : ∀ x : Rule, x.setOption (r.option? .weight) = x := fun _ => rfl
  rw [hset]
  simp only [OptionKey.all, List.foldl_cons, List.foldl_nil]
  rw [setOption_entity rfl, hweight, setOption_priority rfl, setOption_precedence rfl h.precedence,
    setOption_left rfl h.left, setOption_right rfl h.right, setOption_non rfl h.non]
  simp only [of, ← h.weight]

end Rule

/-- **The items of a written rule put the rule together.** -/
theorem Writing.foldlM_items {v : Vocabulary} {r : Rule} (w : Writing r) (h : r.Expressible v) :
    (w.items.map Prod.snd).foldlM Source.Item.addTo (Rule.of r.lhs []) = .ok r := by
  have hsymbols : (w.items.map Prod.snd).filterMap Source.Item.symbol? = r.rhs := by
    rw [List.filterMap_map]
    exact w.symbols
  have haction : (w.items.map Prod.snd).filterMap Source.Item.action? = r.action.toList := by
    rw [List.filterMap_map]
    exact w.action
  have hoptions : ((w.items.map Prod.snd).filterMap Source.Item.option?).Perm r.written := by
    rw [List.filterMap_map]
    exact w.options
  have hcount : r.action.toList.length ≤ 1 := by
    cases r.action <;> simp
  rw [foldlM_addTo (by rw [haction]; exact (Nat.zero_add _).symm ▸ hcount), hsymbols, haction,
    Rule.foldl_addTo_of_perm hoptions]
  have hhead : (Rule.of r.lhs []).action.or r.action.toList.head? = r.action := by
    cases r.action <;> rfl
  rw [hhead]
  exact congrArg Except.ok (Rule.foldl_written h)

end ChartParsing
