import ChartParsing.Proofs.Grammar.Loading
import ChartParsing.Proofs.Grammar.Readers

/-!
# Rules that were read

What is known of the rules of a text, whatever the text: names are names, classes are rows of characters of
names, and patterns, lexicons, gaps and actions are those that the vocabulary has for them.  Nothing is known
of literals.

Each item of an alternative keeps a rule `Loaded`, so each rule that is read is: **`ReadsRules.loaded`**.
-/

namespace ChartParsing

open Lexeme Source

variable {v : Vocabulary} {t rest : Text}

/-- The symbol is one of a text. -/
def Symbol.Loaded (v : Vocabulary) : Symbol → Prop
  | .nonterminal name => IsName name.toList
  | .literal _ => True
  | .pattern t => PatternTerminal.compile t.source false .anywhere = .ok t
  | .entity name t => v.entity name = .ok (.entity name t) ∧ IsRow isEntityChar name.toList
  | .gap g => v.gap g.name = .ok (.gap g) ∧ IsRow isEntityChar g.name.toList

/-- All classes are rows of characters of names. -/
structure Operators.Loaded (o : Operators) : Prop where
  precedence : ∀ p ∈ o.precedence, IsRow isNameChar p.1.toList
  left : ∀ c ∈ o.left, IsRow isNameChar c.toList
  right : ∀ c ∈ o.right, IsRow isNameChar c.toList
  non : ∀ c ∈ o.non, IsRow isNameChar c.toList

/-- The rule is one of a text. -/
structure Rule.Loaded (v : Vocabulary) (r : Rule) : Prop where
  lhs : IsName r.lhs.toList
  symbols : ∀ s ∈ r.rhs, s.Loaded v
  action : ∀ a ∈ r.action, v.action a.name = .ok a ∧ IsRow isActionChar a.name.toList
  operators : r.operators.Loaded

namespace Source

/-- The classes of an option are rows of characters of names. -/
def RuleOption.Loaded : RuleOption → Prop
  | .entity _ | .weight _ | .priority _ => True
  | .precedence list => ∀ p ∈ list, IsRow isNameChar p.1.toList
  | .left list | .right list | .non list => ∀ c ∈ list, IsRow isNameChar c.toList

/-- The item is one of a text. -/
def Item.Loaded (v : Vocabulary) : Item → Prop
  | .symbol s => s.Loaded v
  | .action a => v.action a.name = .ok a ∧ IsRow isActionChar a.name.toList
  | .option o => o.Loaded

/-! ### Words -/

theorem isRow_of_row? {p : Char → Bool} {w : Text} (h : row? p t = some (w, rest)) : IsRow p w :=
  have hrow := row?_eq_some h
  ⟨hrow.2.1, hrow.2.2.1⟩

theorem isRow_of_bracketed? {opening closing : String} {p : Char → Bool} {w : Text}
    (h : bracketed? opening closing p t = some (w, rest)) : IsRow p w := by
  obtain ⟨inner, left, -, hrow, -⟩ := bracketed?_eq_some h
  exact isRow_of_row? hrow

section Lists

variable {α : Type} {item? : Text → Option (α × Text)} {list : List α} {P : α → Prop}

/-- What holds of each item that is read holds of all of a list. -/
theorem forall_of_moreItems (hitem : ∀ {t a r}, item? t = some (a, r) → P a) (fuel : Nat) (t : Text) :
    ∀ a ∈ (moreItems item? fuel t).1, P a := by
  induction fuel generalizing t with
  | zero => simp [moreItems]
  | succ fuel ih =>
      unfold moreItems
      cases t.dropBlanks.dropPrefix? [','] with
      | none => simp
      | some inner =>
          dsimp only
          cases hfirst : item? inner.dropBlanks with
          | none => simp
          | some found =>
              intro a ha
              rcases List.mem_cons.1 ha with rfl | ha
              · exact hitem hfirst
              · exact ih found.2 a ha

theorem forall_of_items? (hitem : ∀ {t a r}, item? t = some (a, r) → P a)
    (h : items? item? t = some (list, rest)) : ∀ a ∈ list, P a := by
  obtain ⟨first, left, others, hfirst, hmore, rfl⟩ := items?_eq_some h
  intro a ha
  rcases List.mem_cons.1 ha with rfl | ha
  · exact hitem hfirst
  · have hall : ∀ a ∈ (moreItems item? left.length left).1, P a := forall_of_moreItems hitem _ _
    rw [hmore] at hall
    exact hall a ha

end Lists

theorem isRow_of_classes? {list : List Text} (h : classes? t = some (list, rest)) :
    ∀ c ∈ list.map String.ofList, IsRow isNameChar c.toList := by
  intro c hc
  obtain ⟨w, hw, rfl⟩ := List.mem_map.1 hc
  rw [String.toList_ofList]
  exact forall_of_items? isRow_of_row? h w hw

/-- Precedences have the classes that they were written with. -/
theorem isRow_of_mapM {list : List Lexeme.Precedence} {classes : List (String × Int)}
    (hlist : ∀ q ∈ list, IsRow isNameChar q.cls) (h : list.mapM precedenceValue = .ok classes) :
    ∀ p ∈ classes, IsRow isNameChar p.1.toList := by
  induction list generalizing classes with
  | nil =>
      obtain rfl := Except.ok.inj h
      simp
  | cons q rest ih =>
      rw [List.mapM_cons] at h
      obtain ⟨p, hp, h⟩ := bind_eq_ok.1 h
      obtain ⟨others, hothers, h⟩ := bind_eq_ok.1 h
      obtain rfl := Except.ok.inj h
      intro p' hp'
      rcases List.mem_cons.1 hp' with rfl | hp'
      · unfold precedenceValue at hp
        split at hp
        · obtain rfl := Except.ok.inj hp
          rw [String.toList_ofList]
          exact hlist q List.mem_cons_self
        · simp at hp
      · exact ih (fun q hq => hlist q (List.mem_cons_of_mem _ hq)) hothers p' hp'

/-! ### Items -/

theorem ReadsOption.loaded {key : OptionKey} {o : RuleOption} (h : ReadsOption key t o rest) :
    o.Loaded := by
  cases h with
  | entity _ => trivial
  | weight _ _ => trivial
  | priority _ _ => trivial
  | precedence h hc =>
      refine isRow_of_mapM (fun q hq => ?_) hc
      refine forall_of_items? (P := fun q => IsRow isNameChar q.cls) (fun hq => ?_) h q hq
      obtain ⟨left, inner, hrow, -⟩ := precedence?_eq_some hq
      exact isRow_of_row? hrow
  | left h => exact isRow_of_classes? h
  | right h => exact isRow_of_classes? h
  | non h => exact isRow_of_classes? h

/-- What the vocabulary has under a name has this name. -/
theorem loaded_of_entity {name : String} {s : Symbol} (hname : IsRow isEntityChar name.toList)
    (h : v.entity name = .ok s) : s.Loaded v := by
  have hsame := h
  unfold Vocabulary.entity at h
  split at h
  · obtain rfl := Except.ok.inj h
    exact ⟨hsame, hname⟩
  · simp at h

theorem loaded_of_gap {name : String} {s : Symbol} (hname : IsRow isEntityChar name.toList)
    (h : v.gap name = .ok s) : s.Loaded v := by
  have hsame := h
  unfold Vocabulary.gap at h
  split at h
  · next g hg =>
    obtain rfl := Except.ok.inj h
    obtain rfl : g.name = name :=
      of_decide_eq_true (List.find?_some (p := fun g : Gap => decide (g.name = name)) hg)
    exact ⟨hsame, hname⟩
  · simp at h

theorem loaded_of_action {name : String} {a : Action} (hname : IsRow isActionChar name.toList)
    (h : v.action name = .ok a) : v.action a.name = .ok a ∧ IsRow isActionChar a.name.toList := by
  have hsame := h
  unfold Vocabulary.action at h
  split at h
  · next b hb =>
    obtain rfl := Except.ok.inj h
    obtain rfl : b.name = name :=
      of_decide_eq_true (List.find?_some (p := fun b : Action => decide (b.name = name)) hb)
    exact ⟨hsame, hname⟩
  · simp at h

theorem ReadsItem.loaded {item : Item} (h : ReadsItem v t item rest) : item.Loaded v := by
  have hrow {p : Char → Bool} {w : Text} (h : IsRow p w) : IsRow p (String.ofList w).toList := by
    rwa [String.toList_ofList]
  cases h with
  | option _ ho => exact ho.loaded
  | action _ hname ha => exact loaded_of_action (hrow (isRow_of_bracketed? hname)) ha
  | literal _ _ _ => trivial
  | pattern _ _ _ _ hcompile =>
      show PatternTerminal.compile _ false .anywhere = _
      rw [source_of_compile hcompile]
      exact hcompile
  | entity _ _ _ _ hname hs => exact loaded_of_entity (hrow (isRow_of_bracketed? hname)) hs
  | gap _ _ _ _ _ hname hs => exact loaded_of_gap (hrow (isRow_of_bracketed? hname)) hs
  | nonterminal _ _ _ _ _ _ hname =>
      show IsName (String.ofList _).toList
      rw [String.toList_ofList]
      exact (name?_eq_some hname).2.1

end Source

/-! ### Options in rules -/

theorem mem_insertClass {c d : String} {list : List String} (h : d ∈ insertClass c list) :
    d = c ∨ d ∈ list := by
  induction list with
  | nil => exact .inl (by simpa [insertClass] using h)
  | cons e rest ih =>
      unfold insertClass at h
      split at h
      · exact .inr h
      · split at h
        · rcases List.mem_cons.1 h with rfl | h
          · exact .inl rfl
          · exact .inr h
        · rcases List.mem_cons.1 h with rfl | h
          · exact .inr List.mem_cons_self
          · exact (ih h).imp_right (List.mem_cons_of_mem e)

theorem mem_insertPrecedence {c : String} {value : Int} {p : String × Int} {list : List (String × Int)}
    (h : p ∈ insertPrecedence c value list) : p.1 = c ∨ p ∈ list := by
  induction list with
  | nil => exact .inl (by simp [insertPrecedence] at h; rw [h])
  | cons e rest ih =>
      unfold insertPrecedence at h
      split at h
      · next hsame =>
        rcases List.mem_cons.1 h with rfl | h
        · exact .inl hsame.symm
        · exact .inr (List.mem_cons_of_mem e h)
      · split at h
        · rcases List.mem_cons.1 h with rfl | h
          · exact .inl rfl
          · exact .inr h
        · rcases List.mem_cons.1 h with rfl | h
          · exact .inr List.mem_cons_self
          · exact (ih h).imp_right (List.mem_cons_of_mem e)

namespace Rule.Loaded

variable {r r' : Rule} {rules : List Rule}

/-- A rule that differs in its weight, its priority or its mark only. -/
theorem congr (h : r.Loaded v) (hlhs : r'.lhs = r.lhs) (hrhs : r'.rhs = r.rhs)
    (haction : r'.action = r.action) (hoperators : r'.operators.Loaded) : r'.Loaded v where
  lhs := hlhs ▸ h.lhs
  symbols := hrhs ▸ h.symbols
  action := haction ▸ h.action
  operators := hoperators

/-- A class more, of those that are not given here, is one more class. -/
theorem foldl {α : Type} {f : Rule → α → Rule} {P : α → Prop}
    (hf : ∀ (r : Rule) (a : α), r.Loaded v → P a → (f r a).Loaded v) (list : List α)
    (hlist : ∀ a ∈ list, P a) (h : r.Loaded v) : (list.foldl f r).Loaded v := by
  induction list generalizing r with
  | nil => exact h
  | cons a rest ih =>
      exact ih (fun b hb => hlist b (List.mem_cons_of_mem a hb)) (hf r a h (hlist a List.mem_cons_self))

theorem addOption {o : RuleOption} (h : r.Loaded v) (ho : o.Loaded) : (o.addTo r).Loaded v := by
  have hoperators := h.operators
  cases o with
  | entity flag => exact h.congr rfl rfl rfl hoperators
  | weight w => exact h.congr rfl rfl rfl hoperators
  | priority p => exact h.congr rfl rfl rfl hoperators
  | precedence list =>
      refine foldl (P := fun p : String × Int => IsRow isNameChar p.1.toList)
        (fun r p h hp => ?_) list ho h
      refine h.congr rfl rfl rfl { h.operators with precedence := fun q hq => ?_ }
      rcases mem_insertPrecedence hq with hsame | hq
      · rw [hsame]
        exact hp
      · exact h.operators.precedence q hq
  | left list =>
      refine foldl (P := fun c : String => IsRow isNameChar c.toList) (fun r c h hc => ?_) list ho h
      refine h.congr rfl rfl rfl { h.operators with left := fun d hd => ?_ }
      rcases mem_insertClass hd with rfl | hd
      · exact hc
      · exact h.operators.left d hd
  | right list =>
      refine foldl (P := fun c : String => IsRow isNameChar c.toList) (fun r c h hc => ?_) list ho h
      refine h.congr rfl rfl rfl { h.operators with right := fun d hd => ?_ }
      rcases mem_insertClass hd with rfl | hd
      · exact hc
      · exact h.operators.right d hd
  | non list =>
      refine foldl (P := fun c : String => IsRow isNameChar c.toList) (fun r c h hc => ?_) list ho h
      refine h.congr rfl rfl rfl { h.operators with non := fun d hd => ?_ }
      rcases mem_insertClass hd with rfl | hd
      · exact hc
      · exact h.operators.non d hd

theorem addItem {item : Source.Item} (h : r.Loaded v) (hitem : item.Loaded v)
    (hadd : item.addTo r = .ok r') : r'.Loaded v := by
  cases item with
  | symbol s =>
      obtain rfl := Except.ok.inj hadd
      refine ⟨h.lhs, fun s' hs' => ?_, h.action, h.operators⟩
      rcases List.mem_append.1 hs' with hs' | hs'
      · exact h.symbols s' hs'
      · obtain rfl := List.mem_singleton.1 hs'
        exact hitem
  | action a =>
      unfold Source.Item.addTo at hadd
      dsimp only at hadd
      split at hadd
      · simp at hadd
      · obtain rfl := Except.ok.inj hadd
        refine ⟨h.lhs, h.symbols, fun b hb => ?_, h.operators⟩
        obtain rfl : a = b := Option.some.inj hb
        exact hitem
  | option o =>
      obtain rfl := Except.ok.inj hadd
      exact h.addOption hitem

end Rule.Loaded

/-! ### Rules -/

namespace Source

variable {r r' : Rule} {rules : List Rule} {lhs : String}

theorem ReadsItems.loaded (h : ReadsItems v r t r' rest) (hr : r.Loaded v) : r'.Loaded v := by
  induction h with
  | done _ => exact hr
  | item _ hitem hadd _ ih => exact ih (hr.addItem hitem.loaded hadd)

theorem ReadsAlternatives.loaded (h : ReadsAlternatives v lhs t rules rest) (hlhs : IsName lhs.toList) :
    ∀ r ∈ rules, r.Loaded v := by
  have hempty : (Rule.of lhs []).Loaded v := by
    refine ⟨hlhs, by simp [Rule.of], by simp [Rule.of], ?_⟩
    constructor <;> simp [Rule.of, Operators.none]
  induction h with
  | last h _ =>
      intro r hr
      obtain rfl := List.mem_singleton.1 hr
      exact h.loaded hempty
  | bar h _ _ ih =>
      intro r hr
      rcases List.mem_cons.1 hr with rfl | hr
      · exact h.loaded hempty
      · exact ih r hr

/-- **All rules of a text** are loaded. -/
theorem ReadsRules.loaded (h : ReadsRules v t rules) : ∀ r ∈ rules, r.Loaded v := by
  induction h with
  | done _ => simp
  | rule _ hrule _ ih =>
      obtain ⟨name, left, inner, hname, -, halternatives⟩ := hrule
      have hlhs : IsName (String.ofList name).toList := by
        rw [String.toList_ofList]
        exact (name?_eq_some hname).2.1
      intro r hr
      rcases List.mem_append.1 hr with hr | hr
      · exact halternatives.loaded hlhs r hr
      · exact ih r hr

end Source

end ChartParsing
