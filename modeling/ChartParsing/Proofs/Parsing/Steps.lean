import ChartParsing.Proofs.Parsing.Additions

/-!
# The steps of a parser

`Handled` says that all has been found which an edge brings by itself, and `Joined` that a finished edge
was put into an open one.  Neither can be lost again.  The main statements are about `process`.

* **`process_grows`**: the chart grows by additions that the parser may make.
* **`process_handled`**: the edge is handled afterwards.
* **`process_joined`**: it has been joined with every edge that was in the chart before, on whichever
  side of the other one it belongs.

The last one is what makes the order of work irrelevant: of two edges that fit, the one that is processed
later finds the other one in the chart.
-/

namespace ChartParsing

variable {rules : Array Rule}

namespace Chart

variable {c : Chart rules} {n : Nat} {i : Item rules}

theorem mem_select {p : Item rules → Bool} :
    n ∈ c.select p ↔ ∃ i, c.item? n = some i ∧ p i = true := by
  unfold select
  rw [List.mem_filter, List.mem_range, Option.any_eq_true]
  constructor
  · rintro ⟨-, i, hi, hp⟩
    exact ⟨i, hi, hp⟩
  · rintro ⟨i, hi, hp⟩
    exact ⟨lt_size_of_item? hi, i, hi, hp⟩

theorem advance_of_allowed {base child : Nat} {o f : Item rules} (ho : c.item? base = some o)
    (hf : c.item? child = some f) (hv : veto? o f = none) :
    (c.advance base child).1 = (c.add ⟨o.joined f, [⟨some base, some child, none⟩]⟩ .agenda).1 := by
  simp [advance, ho, hf, hv]

theorem advance_of_vetoed {base child : Nat} {o f : Item rules} (ho : c.item? base = some o)
    (hf : c.item? child = some f) (hv : veto? o f ≠ none) : (c.advance base child).1 = c := by
  simp [advance, ho, hf, Option.isSome_iff_ne_none.2 hv]

theorem scan_of_item {stop : Position} {texts : List String} {start : Option Position}
    (hi : c.item? n = some i) :
    (c.scan n stop texts start).1 =
      (c.add ⟨i.step (start.getD i.start) stop, [⟨some n, none, some texts⟩]⟩ .agenda).1 := by
  simp [scan, hi]

end Chart

namespace Parser

variable {g : Grammar} {strategy : Strategy} {lexer : Lexer} {input : Text}
  {c c' : Chart g.rules} {i o f : Item g.rules} {n m : Nat}

/-! ### What is to be found -/

/-- All that an edge brings by itself is in the chart. -/
structure Handled (strategy : Strategy) (lexer : Lexer) (input : Text) (c : Chart g.rules)
    (i : Item g.rules) (n : Nat) : Prop where
  /-- Bottom up, the rules that start with a finished nonterminal are there. -/
  started : strategy.isBottomUp = true → i.isReduced = true →
    ∀ r ∈ g.rulesStartingWith i.lhs, c.Has (.initial r i.start)
  /-- Unless rules are found from their starts only, the rules for a wanted nonterminal are there. -/
  wanted : strategy.predictsWanted = true → ∀ name, i.wanted? = some name →
    ∀ r ∈ g.rulesFor name, c.Has (.initial r i.stop)
  /-- Bottom up, the empty ones of them are. -/
  emptyWanted : strategy.isBottomUp = true → ∀ name, i.wanted? = some name →
    ∀ r ∈ g.emptyRulesFor name, c.Has (.initial r i.stop)
  /-- The edge was moved over what the lexer finds for its terminal. -/
  scanned : ∀ s, i.next? = some s → s.isScannable = true → ∀ p, i.stop = .offset p →
    ∀ m, lexer s input p = some m → c.Records (i.step i.start (.offset m.stop)) n none
  /-- An edge without a place was moved over the terminal wherever that stands. -/
  scannedAnywhere : ∀ s, i.next? = some s → s.isScannable = true → i.stop = .anywhere →
    ∀ x ∈ s.occurrences input, ∀ m, lexer s input x.start = some m →
      c.Records (i.step (.offset x.start) (.offset m.stop)) n none

theorem Handled.mono (hc : c.Extends c') (h : Handled strategy lexer input c i n) :
    Handled strategy lexer input c' i n where
  started hs hd r hr := hc.has (h.started hs hd r hr)
  wanted hs name hw r hr := hc.has (h.wanted hs name hw r hr)
  emptyWanted hs name hw r hr := hc.has (h.emptyWanted hs name hw r hr)
  scanned s hn hs p hp m hm := hc.records (h.scanned s hn hs p hp m hm)
  scannedAnywhere s hn hs hp x hx m hm := hc.records (h.scannedAnywhere s hn hs hp x hx m hm)

/-- If the second edge can be put into the first one, it was. -/
def Joined (c : Chart g.rules) (n m : Nat) : Prop :=
  ∀ o f, c.item? n = some o → c.item? m = some f → o.Takes f → c.Records (o.joined f) n (some m)

/-- A pair of edges stays joined, as long as both were in the chart. -/
theorem Joined.mono (hc : c.Extends c') (hn : n < c.size) (hm : m < c.size) (h : Joined c n m) :
    Joined c' n m := by
  intro o f ho hf ht
  obtain ⟨o', ho'⟩ := Chart.exists_item_of_lt_size hn
  obtain ⟨f', hf'⟩ := Chart.exists_item_of_lt_size hm
  obtain rfl : o' = o := Option.some.inj ((hc.item ho').symm.trans ho)
  obtain rfl : f' = f := Option.some.inj ((hc.item hf').symm.trans hf)
  exact hc.records (h o' f' ho' hf' ht)

/-! ### Kinds of items -/

theorem next?_eq_none_of_isReduced (h : i.isReduced = true) : i.next? = none :=
  List.getElem?_eq_none (of_decide_eq_true h)

theorem wanted?_eq_none_of_isReduced (h : i.isReduced = true) : i.wanted? = none := by
  simp [Item.wanted?, next?_eq_none_of_isReduced h]

theorem not_isReduced_of_next? {s : Symbol} (h : i.next? = some s) : i.isReduced = false := by
  by_contra hr
  rw [next?_eq_none_of_isReduced (by simpa using hr)] at h
  exact absurd h (by simp)

theorem next?_of_wanted? {name : String} (h : i.wanted? = some name) :
    i.next? = some (.nonterminal name) := by
  obtain ⟨s, hs, hn⟩ := Option.bind_eq_some_iff.1 h
  cases s with
  | nonterminal x =>
      obtain rfl : x = name := Option.some.inj hn
      exact hs
  | literal _ => exact absurd hn (by simp [Symbol.nonterminal?])
  | pattern _ => exact absurd hn (by simp [Symbol.nonterminal?])
  | entity _ _ => exact absurd hn (by simp [Symbol.nonterminal?])
  | gap _ => exact absurd hn (by simp [Symbol.nonterminal?])

theorem not_isScannable_of_wanted? {name : String} {s : Symbol} (h : i.wanted? = some name)
    (hs : i.next? = some s) : s.isScannable = false := by
  obtain rfl := Option.some.inj ((next?_of_wanted? h).symm.trans hs)
  rfl

theorem wanted?_eq_none_of_isScannable {s : Symbol} (hs : i.next? = some s)
    (h : s.isScannable = true) : i.wanted? = none := by
  by_contra hw
  obtain ⟨name, hw⟩ := Option.ne_none_iff_exists'.1 hw
  exact absurd h (by simp [not_isScannable_of_wanted? hw hs])

/-- A symbol that is no nonterminal and no gap can be scanned. -/
theorem isScannable_of_isShift {s : Symbol} (hs : i.next? = some s) (h : i.isShift = true)
    (hg : i.isAtGap = false) : s.isScannable = true := by
  simp_all [Item.isShift, Item.isAtGap, Symbol.isScannable]

/-! ### One step after the other -/

theorem predictAll_spec {place : Position} {numbers : List g.RuleId}
    (h : ∀ r ∈ numbers, Predicts strategy lexer input c r place) :
    Grows strategy lexer input c (predictAll place c numbers) ∧
      ∀ r ∈ numbers, (predictAll place c numbers).Has (.initial r place) := by
  refine Grows.foldl (fun r c' => c'.Has (.initial r place)) ?_ ?_
  · intro c'' r hr hg
    exact ⟨.one (.predicted ((h r hr).mono hg.extends)), Chart.has_add _ _ _⟩
  · exact fun r c₁ c₂ hc hh => hc.has hh

/-- Predicting if there is a reason to. -/
theorem predictAll_if_spec {b : Bool} {place : Position} {numbers : List g.RuleId}
    (h : b = true → ∀ r ∈ numbers, Predicts strategy lexer input c r place) :
    Grows strategy lexer input c (if b then predictAll place c numbers else c) ∧
      (b = true → ∀ r ∈ numbers,
        (if b then predictAll place c numbers else c).Has (.initial r place)) := by
  cases b with
  | false => exact ⟨.refl, by simp⟩
  | true =>
      obtain ⟨hg, hh⟩ := predictAll_spec (h rfl)
      exact ⟨hg, fun _ => hh⟩

theorem advance_spec (ho : c.item? n = some o) (hf : c.item? m = some f)
    (ht : Chart.veto? o f = none → o.Takes f) :
    Grows strategy lexer input c (c.advance n m).1 ∧
      (o.Takes f → (c.advance n m).1.Records (o.joined f) n (some m)) := by
  by_cases hv : Chart.veto? o f = none
  · rw [Chart.advance_of_allowed ho hf hv]
    exact ⟨.one (.joined ho hf (ht hv)), fun _ => Chart.records_add_one c _ .agenda n (some m) none⟩
  · rw [Chart.advance_of_vetoed ho hf hv]
    exact ⟨.refl, fun h => absurd h.allowed hv⟩

theorem mem_waitingFor {base : Nat} :
    base ∈ waitingFor c i ↔ ∃ o, c.item? base = some o ∧ o.wanted? = some i.lhs ∧
      (o.stop = i.start ∨ o.stop = .anywhere ∨ i.start = .anywhere) := by
  unfold waitingFor
  cases hs : i.start with
  | anywhere => simp [Chart.allWaiting, Chart.mem_select]
  | offset p =>
      simp only [Chart.waiting, List.mem_append, Chart.mem_select, Bool.decide_and,
        Bool.and_eq_true, decide_eq_true_eq, reduceCtorEq, or_false]
      constructor
      · rintro (⟨o, ho, hw, hp⟩ | ⟨o, ho, hw, hp⟩)
        · exact ⟨o, ho, hw, .inl hp⟩
        · exact ⟨o, ho, hw, .inr hp⟩
      · rintro ⟨o, ho, hw, hp | hp⟩
        · exact .inl ⟨o, ho, hw, hp⟩
        · exact .inr ⟨o, ho, hw, hp⟩

theorem isFloating_iff : i.isFloating = true ↔ i.start = .anywhere := by
  unfold Item.isFloating
  cases i.start <;> simp [Position.isAnywhere]

theorem mem_readyFor {child : Nat} {name : String} {place : Position} :
    child ∈ readyFor c name place ↔ ∃ f, c.item? child = some f ∧ f.isReduced = true ∧
      f.lhs = name ∧ (place = f.start ∨ place = .anywhere ∨ f.start = .anywhere) := by
  unfold readyFor
  cases place with
  | anywhere => simp [Chart.reduced, Chart.mem_select]
  | offset p =>
      simp only [Chart.reduced, Chart.floatingReduced, List.mem_append, Chart.mem_select,
        Bool.decide_and, Bool.and_eq_true, decide_eq_true_eq, reduceCtorEq, false_or,
        isFloating_iff]
      constructor
      · rintro (⟨f, hf, hr, hl, hp⟩ | ⟨f, hf, hr, hl, hp⟩)
        · exact ⟨f, hf, hr, hl, .inl hp.symm⟩
        · exact ⟨f, hf, hr, hl, .inr hp⟩
      · rintro ⟨f, hf, hr, hl, hp | hp⟩
        · exact .inl ⟨f, hf, hr, hl, hp.symm⟩
        · exact .inr ⟨f, hf, hr, hl, hp⟩

variable (strategy lexer input)

theorem complete_spec (hi : c.item? n = some i) (hr : i.isReduced = true) :
    Grows strategy lexer input c (complete strategy c n) ∧
      (strategy.isBottomUp = true →
        ∀ r ∈ g.rulesStartingWith i.lhs, (complete strategy c n).Has (.initial r i.start)) ∧
      ∀ base o, c.item? base = some o → o.Takes i →
        (complete strategy c n).Records (o.joined i) base (some n) := by
  have h₁ : Grows strategy lexer input c _ ∧ _ :=
    predictAll_if_spec (b := strategy.isBottomUp) (fun hs r hm => .started hs hi hr hm)
  unfold complete
  rw [hi]
  dsimp only
  generalize (if strategy.isBottomUp then predictAll i.start c (g.rulesStartingWith i.lhs)
    else c) = c₁ at h₁ ⊢
  obtain ⟨hg₁, hstart⟩ := h₁
  have h₂ : Grows strategy lexer input c₁ _ ∧ _ :=
    Grows.foldl (fun base c' => ∀ o, c₁.item? base = some o → o.Takes i →
      c'.Records (o.joined i) base (some n))
      (fun c'' base hb hg => by
        obtain ⟨o, ho, hw, hp⟩ := mem_waitingFor.1 hb
        have ha : Grows strategy lexer input c'' _ ∧ _ := advance_spec (hg.extends.item ho)
          (hg.extends.item (hg₁.extends.item hi)) (fun hv => ⟨hw, hr, hp, hv⟩)
        refine ⟨ha.1, fun o' ho' ht => ?_⟩
        obtain rfl := Option.some.inj (ho.symm.trans ho')
        exact ha.2 ht)
      (fun base c₁ c₂ hc h o ho ht => hc.records (h o ho ht))
  refine ⟨hg₁.trans h₂.1, fun hs r hm => h₂.1.extends.has (hstart hs r hm), ?_⟩
  intro base o ho ht
  have ho₁ := hg₁.extends.item ho
  exact h₂.2 base (mem_waitingFor.2 ⟨o, ho₁, ht.wanted, ht.meets⟩) o ho₁ ht

theorem predict_spec {name : String} (hi : c.item? n = some i) (hw : i.wanted? = some name) :
    Grows strategy lexer input c (predict strategy c n) ∧
      (strategy.predictsWanted = true →
        ∀ r ∈ g.rulesFor name, (predict strategy c n).Has (.initial r i.stop)) ∧
      (strategy.isBottomUp = true →
        ∀ r ∈ g.emptyRulesFor name, (predict strategy c n).Has (.initial r i.stop)) ∧
      ∀ child f, c.item? child = some f → i.Takes f →
        (predict strategy c n).Records (i.joined f) n (some child) := by
  have h₁ : Grows strategy lexer input c _ ∧ _ :=
    predictAll_if_spec (b := strategy.predictsWanted) (fun hs r hm => .wanted hs hi hw hm)
  unfold predict
  rw [hi]
  dsimp only
  rw [hw]
  dsimp only
  generalize (if strategy.predictsWanted then predictAll i.stop c (g.rulesFor name)
    else c) = c₁ at h₁ ⊢
  have hi₁ := h₁.1.extends.item hi
  have h₂ : Grows strategy lexer input c₁ _ ∧ _ :=
    predictAll_if_spec (b := strategy.isBottomUp) (fun hs r hm => .emptyWanted hs hi₁ hw hm)
  generalize (if strategy.isBottomUp then predictAll i.stop c₁ (g.emptyRulesFor name)
    else c₁) = c₂ at h₂ ⊢
  have hi₂ := h₂.1.extends.item hi₁
  have h₃ : Grows strategy lexer input c₂ _ ∧ _ :=
    Grows.foldl (fun child c' => ∀ f, c₂.item? child = some f → i.Takes f →
      c'.Records (i.joined f) n (some child))
      (fun c'' child hb hg => by
        obtain ⟨f, hf, hr, hl, hp⟩ := mem_readyFor.1 hb
        have ha : Grows strategy lexer input c'' _ ∧ _ := advance_spec (hg.extends.item hi₂)
          (hg.extends.item hf) (fun hv => ⟨hl ▸ hw, hr, hp, hv⟩)
        refine ⟨ha.1, fun f' hf' ht => ?_⟩
        obtain rfl := Option.some.inj (hf.symm.trans hf')
        exact ha.2 ht)
      (fun child c₁ c₂ hc h f hf ht => hc.records (h f hf ht))
  have hg := h₂.1.trans h₃.1
  refine ⟨h₁.1.trans hg, fun hs r hm => hg.extends.has (h₁.2 hs r hm),
    fun hs r hm => h₃.1.extends.has (h₂.2 hs r hm), ?_⟩
  intro child f hf ht
  have hf₂ := h₂.1.extends.item (h₁.1.extends.item hf)
  have hl : f.lhs = name := Option.some.inj (ht.wanted.symm.trans hw)
  exact h₃.2 child (mem_readyFor.2 ⟨f, hf₂, ht.reduced, hl, ht.meets⟩) f hf₂ ht

theorem scan_spec {s : Symbol} (hi : c.item? n = some i) (hn : i.next? = some s)
    (hs : s.isScannable = true) :
    Grows strategy lexer input c (scan lexer input c n) ∧
      (∀ p, i.stop = .offset p → ∀ m, lexer s input p = some m →
        (scan lexer input c n).Records (i.step i.start (.offset m.stop)) n none) ∧
      (i.stop = .anywhere → ∀ x ∈ s.occurrences input, ∀ m, lexer s input x.start = some m →
        (scan lexer input c n).Records (i.step (.offset x.start) (.offset m.stop)) n none) := by
  unfold scan
  rw [hi]
  dsimp only
  rw [hn]
  dsimp only
  cases hp : i.stop with
  | offset p =>
      dsimp only
      cases hm : lexer s input p with
      | none => exact ⟨.refl, by simp [hm], by simp⟩
      | some m =>
          dsimp only
          rw [Chart.scan_of_item hi]
          refine ⟨.one (.scanned hi hn hs hp hm), ?_, by simp⟩
          intro p' hp' m' hm'
          obtain rfl := Position.offset.inj hp'
          obtain rfl := Option.some.inj (hm.symm.trans hm')
          exact Chart.records_add_one c _ .agenda n none (some m.texts)
  | anywhere =>
      dsimp only
      refine And.imp_right (fun h => ⟨by simp, fun _ => h⟩)
        (Grows.foldl (fun (x : Occurrence) c' => ∀ m, lexer s input x.start = some m →
          c'.Records (i.step (.offset x.start) (.offset m.stop)) n none) ?_ ?_)
      · intro c'' x hx hg
        cases hm : lexer s input x.start with
        | none => exact ⟨.refl, by simp⟩
        | some m =>
            dsimp only
            have hi' := hg.extends.item hi
            rw [Chart.scan_of_item hi']
            refine ⟨.one (.scannedAnywhere hi' hn hs hp hx hm), fun m' hm' => ?_⟩
            obtain rfl := Option.some.inj hm'
            exact Chart.records_add_one c'' _ .agenda n none (some m.texts)
      · exact fun x c₁ c₂ hc h m hm => hc.records (h m hm)

/-! ### The turn of an edge -/

section Turn

variable (hi : c.item? n = some i) (hg : i.isAtGap = false)
include hi hg

/-- What the turn of an edge does, by its kind. -/
theorem process_cases :
    (i.isReduced = true ∧ process strategy lexer input c n = complete strategy c n) ∨
    (∃ s, i.next? = some s ∧ s.isScannable = true ∧
      process strategy lexer input c n = scan lexer input c n) ∨
    (∃ name, i.wanted? = some name ∧
      process strategy lexer input c n = predict strategy c n) := by
  unfold process
  rw [hi]
  dsimp only
  by_cases hr : i.isReduced = true
  · exact .inl ⟨hr, if_pos hr⟩
  · rw [if_neg hr]
    obtain ⟨s, hs⟩ : ∃ s, i.next? = some s := by
      refine ⟨_, List.getElem?_eq_getElem (Nat.lt_of_not_le fun h => hr ?_)⟩
      exact decide_eq_true h
    by_cases hsh : i.isShift = true
    · exact .inr (.inl ⟨s, hs, isScannable_of_isShift hs hsh hg, if_pos hsh⟩)
    · refine .inr (.inr ?_)
      rw [if_neg hsh]
      cases s with
      | nonterminal name => exact ⟨name, by simp [Item.wanted?, hs, Symbol.nonterminal?], rfl⟩
      | literal _ => simp [Item.isShift, hs, Symbol.isNonterminal, Symbol.kind] at hsh
      | pattern _ => simp [Item.isShift, hs, Symbol.isNonterminal, Symbol.kind] at hsh
      | entity _ _ => simp [Item.isShift, hs, Symbol.isNonterminal, Symbol.kind] at hsh
      | gap _ => simp [Item.isShift, hs, Symbol.isNonterminal, Symbol.kind] at hsh

theorem process_grows :
    Grows strategy lexer input c (process strategy lexer input c n) := by
  rcases process_cases strategy lexer input hi hg with
    ⟨hr, he⟩ | ⟨s, hn, hs, he⟩ | ⟨name, hw, he⟩
  · exact he ▸ (complete_spec strategy lexer input hi hr).1
  · exact he ▸ (scan_spec strategy lexer input hi hn hs).1
  · exact he ▸ (predict_spec strategy lexer input hi hw).1

theorem process_handled :
    Handled strategy lexer input (process strategy lexer input c n) i n := by
  rcases process_cases strategy lexer input hi hg with
    ⟨hr, he⟩ | ⟨s, hn, hs, he⟩ | ⟨name, hw, he⟩
  · have h := complete_spec strategy lexer input hi hr
    rw [he]
    refine ⟨fun hs _ => h.2.1 hs, ?_, ?_, ?_, ?_⟩
    · simp [wanted?_eq_none_of_isReduced hr]
    · simp [wanted?_eq_none_of_isReduced hr]
    · simp [next?_eq_none_of_isReduced hr]
    · simp [next?_eq_none_of_isReduced hr]
  · have h := scan_spec strategy lexer input hi hn hs
    rw [he]
    refine ⟨?_, ?_, ?_, ?_, ?_⟩
    · simp [not_isReduced_of_next? hn]
    · simp [wanted?_eq_none_of_isScannable hn hs]
    · simp [wanted?_eq_none_of_isScannable hn hs]
    · intro s' hn' _
      obtain rfl := Option.some.inj (hn.symm.trans hn')
      exact h.2.1
    · intro s' hn' _
      obtain rfl := Option.some.inj (hn.symm.trans hn')
      exact h.2.2
  · have h := predict_spec strategy lexer input hi hw
    rw [he]
    refine ⟨?_, ?_, ?_, ?_, ?_⟩
    · simp [not_isReduced_of_next? (next?_of_wanted? hw)]
    · intro hs name' hw'
      obtain rfl := Option.some.inj (hw.symm.trans hw')
      exact h.2.1 hs
    · intro hs name' hw'
      obtain rfl := Option.some.inj (hw.symm.trans hw')
      exact h.2.2.1 hs
    · intro s hs hsc
      exact absurd hsc (by simp [not_isScannable_of_wanted? hw hs])
    · intro s hs hsc
      exact absurd hsc (by simp [not_isScannable_of_wanted? hw hs])

theorem process_joined (hm : m < c.size) :
    Joined (process strategy lexer input c n) n m ∧
      Joined (process strategy lexer input c n) m n := by
  have hgr := process_grows strategy lexer input hi hg
  have hi' := hgr.extends.item hi
  obtain ⟨x, hx⟩ := Chart.exists_item_of_lt_size hm
  have hx' := hgr.extends.item hx
  rcases process_cases strategy lexer input hi hg with
    ⟨hr, he⟩ | ⟨s, hn, hs, he⟩ | ⟨name, hw, he⟩
  · refine ⟨fun o f ho _ ht => ?_, fun o f ho hf ht => ?_⟩
    · obtain rfl := Option.some.inj (hi'.symm.trans ho)
      exact absurd ht.wanted (by simp [wanted?_eq_none_of_isReduced hr])
    · obtain rfl := Option.some.inj (hi'.symm.trans hf)
      obtain rfl := Option.some.inj (hx'.symm.trans ho)
      rw [he]
      exact (complete_spec strategy lexer input hi hr).2.2 m x hx ht
  · refine ⟨fun o f ho _ ht => ?_, fun o f _ hf ht => ?_⟩
    · obtain rfl := Option.some.inj (hi'.symm.trans ho)
      exact absurd ht.wanted (by simp [wanted?_eq_none_of_isScannable hn hs])
    · obtain rfl := Option.some.inj (hi'.symm.trans hf)
      exact absurd ht.reduced (by simp [not_isReduced_of_next? hn])
  · refine ⟨fun o f ho hf ht => ?_, fun o f _ hf ht => ?_⟩
    · obtain rfl := Option.some.inj (hi'.symm.trans ho)
      obtain rfl := Option.some.inj (hx'.symm.trans hf)
      rw [he]
      exact (predict_spec strategy lexer input hi hw).2.2.2 m x hx ht
    · obtain rfl := Option.some.inj (hi'.symm.trans hf)
      exact absurd ht.reduced (by simp [not_isReduced_of_next? (next?_of_wanted? hw)])

end Turn

end Parser

end ChartParsing
