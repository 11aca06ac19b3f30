import ChartParsing.Parser
import ChartParsing.Proofs.Chart.Growth

/-!
# What a parser adds to a chart

`Addition` says once which edges a parser may add, and why: a rule is predicted, a finished edge is put
into an open one, or an edge is moved over what stands in the input.  Everything else about the edges of
a chart is derived from it.

* `Grows` leads from a chart to a later one by additions to the agenda alone.  One lemma for each of
  `complete`, `predict`, `scan` and `process` says that the chart grows and that all is found which was
  to be found.
* `Built` charts are those that come of additions and of changes to the lists of work.

An addition stays one in every later chart, since it speaks only of edges that are there.
-/

namespace ChartParsing

variable {rules : Array Rule}

/-- The finished item can be put behind the dot of the open one: it is what is wanted there, the places
fit, and the operators do not forbid it. -/
structure Item.Takes (o f : Item rules) : Prop where
  wanted : o.wanted? = some f.lhs
  reduced : f.isReduced = true
  meets : o.stop = f.start ∨ o.stop = .anywhere ∨ f.start = .anywhere
  allowed : Chart.veto? o f = none

/-- Two edges without a place do not make one with a place, and others do. -/
theorem Item.joined_start_eq_anywhere {o f : Item rules} :
    (o.joined f).start = .anywhere ↔ o.start = .anywhere ∧ f.start = .anywhere :=
  Position.orElse_eq_anywhere

namespace Parser

variable {g : Grammar} {strategy : Strategy} {lexer : Lexer} {input : Text}
  {c c' c'' : Chart g.rules} {e : Edge g.rules} {i o f : Item g.rules} {n : Nat}

/-- The parser may put this rule into the chart, at this place and with nothing found of it yet. -/
inductive Predicts (strategy : Strategy) (lexer : Lexer) (input : Text) (c : Chart g.rules) :
    g.RuleId → Position → Prop
  | entity {r : g.RuleId} (hs : strategy = .topDown) (hr : r ∈ g.entityRules) :
      Predicts strategy lexer input c r (.offset 0)
  | seed {r : g.RuleId} {s : Symbol} {x : Occurrence} {m : Match} (hs : strategy.isBottomUp = true)
      (hr : r ∈ g.terminalRules) (hf : (g.rule r).first? = some s) (hx : x ∈ s.occurrences input)
      (hm : lexer s input x.start = some m) : Predicts strategy lexer input c r (.offset x.start)
  | empty {r : g.RuleId} (hs : strategy.isBottomUp = true) (hr : r ∈ g.emptyRules) :
      Predicts strategy lexer input c r .anywhere
  | wanted {r : g.RuleId} {n : Nat} {i : Item g.rules} {name : String}
      (hs : strategy.predictsWanted = true) (hi : c.item? n = some i)
      (hw : i.wanted? = some name) (hr : r ∈ g.rulesFor name) :
      Predicts strategy lexer input c r i.stop
  | emptyWanted {r : g.RuleId} {n : Nat} {i : Item g.rules} {name : String}
      (hs : strategy.isBottomUp = true) (hi : c.item? n = some i)
      (hw : i.wanted? = some name) (hr : r ∈ g.emptyRulesFor name) :
      Predicts strategy lexer input c r i.stop
  | started {r : g.RuleId} {n : Nat} {i : Item g.rules} (hs : strategy.isBottomUp = true)
      (hi : c.item? n = some i) (hd : i.isReduced = true) (hr : r ∈ g.rulesStartingWith i.lhs) :
      Predicts strategy lexer input c r i.start

/-- The parser may add this edge to the chart. -/
inductive Addition (strategy : Strategy) (lexer : Lexer) (input : Text) (c : Chart g.rules) :
    Edge g.rules → Prop
  | predicted {r : g.RuleId} {place : Position} (h : Predicts strategy lexer input c r place) :
      Addition strategy lexer input c ⟨.initial r place, []⟩
  | joined {base child : Nat} {o f : Item g.rules} (ho : c.item? base = some o)
      (hf : c.item? child = some f) (ht : o.Takes f) :
      Addition strategy lexer input c ⟨o.joined f, [⟨some base, some child, none⟩]⟩
  | scanned {base : Nat} {o : Item g.rules} {s : Symbol} {p : Nat} {m : Match}
      (ho : c.item? base = some o) (hn : o.next? = some s) (hs : s.isScannable = true)
      (hp : o.stop = .offset p) (hm : lexer s input p = some m) :
      Addition strategy lexer input c
        ⟨o.step o.start (.offset m.stop), [⟨some base, none, some m.texts⟩]⟩
  | scannedAnywhere {base : Nat} {o : Item g.rules} {s : Symbol} {x : Occurrence} {m : Match}
      (ho : c.item? base = some o) (hn : o.next? = some s) (hs : s.isScannable = true)
      (hp : o.stop = .anywhere) (hx : x ∈ s.occurrences input)
      (hm : lexer s input x.start = some m) :
      Addition strategy lexer input c
        ⟨o.step (.offset x.start) (.offset m.stop), [⟨some base, none, some m.texts⟩]⟩
  | filled {base child : Nat} {o f : Item g.rules} {gap : Gap} {p q : Nat} {m : Match}
      (hs : strategy = .bottomUpWithGaps) (ho : c.item? base = some o)
      (hg : gapAt o = .ok (gap, f.lhs)) (hp : o.stop = .offset p) (hf : c.item? child = some f)
      (hr : f.isReduced = true) (hq : f.start = .offset q) (hlt : p < q) (hle : q - p ≤ gap.reach)
      (hm : gap.matchSpan? input p q = some m) :
      Addition strategy lexer input c
        ⟨o.step o.start (.offset m.stop), [⟨some base, none, some m.texts⟩]⟩

theorem Predicts.mono (hc : c.Extends c') {r : g.RuleId} {place : Position}
    (h : Predicts strategy lexer input c r place) : Predicts strategy lexer input c' r place := by
  cases h with
  | entity hs hr => exact .entity hs hr
  | seed hs hr hf hx hm => exact .seed hs hr hf hx hm
  | empty hs hr => exact .empty hs hr
  | wanted hs hi hw hr => exact .wanted hs (hc.item hi) hw hr
  | emptyWanted hs hi hw hr => exact .emptyWanted hs (hc.item hi) hw hr
  | started hs hi hd hr => exact .started hs (hc.item hi) hd hr

theorem Addition.mono (hc : c.Extends c') (h : Addition strategy lexer input c e) :
    Addition strategy lexer input c' e := by
  cases h with
  | predicted h => exact .predicted (h.mono hc)
  | joined ho hf ht => exact .joined (hc.item ho) (hc.item hf) ht
  | scanned ho hn hs hp hm => exact .scanned (hc.item ho) hn hs hp hm
  | scannedAnywhere ho hn hs hp hx hm => exact .scannedAnywhere (hc.item ho) hn hs hp hx hm
  | filled hs ho hg hp hf hr hq hlt hle hm =>
      exact .filled hs (hc.item ho) hg hp (hc.item hf) hr hq hlt hle hm

theorem Addition.distinct (h : Addition strategy lexer input c e) :
    Derivation.Distinct e.derivations := by
  cases h <;> simp [Derivation.Distinct]

/-! ### Growth by additions -/

/-- The second chart comes of the first one by additions to the agenda. -/
inductive Grows (strategy : Strategy) (lexer : Lexer) (input : Text) (c : Chart g.rules) :
    Chart g.rules → Prop
  | refl : Grows strategy lexer input c c
  | add {c' : Chart g.rules} {e : Edge g.rules} (h : Grows strategy lexer input c c')
      (ha : Addition strategy lexer input c' e) :
      Grows strategy lexer input c (c'.add e .agenda).1

/-- The chart comes of additions, and of changes to the lists of what is to be done. -/
inductive Built (strategy : Strategy) (lexer : Lexer) (input : Text) : Chart g.rules → Prop
  | empty : Built strategy lexer input .empty
  | add {c : Chart g.rules} {e : Edge g.rules} (h : Built strategy lexer input c)
      (ha : Addition strategy lexer input c e) (place : Destination) :
      Built strategy lexer input (c.add e place).1
  | requeue {c c' : Chart g.rules} (h : Built strategy lexer input c) (he : c'.edges = c.edges) :
      Built strategy lexer input c'

theorem Grows.one (h : Addition strategy lexer input c e) :
    Grows strategy lexer input c (c.add e .agenda).1 :=
  .add .refl h

theorem Grows.trans (h : Grows strategy lexer input c c')
    (h' : Grows strategy lexer input c' c'') : Grows strategy lexer input c c'' := by
  induction h' with
  | refl => exact h
  | add _ ha ih => exact .add ih ha

theorem Grows.extends (h : Grows strategy lexer input c c') : c.Extends c' := by
  induction h with
  | refl => exact .refl c
  | add _ _ ih => exact ih.trans (Chart.extends_add _ _ _)

theorem Grows.built (h : Grows strategy lexer input c c') (hc : Built strategy lexer input c) :
    Built strategy lexer input c' := by
  induction h with
  | refl => exact hc
  | add _ ha ih => exact .add ih ha .agenda

theorem Grows.wellFormed (h : Grows strategy lexer input c c') (hc : c.WellFormed) :
    c'.WellFormed := by
  induction h with
  | refl => exact hc
  | add _ ha ih => exact ih.add ha.distinct .agenda

theorem Grows.processed (h : Grows strategy lexer input c c') : c'.processed = c.processed := by
  induction h with
  | refl => rfl
  | add _ _ ih => rw [Chart.processed_add, ih]

theorem staged_add_agenda (c : Chart g.rules) (e : Edge g.rules) :
    (c.add e .agenda).1.staged = c.staged := by
  cases hf : c.find? e.item with
  | none =>
      rw [Chart.add_of_find?_eq_none hf]
      rcases Chart.push_lists c e .agenda with ⟨-, -, hs, -⟩ | ⟨-, -, -, hs, -⟩ | ⟨-, hp, -⟩
      · exact hs
      · exact hs
      · exact absurd hp (by decide)
  | some k => rw [Chart.add_of_find? hf]; rfl

theorem Grows.staged (h : Grows strategy lexer input c c') : c'.staged = c.staged := by
  induction h with
  | refl => rfl
  | add _ _ ih => rw [staged_add_agenda, ih]

/-- A row of steps that each let the chart grow and reach a lasting goal reaches all the goals. -/
theorem Grows.foldl {α : Type} {step : Chart g.rules → α → Chart g.rules} {list : List α}
    (goal : α → Chart g.rules → Prop)
    (hstep : ∀ c'' a, a ∈ list → Grows strategy lexer input c c'' →
      Grows strategy lexer input c'' (step c'' a) ∧ goal a (step c'' a))
    (hmono : ∀ a c₁ c₂, c₁.Extends c₂ → goal a c₁ → goal a c₂) :
    Grows strategy lexer input c (list.foldl step c) ∧ ∀ a ∈ list, goal a (list.foldl step c) := by
  obtain ⟨hg, -, hgoal⟩ := Chart.foldl_spec (Grows strategy lexer input c) goal
    (fun c'' a ha h => by
      obtain ⟨hg, hgoal⟩ := hstep c'' a ha h
      exact ⟨h.trans hg, hg.extends, hgoal⟩) hmono .refl
  exact ⟨hg, hgoal⟩

end Parser

end ChartParsing
