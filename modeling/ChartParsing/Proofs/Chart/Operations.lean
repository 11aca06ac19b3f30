import ChartParsing.Chart.Operation
import ChartParsing.Proofs.Chart.Growth

/-!
# Runs of operations

Every operation is made of additions, of derivations learned, and of changes to the lists of work.  So what
these keep is kept by every run: **`performAll_keeps`**.  Two things are: a chart stays well-formed
(**`wellFormed_performAll`**), and it only grows (**`extends_performAll`**).
-/

namespace ChartParsing

namespace Chart

variable {rules : Array Rule} {c : Chart rules} {n : Nat} {i : Item rules}

/-- The number of the edge of an item is the only one with it. -/
theorem WellFormed.find?_eq_some (h : c.WellFormed) : c.find? i = some n ↔ c.item? n = some i := by
  refine ⟨item?_of_find?, fun hn => ?_⟩
  cases hf : c.find? i with
  | none => exact absurd hn (item?_ne_of_find? hf n)
  | some m => rw [h.unique m n i (item?_of_find? hf) hn]

theorem extends_learn (c : Chart rules) (n : Nat) (ds : List Derivation) :
    c.Extends (c.learn n ds) := by
  intro m e he
  by_cases hm : n = m
  · exact ⟨e.learnAll ds, by rw [edge?_learn, if_pos hm, he]; rfl, Edge.learnAll_item e ds,
      Edge.prefix_learnAll e ds⟩
  · exact ⟨e, by rw [edge?_learn, if_neg hm, he], rfl, List.prefix_refl _⟩

/-! ### What operations are made of -/

/-- A property of charts that all parts of operations keep. -/
structure Keeps (P : Chart rules → Prop) : Prop where
  add : ∀ c e place, Derivation.Distinct e.derivations → P c → P (c.add e place).1
  learn : ∀ c n ds, P c → P (c.learn n ds)
  settle : ∀ c, P c → P c.settle
  next : ∀ c n c', c.next? = some (n, c') → P c → P c'
  takeDeferred : ∀ c, P c → P c.takeDeferred.2

variable {P : Chart rules → Prop}

theorem Keeps.scan (h : Keeps P) (hc : P c) (base : Nat) (stop : Position) (texts : List String)
    (start : Option Position) : P (c.scan base stop texts start).1 := by
  unfold Chart.scan
  cases c.item? base with
  | none => exact hc
  | some o => exact h.add c _ .agenda (List.pairwise_singleton _ _) hc

theorem Keeps.seed (h : Keeps P) (hc : P c) (number : Fin rules.size) (start stop : Nat)
    (texts : List String) : P (c.seed number start stop texts).1 :=
  h.scan (h.add c ⟨.initial number (.offset start), []⟩ .staged .nil hc) _ _ _ _

theorem Keeps.advance (h : Keeps P) (hc : P c) (base child : Nat) : P (c.advance base child).1 := by
  unfold Chart.advance
  cases c.item? base with
  | none => exact hc
  | some o =>
      cases c.item? child with
      | none => exact hc
      | some f =>
          dsimp only
          by_cases hv : (veto? o f).isSome = true
          · rw [if_pos hv]
            exact hc
          · rw [if_neg hv]
            exact h.add c _ .agenda (List.pairwise_singleton _ _) hc

theorem Keeps.merge (h : Keeps P) (hc : P c) {into : Nat} {source : Edge rules} {c' : Chart rules}
    (hm : c.merge into source = .ok c') : P c' := by
  unfold Chart.merge at hm
  cases he : c.edge? into with
  | none =>
      rw [he] at hm
      rwa [← Except.ok.inj hm]
  | some target =>
      rw [he] at hm
      dsimp only at hm
      by_cases hi : target.item = source.item
      · rw [if_pos hi] at hm
        rw [← Except.ok.inj hm]
        exact h.learn c into source.derivations hc
      · rw [if_neg hi] at hm
        exact absurd hm (by simp)

/-- What the parts of operations keep every operation keeps. -/
theorem perform_keeps (h : Keeps P) (hc : P c) (op : Operation rules) : P (c.perform op).1 := by
  cases op with
  | predict number place => exact h.add c _ .agenda .nil hc
  | seed number start stop texts => exact h.seed hc number start stop texts
  | scan base stop texts start => exact h.scan hc base stop texts start
  | advance base child => exact h.advance hc base child
  | merge into source =>
      unfold perform
      dsimp only
      cases hm : c.merge into source with
      | ok c' => exact h.merge hc hm
      | error e => exact hc
  | settle => exact h.settle c hc
  | next =>
      unfold perform
      dsimp only
      cases hn : c.next? with
      | none => exact hc
      | some a => exact h.next c a.1 a.2 hn hc
  | takeDeferred => exact h.takeDeferred c hc

/-- **What the parts of operations keep every run keeps.** -/
theorem performAll_keeps (h : Keeps P) (hc : P c) (ops : List (Operation rules)) :
    P (c.performAll ops).1 := by
  induction ops generalizing c with
  | nil => exact hc
  | cons op rest ih => exact ih (perform_keeps h hc op)

/-! ### What is kept -/

theorem keeps_wellFormed : Keeps (fun c : Chart rules => c.WellFormed) where
  add _ _ place hd h := h.add hd place
  learn _ n ds h := h.learn n ds
  settle _ h := h.settle
  next _ _ _ hn h := h.next? hn
  takeDeferred _ h := h.takeDeferred

theorem keeps_extends (c : Chart rules) : Keeps c.Extends where
  add c' e place _ h := h.trans (extends_add c' e place)
  learn c' n ds h := h.trans (extends_learn c' n ds)
  settle c' h := h.trans (extends_settle c')
  next c' n c'' hn h := h.trans (.of_edges (by rw [(next?_eq_some hn).2]))
  takeDeferred c' h := h.trans (.of_edges (c := c') rfl)

/-- **Every run leaves a well-formed chart.** -/
theorem wellFormed_performAll (h : c.WellFormed) (ops : List (Operation rules)) :
    (c.performAll ops).1.WellFormed :=
  performAll_keeps keeps_wellFormed h ops

/-- **Charts only grow**: an edge keeps its number and its item, and new derivations come behind those that
it has. -/
theorem extends_performAll (c : Chart rules) (ops : List (Operation rules)) :
    c.Extends (c.performAll ops).1 :=
  performAll_keeps (keeps_extends c) (.refl c) ops

/-- A run is made of its parts. -/
theorem performAll_append (c : Chart rules) (ops more : List (Operation rules)) :
    (c.performAll (ops ++ more)).1 = ((c.performAll ops).1.performAll more).1 := by
  induction ops generalizing c with
  | nil => rfl
  | cons op rest ih => exact ih (c.perform op).1

end Chart

end ChartParsing
