import ChartParsing.Proofs.Chart.Tables

/-!
# Operations done twice

A chart `Knows` an edge if the edge with its item has its derivations, whatever their texts.  An addition
makes its edge known, what is known stays known since charts only grow, and the addition of a known edge
changes nothing.  Every operation that adds something is made of such additions.

Main statement: **`Store.perform_again`**.  Between the first time and the second there may be any run.
-/

namespace ChartParsing

variable {rules : Array Rule}

namespace Edge

/-- Learning what is known already changes nothing. -/
theorem learnAll_of_known {e : Edge rules} {ds : List Derivation}
    (h : ∀ d ∈ ds, ∃ known ∈ e.derivations, known.same d = true) : e.learnAll ds = e := by
  induction ds with
  | nil => rfl
  | cons d ds ih =>
      have hlearn : e.learn d = e := if_pos (List.any_eq_true.2 (h d (by simp)))
      show (e.learn d).learnAll ds = e
      rw [hlearn]
      exact ih (fun x hx => h x (List.mem_cons_of_mem d hx))

end Edge

/-! ### Known edges -/

namespace Chart

variable {c c' : Chart rules} {e : Edge rules} {n : Nat}

/-- The edge with this number has the item of `e` and its derivations. -/
def Knows (c : Chart rules) (e : Edge rules) (n : Nat) : Prop :=
  ∃ x, c.edge? n = some x ∧ x.item = e.item ∧
    ∀ d ∈ e.derivations, ∃ known ∈ x.derivations, known.same d = true

theorem Knows.item (h : c.Knows e n) : c.item? n = some e.item := by
  obtain ⟨x, hx, hi, -⟩ := h
  exact item?_eq_some.2 ⟨x, hx, hi⟩

/-- What is known stays known. -/
theorem Knows.mono (h : c.Knows e n) (hc : c.Extends c') : c'.Knows e n := by
  obtain ⟨x, hx, hi, hd⟩ := h
  obtain ⟨x', hx', hi', hp⟩ := hc n x hx
  refine ⟨x', hx', hi'.trans hi, fun d hm => ?_⟩
  obtain ⟨known, hk, hs⟩ := hd d hm
  exact ⟨known, hp.subset hk, hs⟩

/-- What an edge learns is known of it. -/
theorem knows_learn (hi : c.item? n = some e.item) : (c.learn n e.derivations).Knows e n := by
  obtain ⟨old, ho, hitem⟩ := item?_eq_some.1 hi
  refine ⟨old.learnAll e.derivations, by rw [edge?_learn, if_pos rfl, ho]; rfl, ?_, fun d hd => ?_⟩
  · rw [Edge.learnAll_item, hitem]
  · exact Edge.exists_same_learnAll old hd

theorem merge_of_eq {target : Edge rules} (he : c.edge? n = some target)
    (hi : target.item = e.item) : c.merge n e = .ok (c.learn n e.derivations) := by
  unfold Chart.merge
  rw [he]
  exact if_pos hi

/-- What was added is known. -/
theorem knows_add (c : Chart rules) (e : Edge rules) (place : Destination) :
    (c.add e place).1.Knows e (c.add e place).2 := by
  cases hf : c.find? e.item with
  | some k =>
      rw [add_of_find? hf]
      exact knows_learn (item?_of_find? hf)
  | none =>
      rw [add_of_find?_eq_none hf]
      exact ⟨e, by rw [edge?_push, if_pos rfl], rfl,
        fun d hd => ⟨d, hd, (Derivation.same_iff d d).2 ⟨rfl, rfl⟩⟩⟩

end Chart

/-! ### Insertions -/

/-- The operation adds an edge or derivations, and the store has the edges that it refers to. -/
def Operation.Inserts (s : Store rules) : Operation rules → Prop
  | .predict _ _ => True
  | .seed _ _ _ _ => True
  | .scan base _ _ _ => base < s.edges.size
  | .advance base child => base < s.edges.size ∧ child < s.edges.size
  | .merge into _ => into < s.edges.size
  | .settle => False
  | .next => False
  | .takeDeferred => False

namespace Store

variable {s t : Store rules} {c d : Chart rules} {e : Edge rules} {n : Nat}

theorem Represents.exists_item (h : s.Represents c) (hn : n < s.edges.size) :
    ∃ i, c.item? n = some i :=
  Chart.exists_item_of_lt_size (h.size ▸ hn)

theorem merge_of_eq {into : Nat} {source target : Edge rules} (he : s.edge? into = some target)
    (hi : target.item = source.item) :
    s.merge into source = .ok (s.learn into source.derivations) := by
  unfold Store.merge
  rw [he]
  exact if_pos hi

theorem merge_of_ne {into : Nat} {source target : Edge rules} (he : s.edge? into = some target)
    (hi : target.item ≠ source.item) :
    s.merge into source = .error (.differentEdges source.item.render target.item.render) := by
  unfold Store.merge
  rw [he]
  exact if_neg hi

/-- Derivations that are known are not written down again. -/
theorem Represents.learn_of_knows (h : s.Represents c) (hk : c.Knows e n) :
    s.learn n e.derivations = s := by
  obtain ⟨x, hx, -, hd⟩ := hk
  have hedge : s.edges[n]? = some x := (h.edge? n).trans hx
  have hedges : s.edges.modify n (fun old => old.learnAll e.derivations) = s.edges := by
    refine Array.ext_getElem? (fun m => ?_)
    rw [Array.getElem?_modify]
    by_cases hm : n = m
    · rw [if_pos hm, ← hm, hedge]
      exact congrArg some (Edge.learnAll_of_known hd)
    · rw [if_neg hm]
  unfold Store.learn
  rw [hedges]

/-- **The addition of a known edge** changes nothing and answers its number. -/
theorem Represents.add_of_knows (h : s.Represents c) (hk : c.Knows e n) (place : Destination) :
    s.add e place = (s, n) := by
  have hfind : s.find? e.item = some n := (h.keys e.item n).2 hk.item
  unfold Store.add
  rw [hfind]
  dsimp only
  rw [h.learn_of_knows hk]

/-! ### One insertion, and later the same -/

section Later

variable (hs : s.Represents c) (ht : t.Represents d)
include hs ht

theorem add_later (e : Edge rules) (place : Destination) (hd : (c.add e place).1.Extends d) :
    t.add e place = (t, (s.add e place).2) := by
  rw [(hs.add e place).2]
  exact ht.add_of_knows ((Chart.knows_add c e place).mono hd) place

theorem scan_later {base : Nat} {o : Item rules} (ho : c.item? base = some o) (stop : Position)
    (texts : List String) (start : Option Position)
    (hd : (c.scan base stop texts start).1.Extends d) :
    t.scan base stop texts start = (t, (s.scan base stop texts start).2) := by
  have hc : c.Extends (c.scan base stop texts start).1 :=
    (Chart.keeps_extends c).scan (.refl c) base stop texts start
  have hs' : s.item? base = some o := (hs.item? base).trans ho
  have ht' : t.item? base = some o := (ht.item? base).trans ((hc.trans hd).item ho)
  unfold Chart.scan at hd
  rw [ho] at hd
  unfold Store.scan
  rw [hs', ht']
  exact add_later hs ht _ .agenda hd

/-- Both edges that a seed needs are found again. -/
theorem seed_later (number : Fin rules.size) (start stop : Nat) (texts : List String)
    (hd : (c.seed number start stop texts).1.Extends d) :
    t.seed number start stop texts = (t, (s.seed number start stop texts).2) := by
  let first : Edge rules := ⟨.initial number (.offset start), []⟩
  obtain ⟨hadd, hnumber⟩ := hs.add first .staged
  have hscanned : (c.add first .staged).1.Extends (c.seed number start stop texts).1 :=
    (Chart.keeps_extends _).scan (.refl _) _ _ _ _
  have hfirst : t.add first .staged = (t, (s.add first .staged).2) :=
    add_later hs ht first .staged (hscanned.trans hd)
  have hitem : (c.add first .staged).1.item? (s.add first .staged).2 = some first.item := by
    rw [hnumber]
    exact Chart.item?_add c first .staged
  have hseed : c.seed number start stop texts =
      (c.add first .staged).1.scan (s.add first .staged).2 (.offset stop) texts none := by
    rw [hnumber]
    rfl
  rw [hseed] at hd
  show (t.add first .staged).1.scan (t.add first .staged).2 (.offset stop) texts none = _
  rw [hfirst]
  exact scan_later hadd ht hitem _ _ _ hd

theorem advance_later {base child : Nat} {o f : Item rules} (ho : c.item? base = some o)
    (hf : c.item? child = some f) (hd : (c.advance base child).1.Extends d) :
    t.advance base child = (t, (s.advance base child).2) := by
  have hc : c.Extends (c.advance base child).1 := (Chart.keeps_extends c).advance (.refl c) base child
  have hso : s.item? base = some o := (hs.item? base).trans ho
  have hsf : s.item? child = some f := (hs.item? child).trans hf
  have hto : t.item? base = some o := (ht.item? base).trans ((hc.trans hd).item ho)
  have htf : t.item? child = some f := (ht.item? child).trans ((hc.trans hd).item hf)
  unfold Store.advance
  rw [hso, hsf, hto, htf]
  dsimp only
  by_cases hv : (Chart.veto? o f).isSome = true
  · rw [if_pos hv, if_pos hv]
  · unfold Chart.advance at hd
    rw [ho, hf] at hd
    dsimp only at hd
    rw [if_neg hv] at hd
    rw [if_neg hv, if_neg hv, add_later hs ht _ .agenda hd]

theorem merge_later {into : Nat} {target : Edge rules} (he : c.edge? into = some target)
    (source : Edge rules) (hd : (c.perform (.merge into source)).1.Extends d) :
    t.perform (.merge into source) = (t, (s.perform (.merge into source)).2) := by
  have hc : c.Extends (c.perform (.merge into source)).1 :=
    Chart.perform_keeps (Chart.keeps_extends c) (.refl c) _
  have hse : s.edge? into = some target := (hs.edge? into).trans he
  obtain ⟨target', he', hi', -⟩ := (hc.trans hd) into target he
  have hte : t.edge? into = some target' := (ht.edge? into).trans he'
  by_cases hi : target.item = source.item
  · have hknows : d.Knows source into := by
      refine (Chart.knows_learn (Chart.item?_eq_some.2 ⟨target, he, hi⟩)).mono ?_
      unfold Chart.perform at hd
      dsimp only at hd
      rwa [Chart.merge_of_eq he hi] at hd
    have htm : t.merge into source = .ok t := by
      rw [merge_of_eq hte (hi'.trans hi), ht.learn_of_knows hknows]
    unfold Store.perform
    dsimp only
    rw [htm, merge_of_eq hse hi]
  · -- The items never change, so it fails again and for the same reason.
    unfold Store.perform
    dsimp only
    rw [merge_of_ne hte (hi' ▸ hi), merge_of_ne hse hi, hi']

/-- Whatever a store has grown to, an insertion done once changes nothing any more. -/
theorem perform_later {op : Operation rules} (hop : op.Inserts s)
    (hd : (c.perform op).1.Extends d) : t.perform op = (t, (s.perform op).2) := by
  cases op with
  | predict number place =>
      have hadd : t.predict number place = (t, (s.predict number place).2) :=
        add_later hs ht _ .agenda hd
      unfold Store.perform
      dsimp only
      rw [hadd]
  | seed number start stop texts =>
      unfold Store.perform
      dsimp only
      rw [seed_later hs ht number start stop texts hd]
  | scan base stop texts start =>
      obtain ⟨o, ho⟩ := hs.exists_item hop
      unfold Store.perform
      dsimp only
      rw [scan_later hs ht ho stop texts start hd]
  | advance base child =>
      obtain ⟨o, ho⟩ := hs.exists_item hop.1
      obtain ⟨f, hf⟩ := hs.exists_item hop.2
      unfold Store.perform
      dsimp only
      rw [advance_later hs ht ho hf hd]
  | merge into source =>
      obtain ⟨o, ho⟩ := hs.exists_item hop
      obtain ⟨target, he, -⟩ := Chart.item?_eq_some.1 ho
      exact merge_later hs ht he source hd
  | settle => exact hop.elim
  | next => exact hop.elim
  | takeDeferred => exact hop.elim

end Later

/-- **Insertions are idempotent for ever.**  An insertion that was done at some point of a run gives, at any
later point of it, the answer that it gave, and leaves the store as it is: its edges with their derivations,
its tables, the order of work with its cursor, the staged edges and the deferred ones. -/
theorem perform_again (ops more : List (Operation rules)) (op : Operation rules)
    (hop : op.Inserts (empty.performAll ops).1) :
    (empty.performAll (ops ++ op :: more)).1.perform op =
      ((empty.performAll (ops ++ op :: more)).1, ((empty.performAll ops).1.perform op).2) := by
  obtain ⟨hs, -⟩ := represents_empty.performAll ops
  obtain ⟨ht, -⟩ := represents_empty.performAll (ops ++ op :: more)
  refine perform_later hs ht hop ?_
  rw [Chart.performAll_append]
  exact Chart.extends_performAll _ more

/-- A rule for a chain of itself, and one for its end. -/
def chain : Array Rule := #[.of "S" [.nonterminal "S"], .of "S" [.literal "a"]]

/-- The end of a chain is seeded, and what may come in front of it is predicted. -/
def chainStart : List (Operation chain) :=
  [.predict ⟨0, by decide⟩ (.offset 0), .seed ⟨1, by decide⟩ 0 1 ["a"]]

/-- The chain grows by itself afterwards: its edge is one of its own parts. -/
def chainRest : List (Operation chain) :=
  [.settle, .next, .advance 0 3, .seed ⟨1, by decide⟩ 0 1 ["b"], .next, .takeDeferred, .next]

/-- The edge that was put together in the middle of the run is found again at its end. -/
theorem perform_again_chain :
    (Operation.advance 0 2).Inserts (empty.performAll chainStart).1 ∧
      (empty.performAll (chainStart ++ .advance 0 2 :: chainRest)).1.perform (.advance 0 2) =
        ((empty.performAll (chainStart ++ .advance 0 2 :: chainRest)).1, .edge (some 3)) := by
  have hop : (Operation.advance 0 2).Inserts (empty.performAll chainStart).1 := by
    show 0 < (empty.performAll chainStart).1.edges.size ∧
      2 < (empty.performAll chainStart).1.edges.size
    decide +kernel
  have hanswer : ((empty.performAll chainStart).1.advance 0 2).2 = some 3 := by decide +kernel
  refine ⟨hop, (perform_again chainStart chainRest (.advance 0 2) hop).trans ?_⟩
  exact congrArg (fun n => (_, Answer.edge n)) hanswer

end Store

end ChartParsing
