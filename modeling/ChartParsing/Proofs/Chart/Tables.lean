import ChartParsing.Chart.Store
import ChartParsing.Proofs.Chart.Operations
import ChartParsing.Proofs.Parsing.Steps

/-!
# Tables of charts

A store keeps tables for what a chart looks up among its edges.  `Represents` says that a store is that of
a chart and that its tables answer what the chart does, and it is kept by every operation
(**`Represents.perform`**).

Main statement: **`Store.performAll_consistent`**.  After any run of operations the edges of a store have
different items, each edge is in one of the lists of work and there once, only edges in front of gaps are
deferred, and every table lists exactly the edges that it is for, in increasing order.
-/

namespace ChartParsing

variable {rules : Array Rule}

/-! ### Look-ups and new edges -/

namespace Chart

variable {c : Chart rules} {e : Edge rules} {n : Nat}

/-- A new edge comes last in every look-up that it belongs to. -/
theorem select_push (c : Chart rules) (e : Edge rules) (place : Destination)
    (p : Item rules → Bool) :
    (c.push e place).select p = c.select p ++ (if p e.item then [c.size] else []) := by
  have hold : (List.range c.size).filter (fun n => ((c.push e place).item? n).any p) =
      c.select p := by
    refine List.filter_congr (fun n hn => ?_)
    rw [item?_push, if_neg (Nat.ne_of_lt (List.mem_range.1 hn))]
  have hnew : [c.size].filter (fun n => ((c.push e place).item? n).any p) =
      if p e.item then [c.size] else [] := by
    rw [List.filter_cons, item?_push, if_pos rfl]
    rfl
  have hsplit : (c.push e place).select p =
      (List.range c.size ++ [c.size]).filter (fun n => ((c.push e place).item? n).any p) := by
    unfold select
    rw [size_push, List.range_succ]
  rw [hsplit, List.filter_append, hold, hnew]

theorem select_learn (c : Chart rules) (n : Nat) (ds : List Derivation) (p : Item rules → Bool) :
    (c.learn n ds).select p = c.select p := by
  unfold select
  rw [size_learn]
  exact List.filter_congr (fun m _ => by rw [item?_learn])

/-- Look-ups answer in increasing order. -/
theorem pairwise_select (c : Chart rules) (p : Item rules → Bool) :
    (c.select p).Pairwise (· < ·) :=
  List.pairwise_lt_range.filter _

end Chart

namespace Tables

variable (t : Tables rules) (n : Nat) (i : Item rules)

theorem get_waiting_enter (name : String) (place : Position) :
    (t.enter n i).waiting.get (name, place) = t.waiting.get (name, place) ++
      (if i.wanted? = some name ∧ i.stop = place then [n] else []) := by
  unfold enter
  cases hw : i.wanted? with
  | none => simp
  | some wanted =>
      dsimp only
      rw [Table.get_enter]
      simp only [Prod.mk.injEq, Option.some.injEq]

theorem get_allWaiting_enter (name : String) :
    (t.enter n i).allWaiting.get name = t.allWaiting.get name ++
      (if i.wanted? = some name then [n] else []) := by
  unfold enter
  cases hw : i.wanted? with
  | none => simp
  | some wanted =>
      dsimp only
      rw [Table.get_enter]
      simp only [Option.some.injEq]

theorem get_floating_enter (lhs : String) :
    (t.enter n i).floating.get lhs = t.floating.get lhs ++
      (if i.isReduced ∧ i.lhs = lhs ∧ i.isFloating then [n] else []) := by
  unfold enter
  dsimp only
  cases hr : i.isReduced with
  | false => simp
  | true =>
      cases hf : i.isFloating with
      | false => simp
      | true => simp [Table.get_enter]

/-- A finished edge is entered under its place and under `anywhere`; one that starts anywhere is entered
once. -/
theorem get_reduced_enter (lhs : String) (place : Position) :
    (t.enter n i).reduced.get (lhs, place) = t.reduced.get (lhs, place) ++
      (if i.isReduced ∧ i.lhs = lhs ∧ (place = .anywhere ∨ i.start = place) then [n] else []) := by
  unfold enter
  dsimp only
  cases hr : i.isReduced with
  | false => simp
  | true =>
      cases hs : i.start with
      | anywhere =>
          have hf : i.isFloating = true := Parser.isFloating_iff.2 hs
          rw [hf, if_pos rfl, if_pos rfl, Table.get_enter]
          cases place <;> simp
      | offset p =>
          have hf : i.isFloating = false := by
            rw [← Bool.not_eq_true, Parser.isFloating_iff, hs]
            simp
          rw [hf, if_pos rfl, if_neg (by simp), Table.get_enter, Table.get_enter]
          cases place <;> simp

end Tables

/-! ### Stores and charts -/

namespace Store

variable {s : Store rules} {c : Chart rules}

/-- The store is that of the chart, and its tables answer what the chart answers. -/
structure Represents (s : Store rules) (c : Chart rules) : Prop where
  chart : s.toChart = c
  cursor : s.cursor ≤ s.order.length
  keys : ∀ i n, s.find? i = some n ↔ c.item? n = some i
  waiting : ∀ name place, s.waiting name place = c.waiting name place
  allWaiting : ∀ name, s.allWaiting name = c.allWaiting name
  reduced : ∀ lhs place, s.reduced lhs place = c.reduced lhs place
  floatingReduced : ∀ lhs, s.floatingReduced lhs = c.floatingReduced lhs

theorem represents_empty : (empty : Store rules).Represents .empty where
  chart := rfl
  cursor := Nat.le_refl _
  keys i n := by simp [find?, empty, Tables.empty, Chart.item?, Chart.edge?, Chart.empty]
  waiting _ _ := rfl
  allWaiting _ := rfl
  reduced _ _ := rfl
  floatingReduced _ := rfl

theorem Represents.item? (h : s.Represents c) (n : Nat) : s.item? n = c.item? n := by
  rw [← h.chart]
  rfl

theorem Represents.edge? (h : s.Represents c) (n : Nat) : s.edge? n = c.edge? n := by
  rw [← h.chart]
  rfl

theorem Represents.size (h : s.Represents c) : s.edges.size = c.size := by
  rw [← h.chart]
  rfl

theorem Represents.find? (h : s.Represents c) (i : Item rules) : s.find? i = c.find? i := by
  cases hf : c.find? i with
  | some n => exact (h.keys i n).2 (Chart.item?_of_find? hf)
  | none =>
      refine Option.eq_none_iff_forall_ne_some.2 (fun n hn => ?_)
      exact Chart.item?_ne_of_find? hf n ((h.keys i n).1 hn)

/-- A new edge. -/
theorem Represents.push (h : s.Represents c) {e : Edge rules} (hf : c.find? e.item = none)
    (place : Destination) : (s.push e place).Represents (c.push e place) := by
  have htables : (s.push e place).tables = s.tables.enter c.size e.item := by
    rw [← h.size]
    unfold Store.push
    cases place <;> dsimp only <;> split <;> rfl
  have hchart := h.chart
  have hcursor := h.cursor
  have htake : (s.order ++ [s.edges.size]).take s.cursor = s.order.take s.cursor :=
    List.take_append_of_le_length hcursor
  have hdrop : (s.order ++ [s.edges.size]).drop s.cursor = s.order.drop s.cursor ++ [s.edges.size] :=
    List.drop_append_of_le_length hcursor
  refine ⟨?_, ?_, fun i n => ?_, fun name place' => ?_, fun name => ?_, fun lhs place' => ?_,
    fun lhs => ?_⟩
  · subst hchart
    unfold Store.push Chart.push toChart
    cases e.item.isAtGap with
    | true => rfl
    | false =>
        cases place with
        | agenda =>
            simp only [Bool.false_eq_true, if_false, htake, hdrop]
            rfl
        | staged => rfl
  · unfold Store.push
    cases e.item.isAtGap with
    | true => exact hcursor
    | false =>
        cases place with
        | agenda =>
            simp only [Bool.false_eq_true, if_false, List.length_append]
            omega
        | staged => exact hcursor
  · have hlookup : (s.push e place).find? i = if i = e.item then some c.size else s.find? i := by
      unfold Store.find?
      rw [htables]
      unfold Tables.enter
      rw [List.lookup_cons]
      by_cases hi : i = e.item
      · simp [hi]
      · simp [hi, beq_eq_false_iff_ne.2 hi]
    rw [hlookup, Chart.item?_push]
    by_cases hi : i = e.item
    · subst hi
      rw [if_pos rfl]
      by_cases hn : n = c.size
      · simp [hn]
      · rw [if_neg hn]
        simp [Chart.item?_ne_of_find? hf n, Ne.symm hn]
    · rw [if_neg hi, h.keys]
      by_cases hn : n = c.size
      · subst hn
        rw [if_pos rfl]
        have hnone : c.item? c.size ≠ some i :=
          fun hsize => Nat.lt_irrefl _ (Chart.lt_size_of_item? hsize)
        simp [hnone, Ne.symm hi]
      · rw [if_neg hn]
  · unfold Store.waiting Chart.waiting
    rw [htables, Tables.get_waiting_enter, Chart.select_push]
    have hold := h.waiting name place'
    unfold Store.waiting Chart.waiting at hold
    rw [hold]
    simp
  · unfold Store.allWaiting Chart.allWaiting
    rw [htables, Tables.get_allWaiting_enter, Chart.select_push]
    have hold := h.allWaiting name
    unfold Store.allWaiting Chart.allWaiting at hold
    rw [hold]
    simp
  · unfold Store.reduced Chart.reduced
    rw [htables, Tables.get_reduced_enter, Chart.select_push]
    have hold := h.reduced lhs place'
    unfold Store.reduced Chart.reduced at hold
    rw [hold]
    simp
  · unfold Store.floatingReduced Chart.floatingReduced
    rw [htables, Tables.get_floating_enter, Chart.select_push]
    have hold := h.floatingReduced lhs
    unfold Store.floatingReduced Chart.floatingReduced at hold
    rw [hold]
    simp

/-- Derivations change no item, so no table. -/
theorem Represents.learn (h : s.Represents c) (n : Nat) (ds : List Derivation) :
    (s.learn n ds).Represents (c.learn n ds) where
  chart := by
    rw [← h.chart]
    rfl
  cursor := h.cursor
  keys i m := by
    rw [Chart.item?_learn]
    exact h.keys i m
  waiting name place := (h.waiting name place).trans (Chart.select_learn c n ds _).symm
  allWaiting name := (h.allWaiting name).trans (Chart.select_learn c n ds _).symm
  reduced lhs place := (h.reduced lhs place).trans (Chart.select_learn c n ds _).symm
  floatingReduced lhs := (h.floatingReduced lhs).trans (Chart.select_learn c n ds _).symm

/-- A change to the lists of work changes no look-up. -/
theorem Represents.requeue (h : s.Represents c) {s' : Store rules} {c' : Chart rules}
    (hedges : c'.edges = c.edges) (htables : s'.tables = s.tables) (hchart : s'.toChart = c')
    (hcursor : s'.cursor ≤ s'.order.length) : s'.Represents c' := by
  have hitem (n : Nat) : c'.item? n = c.item? n := by
    unfold Chart.item? Chart.edge?
    rw [hedges]
  have hselect (p : Item rules → Bool) : c'.select p = c.select p := by
    unfold Chart.select Chart.size
    rw [hedges]
    exact List.filter_congr (fun n _ => by rw [hitem])
  refine ⟨hchart, hcursor, fun i n => ?_, fun name place => ?_, fun name => ?_, fun lhs place => ?_,
    fun lhs => ?_⟩
  · rw [hitem, ← h.keys]
    unfold Store.find?
    rw [htables]
  · refine Eq.trans ?_ ((h.waiting name place).trans (hselect _).symm)
    unfold Store.waiting
    rw [htables]
  · refine Eq.trans ?_ ((h.allWaiting name).trans (hselect _).symm)
    unfold Store.allWaiting
    rw [htables]
  · refine Eq.trans ?_ ((h.reduced lhs place).trans (hselect _).symm)
    unfold Store.reduced
    rw [htables]
  · refine Eq.trans ?_ ((h.floatingReduced lhs).trans (hselect _).symm)
    unfold Store.floatingReduced
    rw [htables]

/-! ### Operations on stores -/

theorem Represents.add (h : s.Represents c) (e : Edge rules) (place : Destination) :
    (s.add e place).1.Represents (c.add e place).1 ∧ (s.add e place).2 = (c.add e place).2 := by
  unfold Store.add
  rw [h.find?]
  cases hf : c.find? e.item with
  | some n =>
      rw [Chart.add_of_find? hf]
      exact ⟨h.learn n e.derivations, rfl⟩
  | none =>
      rw [Chart.add_of_find?_eq_none hf]
      exact ⟨h.push hf place, h.size⟩

theorem Represents.scan (h : s.Represents c) (base : Nat) (stop : Position) (texts : List String)
    (start : Option Position) :
    (s.scan base stop texts start).1.Represents (c.scan base stop texts start).1 ∧
      (s.scan base stop texts start).2 = (c.scan base stop texts start).2 := by
  unfold Store.scan Chart.scan
  rw [h.item?]
  cases c.item? base with
  | none => exact ⟨h, rfl⟩
  | some o => exact h.add _ .agenda

theorem Represents.seed (h : s.Represents c) (number : Fin rules.size) (start stop : Nat)
    (texts : List String) :
    (s.seed number start stop texts).1.Represents (c.seed number start stop texts).1 ∧
      (s.seed number start stop texts).2 = (c.seed number start stop texts).2 := by
  obtain ⟨hadd, hnumber⟩ := h.add ⟨.initial number (.offset start), []⟩ .staged
  unfold Store.seed Chart.seed
  dsimp only
  rw [hnumber]
  exact hadd.scan _ _ _ _

theorem Represents.advance (h : s.Represents c) (base child : Nat) :
    (s.advance base child).1.Represents (c.advance base child).1 ∧
      (s.advance base child).2 = (c.advance base child).2 := by
  unfold Store.advance Chart.advance
  rw [h.item?, h.item?]
  cases c.item? base with
  | none => exact ⟨h, rfl⟩
  | some o =>
      cases c.item? child with
      | none => exact ⟨h, rfl⟩
      | some f =>
          dsimp only
          by_cases hv : (Chart.veto? o f).isSome = true
          · rw [if_pos hv, if_pos hv]
            exact ⟨h, rfl⟩
          · rw [if_neg hv, if_neg hv]
            obtain ⟨hadd, hnumber⟩ :=
              h.add ⟨o.joined f, [⟨some base, some child, none⟩]⟩ .agenda
            exact ⟨hadd, congrArg some hnumber⟩

theorem Represents.settle (h : s.Represents c) : s.settle.Represents c.settle := by
  have hchart := h.chart
  subst hchart
  refine h.requeue rfl rfl ?_ ?_
  · unfold Store.settle Chart.settle Store.toChart
    simp only [Nat.add_comm s.cursor, List.take_length_add_append, List.drop_length_add_append]
  · have hcursor := h.cursor
    unfold Store.settle
    simp only [List.length_append]
    omega

/-- The next edge is behind the cursor. -/
theorem Represents.next? (h : s.Represents c) :
    (s.next? = none ∧ c.next? = none) ∨
      ∃ n s' c', s.next? = some (n, s') ∧ c.next? = some (n, c') ∧ s'.Represents c' := by
  have hchart := h.chart
  subst hchart
  cases hn : s.order[s.cursor]? with
  | none =>
      have hdrop : s.order.drop s.cursor = [] :=
        List.drop_eq_nil_of_le (List.getElem?_eq_none_iff.1 hn)
      refine .inl ⟨?_, ?_⟩
      · unfold Store.next?
        rw [hn]
      · unfold Chart.next? Store.toChart
        rw [hdrop]
  | some n =>
      obtain ⟨hlt, hget⟩ := List.getElem?_eq_some_iff.1 hn
      have hdrop : s.order.drop s.cursor = n :: s.order.drop (s.cursor + 1) := by
        rw [List.drop_eq_getElem_cons hlt, hget]
      have htake : s.order.take (s.cursor + 1) = s.order.take s.cursor ++ [n] := by
        rw [List.take_succ_eq_append_getElem hlt, hget]
      refine .inr ⟨n, { s with cursor := s.cursor + 1 },
        { s.toChart with
          processed := s.toChart.processed ++ [n], agenda := s.order.drop (s.cursor + 1) },
        ?_, ?_, ?_⟩
      · unfold Store.next?
        rw [hn]
      · unfold Chart.next? Store.toChart
        rw [hdrop]
      · refine h.requeue rfl rfl ?_ hlt
        unfold Store.toChart
        rw [htake]

/-- The deferred edges go to where the cursor is, and the cursor behind them. -/
theorem Represents.takeDeferred (h : s.Represents c) :
    s.takeDeferred.1 = c.takeDeferred.1 ∧ s.takeDeferred.2.Represents c.takeDeferred.2 := by
  have hchart := h.chart
  have hcursor := h.cursor
  subst hchart
  have hlength : (s.order.take s.cursor ++ s.deferred).length = s.cursor + s.deferred.length := by
    rw [List.length_append, List.length_take_of_le hcursor]
  refine ⟨rfl, h.requeue rfl rfl ?_ ?_⟩
  · unfold Store.takeDeferred Chart.takeDeferred Store.toChart
    dsimp only
    rw [← hlength, List.take_left, List.drop_left]
  · unfold Store.takeDeferred
    dsimp only
    rw [List.append_assoc, ← List.append_assoc, List.length_append, hlength]
    exact Nat.le_add_right _ _

theorem Represents.merge (h : s.Represents c) (into : Nat) (source : Edge rules) :
    (∃ e, s.merge into source = .error e ∧ c.merge into source = .error e) ∨
      ∃ s' c', s.merge into source = .ok s' ∧ c.merge into source = .ok c' ∧ s'.Represents c' := by
  unfold Store.merge Chart.merge
  rw [h.edge?]
  cases c.edge? into with
  | none => exact .inr ⟨s, c, rfl, rfl, h⟩
  | some target =>
      dsimp only
      by_cases hi : target.item = source.item
      · rw [if_pos hi, if_pos hi]
        exact .inr ⟨_, _, rfl, rfl, h.learn into source.derivations⟩
      · rw [if_neg hi, if_neg hi]
        exact .inl ⟨_, rfl, rfl⟩

/-- **Every operation does the same** to a store and to its chart, and answers the same. -/
theorem Represents.perform (h : s.Represents c) (op : Operation rules) :
    (s.perform op).1.Represents (c.perform op).1 ∧ (s.perform op).2 = (c.perform op).2 := by
  cases op with
  | predict number place =>
      obtain ⟨hadd, hnumber⟩ := h.add ⟨.initial number place, []⟩ .agenda
      exact ⟨hadd, congrArg (fun n => Answer.edge (some n)) hnumber⟩
  | seed number start stop texts =>
      obtain ⟨hseed, hnumber⟩ := h.seed number start stop texts
      exact ⟨hseed, congrArg (fun n => Answer.edge (some n)) hnumber⟩
  | scan base stop texts start =>
      obtain ⟨hscan, hnumber⟩ := h.scan base stop texts start
      exact ⟨hscan, congrArg (fun n => Answer.edge (some n)) hnumber⟩
  | advance base child =>
      obtain ⟨hadvance, hnumber⟩ := h.advance base child
      exact ⟨hadvance, congrArg Answer.edge hnumber⟩
  | merge into source =>
      unfold Store.perform Chart.perform
      dsimp only
      rcases h.merge into source with ⟨e, hs, hc⟩ | ⟨s', c', hs, hc, h'⟩
      · rw [hs, hc]
        exact ⟨h, rfl⟩
      · rw [hs, hc]
        exact ⟨h', rfl⟩
  | settle => exact ⟨h.settle, rfl⟩
  | next =>
      unfold Store.perform Chart.perform
      dsimp only
      rcases h.next? with ⟨hs, hc⟩ | ⟨n, s', c', hs, hc, h'⟩
      · rw [hs, hc]
        exact ⟨h, rfl⟩
      · rw [hs, hc]
        exact ⟨h', rfl⟩
  | takeDeferred =>
      obtain ⟨hnumbers, htake⟩ := h.takeDeferred
      exact ⟨htake, congrArg Answer.edges hnumbers⟩

theorem Represents.performAll (h : s.Represents c) (ops : List (Operation rules)) :
    (s.performAll ops).1.Represents (c.performAll ops).1 ∧
      (s.performAll ops).2 = (c.performAll ops).2 := by
  induction ops generalizing s c with
  | nil => exact ⟨h, rfl⟩
  | cons op rest ih =>
      obtain ⟨hop, hanswer⟩ := h.perform op
      obtain ⟨hrest, hanswers⟩ := ih hop
      exact ⟨hrest, List.cons_eq_cons.2 ⟨hanswer, hanswers⟩⟩

/-! ### Consistent stores -/

/-- The numbers are those of the edges whose items are of this kind, in increasing order. -/
def Lists (s : Store rules) (numbers : List Nat) (kind : Item rules → Prop) : Prop :=
  numbers.Pairwise (· < ·) ∧ ∀ n, n ∈ numbers ↔ ∃ i, s.item? n = some i ∧ kind i

/-- The bookkeeping of a store is in order. -/
structure Consistent (s : Store rules) : Prop where
  /-- No two edges have one item. -/
  unique : ∀ n m i, s.item? n = some i → s.item? m = some i → n = m
  /-- An item leads to the number of its edge, and other items lead nowhere. -/
  keys : ∀ i n, s.find? i = some n ↔ s.item? n = some i
  /-- Every edge is in one list of work, and there once. -/
  numbered : (s.order ++ s.staged ++ s.deferred).Perm (List.range s.edges.size)
  cursor : s.cursor ≤ s.order.length
  /-- Neither staged edges nor those behind the cursor are in front of gaps. -/
  ahead : ∀ n ∈ s.staged ++ s.order.drop s.cursor, ∃ i, s.item? n = some i ∧ i.isAtGap = false
  /-- All deferred edges are. -/
  deferred : ∀ n ∈ s.deferred, ∃ i, s.item? n = some i ∧ i.isAtGap = true
  waiting : ∀ name place, s.Lists (s.waiting name place)
    (fun i => i.next? = some (.nonterminal name) ∧ i.stop = place)
  allWaiting : ∀ name, s.Lists (s.allWaiting name) (fun i => i.next? = some (.nonterminal name))
  reducedAt : ∀ lhs p, s.Lists (s.reduced lhs (.offset p))
    (fun i => i.isReduced = true ∧ i.lhs = lhs ∧ i.start = .offset p)
  reducedAnywhere : ∀ lhs, s.Lists (s.reduced lhs .anywhere)
    (fun i => i.isReduced = true ∧ i.lhs = lhs)
  floatingReduced : ∀ lhs, s.Lists (s.floatingReduced lhs)
    (fun i => i.isReduced = true ∧ i.lhs = lhs ∧ i.start = .anywhere)

theorem Represents.lists (h : s.Represents c) {numbers : List Nat} {p : Item rules → Bool}
    {kind : Item rules → Prop} (hnumbers : numbers = c.select p)
    (hkind : ∀ i, p i = true ↔ kind i) : s.Lists numbers kind := by
  subst hnumbers
  refine ⟨Chart.pairwise_select c p, fun n => ?_⟩
  rw [Chart.mem_select]
  simp only [h.item?, hkind]

theorem wanted?_eq_some {i : Item rules} {name : String} :
    i.wanted? = some name ↔ i.next? = some (.nonterminal name) := by
  refine ⟨Parser.next?_of_wanted?, fun h => ?_⟩
  unfold Item.wanted?
  rw [h]
  rfl

/-- The store of a well-formed chart is consistent. -/
theorem Represents.consistent (h : s.Represents c) (hw : c.WellFormed) : s.Consistent := by
  have hnumbered : (s.order ++ s.staged ++ s.deferred).Perm (List.range s.edges.size) := by
    have hall := hw.numbered
    rw [← h.chart] at hall
    have horder : s.toChart.processed ++ s.toChart.agenda = s.order :=
      List.take_append_drop s.cursor s.order
    rw [horder] at hall
    exact hall
  have hexists {n : Nat} (hn : n ∈ s.order ++ s.staged ++ s.deferred) :
      ∃ i, s.item? n = some i := by
    obtain ⟨i, hi⟩ := Chart.exists_item_of_lt_size
      (h.size ▸ List.mem_range.1 (hnumbered.mem_iff.1 hn))
    exact ⟨i, (h.item? n).trans hi⟩
  have hagenda : c.agenda = s.order.drop s.cursor := by
    rw [← h.chart]
    rfl
  have hstaged : c.staged = s.staged := by
    rw [← h.chart]
    rfl
  have hdeferred : c.deferred = s.deferred := by
    rw [← h.chart]
    rfl
  refine ⟨fun n m i hn hm => ?_, fun i n => ?_, hnumbered, h.cursor, fun n hn => ?_,
    fun n hn => ?_, fun name place => ?_, fun name => ?_, fun lhs p => ?_, fun lhs => ?_,
    fun lhs => ?_⟩
  · rw [h.item?] at hn hm
    exact hw.unique n m i hn hm
  · rw [h.item?]
    exact h.keys i n
  · obtain ⟨i, hi⟩ := hexists (n := n) (by
      rcases List.mem_append.1 hn with hn | hn
      · simp [hn]
      · simp [List.mem_of_mem_drop hn])
    refine ⟨i, hi, hw.waiting n ?_ i ((h.item? n).symm.trans hi)⟩
    rw [hagenda, hstaged, List.mem_append]
    exact (List.mem_append.1 hn).symm
  · obtain ⟨i, hi⟩ := hexists (n := n) (by simp [hn])
    exact ⟨i, hi, hw.deferred n (hdeferred ▸ hn) i ((h.item? n).symm.trans hi)⟩
  · exact h.lists (h.waiting name place) (fun i => by simp [wanted?_eq_some])
  · exact h.lists (h.allWaiting name) (fun i => by simp [wanted?_eq_some])
  · exact h.lists (h.reduced lhs (.offset p)) (fun i => by simp)
  · exact h.lists (h.reduced lhs .anywhere) (fun i => by simp)
  · exact h.lists (h.floatingReduced lhs) (fun i => by simp [Parser.isFloating_iff])

/-- **Every run of operations leaves a consistent store.**  It is the store of the chart that the same run
leaves, with the same answers on the way; and whatever is done later, an edge keeps its number, its rule, its
dot and its span, and the derivations that it has, in their order. -/
theorem performAll_consistent (ops more : List (Operation rules)) :
    (empty.performAll ops).1.Consistent ∧
      (empty.performAll ops).1.toChart = (Chart.empty.performAll ops).1 ∧
      (empty.performAll ops).2 = (Chart.empty.performAll ops).2 ∧
      ∀ n e, (empty.performAll ops).1.edge? n = some e →
        ∃ e', (empty.performAll (ops ++ more)).1.edge? n = some e' ∧ e'.item = e.item ∧
          e.derivations <+: e'.derivations := by
  obtain ⟨hs, hanswers⟩ := represents_empty.performAll ops
  obtain ⟨hs', -⟩ := represents_empty.performAll (ops ++ more)
  refine ⟨hs.consistent (Chart.wellFormed_performAll Chart.wellFormed_empty ops), hs.chart, hanswers,
    fun n e he => ?_⟩
  rw [hs.edge?] at he
  rw [hs'.edge?, Chart.performAll_append]
  exact Chart.extends_performAll _ more n e he

end Store

end ChartParsing
