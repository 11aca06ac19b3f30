import ChartParsing.Parser.Work
import ChartParsing.Proofs.Chart.Repetition
import ChartParsing.Proofs.Parsing.Runs

/-!
# Parsing with a store

Work on a store `Follows` what is done with a chart if it comes to the same and leaves the store of the
chart that is left, whatever store of the chart it starts from.  There is one lemma for each step of a
parser.  The only place where a failure could come in is the addition of an edge: the table of keys leads to
the edge with its item, so the merge succeeds (**`follows_add`**).

Main statement: **`parseWithin_follows`**.
-/

namespace ChartParsing

variable {rules : Array Rule}

/-- What is left of a step that may have failed. -/
def Failure.toExcept : Option Failure → Except Failure Unit
  | none => .ok ()
  | some e => .error e

namespace Work

variable {α β : Type} {c c' : Chart rules} {n : Nat}

/-! ### Work that follows a chart -/

/-- From every store of the chart the work comes to the first and leaves a store of the second. -/
def Follows (x : Work rules α) (c : Chart rules) (w : Except Failure α × Chart rules) : Prop :=
  ∀ s : Store rules, s.Represents c → (x.outcome s).1 = w.1 ∧ (x.outcome s).2.Represents w.2

theorem outcome_bind (x : Work rules α) (f : α → Work rules β) (s : Store rules) :
    (x >>= f).outcome s = match x.outcome s with
      | (.ok a, s') => (f a).outcome s'
      | (.error e, s') => (.error e, s') := by
  show (match x.outcome s with | (answer, s') => ExceptT.bindCont f answer s') = _
  rcases x.outcome s with ⟨_ | a, s'⟩ <;> rfl

theorem outcome_look_bind (f : Store rules → α) (k : α → Work rules β) (s : Store rules) :
    (look f >>= k).outcome s = (k (f s)).outcome s :=
  rfl

theorem follows_pure (a : α) : (pure a : Work rules α).Follows c (.ok a, c) :=
  fun _ h => ⟨rfl, h⟩

theorem follows_throw (e : Failure) : (throw e : Work rules α).Follows c (.error e, c) :=
  fun _ h => ⟨rfl, h⟩

theorem Follows.bind {x : Work rules α} {f : α → Work rules β} {a : α}
    {w : Except Failure β × Chart rules} (hx : x.Follows c (.ok a, c')) (hf : (f a).Follows c' w) :
    (x >>= f).Follows c w := by
  intro s hs
  obtain ⟨hanswer, hleft⟩ := hx s hs
  rw [outcome_bind]
  generalize x.outcome s = r at hanswer hleft
  obtain ⟨answer, s'⟩ := r
  subst hanswer
  exact hf s' hleft

theorem Follows.bind_error {x : Work rules α} (f : α → Work rules β) {e : Failure}
    (hx : x.Follows c (.error e, c')) : (x >>= f).Follows c (.error e, c') := by
  intro s hs
  obtain ⟨hanswer, hleft⟩ := hx s hs
  rw [outcome_bind]
  generalize x.outcome s = r at hanswer hleft
  obtain ⟨answer, s'⟩ := r
  subst hanswer
  exact ⟨rfl, hleft⟩

/-- Looking something up that is the same in every store of the chart. -/
theorem follows_look {f : Store rules → α} {a : α} (h : ∀ s : Store rules, s.Represents c → f s = a) :
    (look f).Follows c (.ok a, c) :=
  fun s hs => ⟨congrArg Except.ok (h s hs), hs⟩

theorem Follows.look_bind {f : Store rules → α} {k : α → Work rules β} {a : α}
    {w : Except Failure β × Chart rules} (h : ∀ s : Store rules, s.Represents c → f s = a)
    (hk : (k a).Follows c w) : (look f >>= k).Follows c w :=
  (follows_look h).bind hk

theorem Follows.discard {x : Work rules α} {a : α} (h : x.Follows c (.ok a, c')) :
    (Functor.discard x).Follows c (.ok (), c') :=
  h.bind (follows_pure ())

/-- Steps for all of a list, where each step follows. -/
theorem follows_forM {f : α → Work rules Unit} {step : Chart rules → α → Chart rules} {list : List α}
    (h : ∀ c a, a ∈ list → (f a).Follows c (.ok (), step c a)) :
    (list.forM f).Follows c (.ok (), list.foldl step c) := by
  induction list generalizing c with
  | nil => exact follows_pure ()
  | cons a list ih =>
      exact (h c a (by simp)).bind (ih (fun c b hb => h c b (List.mem_cons_of_mem a hb)))

/-! ### Operations -/

theorem follows_merge {target e : Edge rules} (ht : c.edge? n = some target)
    (hi : target.item = e.item) : (merge n e).Follows c (.ok (), c.learn n e.derivations) := by
  intro s hs
  have hok : s.merge n e = .ok (s.learn n e.derivations) :=
    Store.merge_of_eq ((hs.edge? n).trans ht) hi
  have houtcome : (merge n e).outcome s = (.ok (), s.learn n e.derivations) := by
    unfold merge
    rw [outcome_look_bind, hok]
    rfl
  rw [houtcome]
  exact ⟨rfl, hs.learn n e.derivations⟩

/-- **The merge of an addition succeeds**: the table of keys leads to the edge with the same item. -/
theorem follows_add (c : Chart rules) (e : Edge rules) (place : Destination) :
    (add e place).Follows c (.ok (c.add e place).2, (c.add e place).1) := by
  cases hf : c.find? e.item with
  | some n =>
      rw [Chart.add_of_find? hf]
      refine Follows.look_bind (fun s hs => (hs.find? e.item).trans hf) ?_
      obtain ⟨target, ht, hi⟩ := Chart.item?_eq_some.1 (Chart.item?_of_find? hf)
      exact (follows_merge ht hi).bind (follows_pure n)
  | none =>
      rw [Chart.add_of_find?_eq_none hf]
      refine Follows.look_bind (fun s hs => (hs.find? e.item).trans hf) ?_
      refine Follows.look_bind (fun s hs => hs.size) ?_
      have hpush : (modify (·.push e place) : Work rules Unit).Follows c (.ok (), c.push e place) :=
        fun s hs => ⟨rfl, hs.push hf place⟩
      exact hpush.bind (follows_pure c.size)

theorem follows_predict (c : Chart rules) (number : Fin rules.size) (place : Position) :
    (predict number place).Follows c
      (.ok (c.predict number place).2, (c.predict number place).1) :=
  follows_add c _ .agenda

theorem follows_advance (c : Chart rules) (base child : Nat) :
    (advance base child).Follows c (.ok (c.advance base child).2, (c.advance base child).1) := by
  refine Follows.look_bind (fun s hs => hs.item? base) ?_
  refine Follows.look_bind (fun s hs => hs.item? child) ?_
  unfold Chart.advance
  cases c.item? base with
  | none => exact follows_pure none
  | some o =>
      cases c.item? child with
      | none => exact follows_pure none
      | some f =>
          dsimp only
          by_cases hv : (Chart.veto? o f).isSome = true
          · rw [if_pos hv, if_pos hv]
            exact follows_pure none
          · rw [if_neg hv, if_neg hv]
            exact (follows_add c _ .agenda).bind (follows_pure _)

theorem follows_scan (c : Chart rules) (base : Nat) (stop : Position) (texts : List String)
    (start : Option Position) : (scan base stop texts start).Follows c
      (.ok (c.scan base stop texts start).2, (c.scan base stop texts start).1) := by
  refine Follows.look_bind (fun s hs => hs.item? base) ?_
  unfold Chart.scan
  cases c.item? base with
  | none => exact follows_pure base
  | some o => exact follows_add c _ .agenda

theorem follows_seed (c : Chart rules) (number : Fin rules.size) (start stop : Nat)
    (texts : List String) : (seed number start stop texts).Follows c
      (.ok (c.seed number start stop texts).2, (c.seed number start stop texts).1) :=
  (follows_add c _ .staged).bind (follows_scan _ _ _ _ _)

theorem follows_next_some {c' : Chart rules} (h : c.next? = some (n, c')) :
    (next? : Work rules (Option Nat)).Follows c (.ok (some n), c') := by
  intro s hs
  rcases hs.next? with ⟨-, hc⟩ | ⟨m, s', d, hs', hc, hrep⟩
  · exact absurd (h.symm.trans hc) (by simp)
  · obtain ⟨rfl, rfl⟩ := Prod.mk.inj (Option.some.inj (h.symm.trans hc))
    have houtcome : (next? : Work rules (Option Nat)).outcome s = (.ok (some n), s') := by
      unfold next?
      rw [outcome_look_bind, hs']
      rfl
    rw [houtcome]
    exact ⟨rfl, hrep⟩

theorem follows_next_none (h : c.next? = none) :
    (next? : Work rules (Option Nat)).Follows c (.ok none, c) := by
  intro s hs
  rcases hs.next? with ⟨hs', -⟩ | ⟨m, s', d, -, hc, -⟩
  · have houtcome : (next? : Work rules (Option Nat)).outcome s = (.ok none, s) := by
      unfold next?
      rw [outcome_look_bind, hs']
      rfl
    rw [houtcome]
    exact ⟨rfl, hs⟩
  · exact absurd (h.symm.trans hc) (by simp)

theorem follows_takeDeferred :
    (takeDeferred : Work rules (List Nat)).Follows c (.ok c.takeDeferred.1, c.takeDeferred.2) := by
  intro s hs
  obtain ⟨hnumbers, hleft⟩ := hs.takeDeferred
  exact ⟨congrArg Except.ok hnumbers, hleft⟩

/-! ### Steps on one edge -/

section Steps

variable {g : Grammar} {c : Chart g.rules} (strategy : Strategy) (lexer : Lexer) (input : Text)
  (n : Nat)

theorem follows_predictAll (place : Position) (numbers : List g.RuleId) :
    (predictAll place numbers).Follows c (.ok (), Parser.predictAll place c numbers) :=
  follows_forM (fun c number _ => (follows_predict c number place).discard)

theorem follows_predictIf (b : Bool) (place : Position) (numbers : List g.RuleId) :
    (predictIf b place numbers).Follows c
      (.ok (), if b then Parser.predictAll place c numbers else c) := by
  cases b with
  | false => exact follows_pure ()
  | true => exact follows_predictAll place numbers

theorem waitingFor_eq {s : Store g.rules} (h : s.Represents c) (i : Item g.rules) :
    waitingFor s i = Parser.waitingFor c i := by
  unfold waitingFor Parser.waitingFor
  cases i.start with
  | anywhere => exact h.allWaiting i.lhs
  | offset p =>
      dsimp only
      rw [h.waiting, h.waiting]

theorem readyFor_eq {s : Store g.rules} (h : s.Represents c) (name : String) (place : Position) :
    readyFor s name place = Parser.readyFor c name place := by
  unfold readyFor Parser.readyFor
  cases place with
  | anywhere => exact h.reduced name .anywhere
  | offset p =>
      dsimp only
      rw [h.reduced, h.floatingReduced]

theorem gapEnds_eq {s : Store g.rules} (h : s.Represents c) (gap : Gap) (name : String)
    (place : Nat) : gapEnds s gap name place = Parser.gapEnds c gap name place := by
  have hitem : s.item? = c.item? := funext h.item?
  unfold gapEnds Parser.gapEnds
  rw [h.reduced, hitem]

theorem follows_complete :
    (complete strategy n).Follows c (.ok (), Parser.complete strategy c n) := by
  refine Follows.look_bind (fun s hs => hs.item? n) ?_
  unfold Parser.complete
  cases c.item? n with
  | none => exact follows_pure ()
  | some i =>
      refine (follows_predictIf _ _ _).bind ?_
      refine Follows.look_bind (fun s hs => waitingFor_eq hs i) ?_
      exact follows_forM (fun c base _ => (follows_advance c base n).discard)

theorem follows_predictWanted :
    (predictWanted strategy n).Follows c (.ok (), Parser.predict strategy c n) := by
  refine Follows.look_bind (fun s hs => hs.item? n) ?_
  unfold Parser.predict
  cases c.item? n with
  | none => exact follows_pure ()
  | some i =>
      dsimp only
      cases i.wanted? with
      | none => exact follows_pure ()
      | some name =>
          refine (follows_predictIf _ _ _).bind ?_
          refine (follows_predictIf _ _ _).bind ?_
          refine Follows.look_bind (fun s hs => readyFor_eq hs name i.stop) ?_
          exact follows_forM (fun c child _ => (follows_advance c n child).discard)

theorem follows_scanTerminal :
    (scanTerminal lexer input n).Follows c (.ok (), Parser.scan lexer input c n) := by
  refine Follows.look_bind (fun s hs => hs.item? n) ?_
  unfold Parser.scan
  cases c.item? n with
  | none => exact follows_pure ()
  | some i =>
      dsimp only
      cases i.next? with
      | none => exact follows_pure ()
      | some s =>
          dsimp only
          cases i.stop with
          | offset place =>
              dsimp only
              cases lexer s input place with
              | none => exact follows_pure ()
              | some m => exact (follows_scan c _ _ _ _).discard
          | anywhere =>
              refine follows_forM (fun c o _ => ?_)
              cases lexer s input o.start with
              | none => exact follows_pure ()
              | some m => exact (follows_scan c _ _ _ _).discard

theorem follows_process :
    (process strategy lexer input n).Follows c (.ok (), Parser.process strategy lexer input c n) := by
  refine Follows.look_bind (fun s hs => hs.item? n) ?_
  unfold Parser.process
  cases c.item? n with
  | none => exact follows_pure ()
  | some i =>
      dsimp only
      by_cases hr : i.isReduced = true
      · rw [if_pos hr, if_pos hr]
        exact follows_complete strategy n
      · rw [if_neg hr, if_neg hr]
        by_cases hs : i.isShift = true
        · rw [if_pos hs, if_pos hs]
          exact follows_scanTerminal lexer input n
        · rw [if_neg hs, if_neg hs]
          exact follows_predictWanted strategy n

/-! ### Filling gaps -/

/-- Filling succeeds or fails as it does with the chart; if it fails the chart is left as it is. -/
theorem follows_fillGap : (fillGap input n).Follows c
    (match Parser.fillGap input c n with
      | .ok c' => (.ok (), c')
      | .error e => (.error e, c)) := by
  refine Follows.look_bind (fun s hs => hs.item? n) ?_
  unfold Parser.fillGap
  cases c.item? n with
  | none => exact follows_pure ()
  | some i =>
      dsimp only
      cases Parser.gapAt i with
      | error e => exact follows_throw e
      | ok found =>
          obtain ⟨gap, name⟩ := found
          cases i.stop with
          | anywhere => exact follows_pure ()
          | offset place =>
              refine Follows.look_bind (fun s hs => gapEnds_eq hs gap name place) ?_
              refine follows_forM (fun c stop _ => ?_)
              cases gap.matchSpan? input place stop with
              | none => exact follows_pure ()
              | some m => exact (follows_scan c _ _ _ _).discard

theorem follows_fillGaps (numbers : List Nat) : (numbers.forM (fillGap input)).Follows c
    (Failure.toExcept (Parser.fillGaps input c numbers).2, (Parser.fillGaps input c numbers).1) := by
  induction numbers generalizing c with
  | nil => exact follows_pure ()
  | cons n rest ih =>
      have hfill := follows_fillGap (c := c) input n
      unfold Parser.fillGaps
      cases hf : Parser.fillGap input c n with
      | ok c' =>
          rw [hf] at hfill
          exact hfill.bind ih
      | error e =>
          rw [hf] at hfill
          exact hfill.bind_error _

/-! ### The whole input -/

theorem follows_seedRule (number : g.RuleId) :
    (seedRule lexer input number).Follows c (.ok (), Parser.seedRule lexer input c number) := by
  unfold seedRule Parser.seedRule
  cases (g.rule number).first? with
  | none => exact follows_pure ()
  | some s =>
      refine follows_forM (fun c o _ => ?_)
      cases lexer s input o.start with
      | none => exact follows_pure ()
      | some m => exact (follows_seed c _ _ _ _).discard

theorem follows_begin : (begin strategy lexer input : Work g.rules Unit).Follows .empty
    (.ok (), Parser.begin strategy lexer input) := by
  have hsettle (c : Chart g.rules) :
      (modify Store.settle : Work g.rules Unit).Follows c (.ok (), c.settle) :=
    fun s hs => ⟨rfl, hs.settle⟩
  have hbottomUp : (beginBottomUp lexer input : Work g.rules Unit).Follows .empty
      (.ok (), Parser.beginBottomUp lexer input .empty) :=
    (follows_forM (fun c number _ => follows_seedRule lexer input number)).bind
      (follows_predictAll _ _)
  cases strategy with
  | topDown => exact (follows_predictAll _ _).bind (hsettle _)
  | bottomUp => exact hbottomUp.bind (hsettle _)
  | bottomUpWithGaps => exact hbottomUp.bind (hsettle _)

theorem follows_drain (fuel : Nat) : (drain strategy lexer input fuel).Follows c
    (Failure.toExcept (Parser.drain strategy lexer input fuel c).2,
      (Parser.drain strategy lexer input fuel c).1) := by
  induction fuel generalizing c with
  | zero => exact follows_throw _
  | succ fuel ih =>
      cases hn : c.next? with
      | some found =>
          rw [(Parser.Turn.edge hn).drain_eq]
          exact (follows_next_some hn).bind ((follows_process strategy lexer input _).bind ih)
      | none =>
          refine (follows_next_none hn).bind ?_
          refine Follows.look_bind (a := !c.hasDeferred) (fun s hs => ?_) ?_
          · rw [← hs.chart]
            exact (Bool.not_not _).symm
          cases hd : c.hasDeferred with
          | false =>
              have hstop : Parser.Stopped strategy lexer input (c, none) :=
                Parser.stopped_iff.2 ⟨Chart.next?_eq_none hn, by simpa [Chart.hasDeferred] using hd⟩
              rw [Parser.drain_of_stopped hstop]
              exact follows_pure ()
          | true =>
              refine follows_takeDeferred.bind ?_
              by_cases hs : strategy = .bottomUpWithGaps
              · have hfill := follows_fillGaps (c := c.takeDeferred.2) input c.takeDeferred.1
                rw [if_pos hs, (Parser.Turn.gaps hn hd hs).drain_eq]
                generalize Parser.fillGaps input c.takeDeferred.2 c.takeDeferred.1 = filled at hfill ⊢
                obtain ⟨c', _ | e⟩ := filled
                · exact hfill.bind ih
                · exact hfill.bind_error _
              · rw [if_neg hs, (Parser.Turn.pass hn hd hs).drain_eq]
                exact ih

/-- **A parse with a store** comes to what a parse with a chart comes to, and leaves its store. -/
theorem parseWithin_follows (turns : Nat) :
    (parseWithin g strategy lexer input turns).Follows .empty
      (Failure.toExcept (Parser.parseWithin g strategy lexer input turns).2,
        (Parser.parseWithin g strategy lexer input turns).1) :=
  (follows_begin strategy lexer input).bind (follows_drain strategy lexer input turns)

end Steps

end Work

end ChartParsing
