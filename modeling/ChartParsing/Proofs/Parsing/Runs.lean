import ChartParsing.Proofs.Parsing.Termination

/-!
# Runs of a parser

`drain` is told how many turns it may take.  `Turn` and `Run` say what it does without that number: a
turn hands out the next edge of the agenda, or all deferred edges once the agenda is empty, and a run
goes from one turn to the next until it has stopped.  A run keeps the list of what it has handed out.

* **`drain_run`**: what `drain` answers is where a run stops, unless the turns were too few.
* **`Run.eq_of_stopped`**: runs that have stopped have come to the same.
* **`Run.processed_eq`**: the processed edges are those from before the first turn, and behind them what
  was handed out, in this order.  So no edge is handed out twice.

Main statement: **`parse_ends`**.  With a lexer that stays within the input a parse comes to an end, and
the items within the input bound both its chart and what is handed out.
-/

namespace ChartParsing

namespace Parser

variable {g : Grammar} {strategy : Strategy} {lexer : Lexer} {input : Text}
  {c c' : Chart g.rules} {w w' : Chart g.rules × Option Failure} {taken more : List Nat} {n : Nat}

/-! ### Turns and runs -/

/-- One turn of a parser, with the edges that it hands out and what it comes to. -/
inductive Turn (strategy : Strategy) (lexer : Lexer) (input : Text) (c : Chart g.rules) :
    List Nat → Chart g.rules × Option Failure → Prop
  /-- The next edge of the agenda is processed. -/
  | edge {n : Nat} {c' : Chart g.rules} (hn : c.next? = some (n, c')) :
      Turn strategy lexer input c [n] (process strategy lexer input c' n, none)
  /-- The agenda is empty, and the gaps behind the deferred edges are filled. -/
  | gaps (hn : c.next? = none) (hd : c.hasDeferred = true) (hs : strategy = .bottomUpWithGaps) :
      Turn strategy lexer input c c.takeDeferred.1 (fillGaps input c.takeDeferred.2 c.takeDeferred.1)
  /-- The agenda is empty, and nothing is done with the deferred edges. -/
  | pass (hn : c.next? = none) (hd : c.hasDeferred = true) (hs : strategy ≠ .bottomUpWithGaps) :
      Turn strategy lexer input c c.takeDeferred.1 (c.takeDeferred.2, none)

/-- What a parser comes to by some turns from the beginning of an input, and what these have handed
out. -/
inductive Run (strategy : Strategy) (lexer : Lexer) (input : Text) :
    List Nat → Chart g.rules × Option Failure → Prop
  | start : Run strategy lexer input [] (begin strategy lexer input, none)
  | turn {taken more : List Nat} {c : Chart g.rules} {w : Chart g.rules × Option Failure}
      (h : Run strategy lexer input taken (c, none)) (ht : Turn strategy lexer input c more w) :
      Run strategy lexer input (taken ++ more) w

/-- What `drain` makes of what a turn came to: nothing more if something went wrong. -/
def carryOn (strategy : Strategy) (lexer : Lexer) (input : Text) (fuel : Nat) :
    Chart g.rules × Option Failure → Chart g.rules × Option Failure
  | (c, none) => drain strategy lexer input fuel c
  | (c, some e) => (c, some e)

/-- There is no further turn: something went wrong, or there is nothing left to hand out. -/
def Stopped (strategy : Strategy) (lexer : Lexer) (input : Text)
    (w : Chart g.rules × Option Failure) : Prop :=
  w.2 ≠ none ∨ ∀ more w', ¬ Turn strategy lexer input w.1 more w'

theorem stopped_iff : Stopped strategy lexer input (c, none) ↔ c.agenda = [] ∧ c.deferred = [] := by
  constructor
  · rintro (h | h)
    · exact absurd rfl h
    · cases hn : c.next? with
      | some x => exact absurd (.edge hn) (h [x.1] _)
      | none =>
          refine ⟨Chart.next?_eq_none hn, ?_⟩
          cases hd : c.hasDeferred with
          | false => simpa [Chart.hasDeferred] using hd
          | true =>
              by_cases hs : strategy = .bottomUpWithGaps
              · exact absurd (.gaps hn hd hs) (h _ _)
              · exact absurd (.pass hn hd hs) (h _ _)
  · rintro ⟨ha, hd⟩
    have hn := Chart.next?_of_agenda ha
    have hdef : c.hasDeferred = false := by simp [Chart.hasDeferred, hd]
    refine .inr (fun more w' ht => ?_)
    cases ht with
    | edge hn' => simp [hn] at hn'
    | gaps _ hd' _ => simp [hdef] at hd'
    | pass _ hd' _ => simp [hdef] at hd'

/-! ### Runs and `drain` -/

/-- One turn of `drain` is a turn. -/
theorem Turn.drain_eq (h : Turn strategy lexer input c more w) (fuel : Nat) :
    drain strategy lexer input (fuel + 1) c = carryOn strategy lexer input fuel w := by
  cases h with
  | edge hn =>
      rw [drain]
      simp only [hn, carryOn]
  | gaps hn hd hs =>
      rw [drain]
      simp only [hn, hd, Bool.not_true, Bool.false_eq_true, if_false, hs, if_true]
      rfl
  | pass hn hd hs =>
      rw [drain]
      simp only [hn, hd, Bool.not_true, Bool.false_eq_true, if_false, hs, carryOn]

/-- With nothing left to hand out `drain` is done. -/
theorem drain_of_stopped (h : Stopped strategy lexer input (c, none)) (fuel : Nat) :
    drain strategy lexer input (fuel + 1) c = (c, none) := by
  obtain ⟨ha, hd⟩ := stopped_iff.1 h
  unfold drain Chart.next?
  rw [ha]
  simp [Chart.hasDeferred, hd]

/-- What a run has come to `drain` comes to, if it may take enough turns. -/
theorem Run.drain_eq (h : Run strategy lexer input taken w) :
    ∃ k, ∀ fuel, parseWithin g strategy lexer input (k + fuel) =
      carryOn strategy lexer input fuel w := by
  induction h with
  | start => exact ⟨0, fun fuel => by rw [Nat.zero_add]; rfl⟩
  | turn _ ht ih =>
      obtain ⟨k, hk⟩ := ih
      refine ⟨k + 1, fun fuel => ?_⟩
      rw [Nat.add_assoc, Nat.add_comm 1 fuel, hk]
      exact ht.drain_eq fuel

/-- **Where `drain` ends** a run stops, unless the turns were too few. -/
theorem drain_run (fuel : Nat) (h : Run strategy lexer input taken (c, none)) :
    (drain strategy lexer input fuel c).2 = some .outOfSteps ∨
      ∃ taken', Run strategy lexer input taken' (drain strategy lexer input fuel c) ∧
        Stopped strategy lexer input (drain strategy lexer input fuel c) := by
  induction fuel generalizing c taken with
  | zero => exact .inl rfl
  | succ fuel ih =>
      by_cases hs : Stopped strategy lexer input (c, none)
      · rw [drain_of_stopped hs]
        exact .inr ⟨taken, h, hs⟩
      · obtain ⟨more, w, ht⟩ : ∃ more w, Turn strategy lexer input c more w := by
          by_contra hno
          exact hs (.inr (fun more w ht => hno ⟨more, w, ht⟩))
        have hrun := h.turn ht
        rw [ht.drain_eq]
        obtain ⟨c', _ | e⟩ := w
        · exact ih hrun
        · exact .inr ⟨_, hrun, .inl (by simp [carryOn])⟩

/-- A run that has stopped is what `drain` answers, given one turn more. -/
theorem Run.parseWithin_eq (h : Run strategy lexer input taken w)
    (hs : Stopped strategy lexer input w) :
    ∃ k, ∀ fuel, parseWithin g strategy lexer input (k + fuel) = w := by
  obtain ⟨k, hk⟩ := h.drain_eq
  refine ⟨k + 1, fun fuel => ?_⟩
  rw [Nat.add_assoc, Nat.add_comm 1 fuel, hk]
  obtain ⟨c, _ | e⟩ := w
  · exact drain_of_stopped hs fuel
  · rfl

/-- **All runs stop at the same.** -/
theorem Run.eq_of_stopped (h : Run strategy lexer input taken w)
    (hs : Stopped strategy lexer input w) (h' : Run strategy lexer input more w')
    (hs' : Stopped strategy lexer input w') : w = w' := by
  obtain ⟨k, hk⟩ := h.parseWithin_eq hs
  obtain ⟨l, hl⟩ := h'.parseWithin_eq hs'
  rw [← hk l, ← hl k, Nat.add_comm]

/-- Whatever a parse comes to but for want of turns is where a run stops. -/
theorem parseWithin_run {turns : Nat} (h : parseWithin g strategy lexer input turns = w)
    (hne : w.2 ≠ some .outOfSteps) :
    ∃ taken, Run strategy lexer input taken w ∧ Stopped strategy lexer input w := by
  subst h
  exact (drain_run turns .start).resolve_left hne

/-! ### What a run keeps -/

theorem Turn.running (h : Turn strategy lexer input c more w) (hc : Running strategy lexer input c) :
    Running strategy lexer input w.1 ∧ c.Extends w.1 ∧ w.1.processed = c.processed ++ more := by
  cases h with
  | @edge n c' hn =>
      obtain ⟨hr, he⟩ := hc.turn hn
      refine ⟨hr, he, ?_⟩
      obtain ⟨i, hi, hgap⟩ := hc.exists_next hn
      rw [(process_grows strategy lexer input hi hgap).processed, (Chart.next?_eq_some hn).2]
  | gaps hn hd hs =>
      subst hs
      have hg := fillGaps_grows lexer input c.takeDeferred.2 c.takeDeferred.1
      have he : c.Extends c.takeDeferred.2 := .of_edges rfl
      exact ⟨hc.takeDeferred.grows hg, he.trans hg.extends, hg.processed⟩
  | pass hn hd hs => exact ⟨hc.takeDeferred, .of_edges rfl, rfl⟩

/-- Between turns a chart is in order, and it has all that was there at the beginning. -/
theorem Run.running (h : Run strategy lexer input taken w) :
    Running strategy lexer input w.1 ∧ (begin strategy lexer input).Extends w.1 := by
  induction h with
  | start => exact ⟨(begin_spec strategy lexer input).1, .refl _⟩
  | turn _ ht ih =>
      obtain ⟨hr, he, -⟩ := ht.running ih.1
      exact ⟨hr, ih.2.trans he⟩

/-- **The processed edges** are those from before the first turn, and what was handed out. -/
theorem Run.processed_eq (h : Run strategy lexer input taken w) :
    w.1.processed = (Parser.begin strategy lexer input : Chart g.rules).processed ++ taken := by
  induction h with
  | start => rw [List.append_nil]
  | turn h ht ih => rw [(ht.running h.running.1).2.2, ih, List.append_assoc]

/-- Nothing is handed out twice. -/
theorem Run.nodup (h : Run strategy lexer input taken w) : taken.Nodup := by
  have hnodup := h.running.1.wellFormed.numbered.nodup_iff.2 List.nodup_range
  rw [h.processed_eq] at hnodup
  simp only [List.append_assoc] at hnodup
  exact (List.nodup_append.1 (List.nodup_append.1 hnodup).2.1).1

/-- Only edges of the chart are handed out. -/
theorem Run.lt_size (h : Run strategy lexer input taken w) (hn : n ∈ taken) : n < w.1.size := by
  refine h.running.1.wellFormed.lt_size ?_
  rw [h.processed_eq]
  simp [hn]

theorem Run.length_le (h : Run strategy lexer input taken w) : taken.length ≤ w.1.size := by
  have hle := h.running.1.processed_le
  rw [h.processed_eq, List.length_append] at hle
  omega

/-- **A parse comes to an end, within a bound.**  With a lexer that stays within the input a parse stops
of itself, whatever the grammar and the strategy are.  The chart has no more edges than there are items
within the input.  A run hands out edges of its chart only, and none of them twice; wherever it stops is
what the parse answers. -/
theorem parse_ends (p : Parser g) (input : Text) (hl : p.lexer.Within input) :
    (∃ taken, Run p.strategy p.lexer input taken ((p.parse input).1.chart, (p.parse input).2) ∧
        Stopped p.strategy p.lexer input ((p.parse input).1.chart, (p.parse input).2)) ∧
      (p.parse input).1.chart.size ≤ g.rules.foldl (fun n r =>
        n + (r.length + 1) * ((input.byteLength + 1) * (input.byteLength + 1) + 1)) 0 ∧
      ∀ (taken : List Nat) (w : Chart g.rules × Option Failure),
        Run p.strategy p.lexer input taken w →
          taken.Nodup ∧ (∀ n ∈ taken, n < w.1.size) ∧
            taken.length ≤ g.rules.foldl (fun n r =>
              n + (r.length + 1) * ((input.byteLength + 1) * (input.byteLength + 1) + 1)) 0 ∧
            (Stopped p.strategy p.lexer input w →
              w = ((p.parse input).1.chart, (p.parse input).2)) := by
  have hbound {c : Chart g.rules} (h : Running p.strategy p.lexer input c) :
      c.size ≤ edgeBound g input.byteLength := h.built.size_le h.wellFormed hl
  obtain ⟨all, hrun, hstop⟩ :=
    parseWithin_run (parse_eq_parseWithin p input).symm (parse_ne_outOfSteps p input hl)
  refine ⟨⟨all, hrun, hstop⟩, hbound (parse_running p input), fun taken w h => ?_⟩
  exact ⟨h.nodup, fun n hn => h.lt_size hn, Nat.le_trans h.length_le (hbound h.running.1),
    fun hs => h.eq_of_stopped hs hrun hstop⟩

/-- For the left recursive grammar and the text `a a` there is room for 68 edges. -/
theorem parse_ends_leftRecursive :
    Lexer.skippingBlanks.Within ['a', ' ', 'a'] ∧
      ∃ taken, Run (g := leftRecursive) .bottomUpWithGaps .skippingBlanks ['a', ' ', 'a'] taken
        (finalChart leftRecursive .bottomUpWithGaps .skippingBlanks ['a', ' ', 'a'], none) ∧
        taken.Nodup ∧ taken.length ≤ 68 := by
  have hl : Lexer.skippingBlanks.Within ['a', ' ', 'a'] := Lexer.skippingBlanks_within _
  have hok : ((new leftRecursive .bottomUpWithGaps .skippingBlanks).parse ['a', ' ', 'a']).2 =
      none := by decide +kernel
  obtain ⟨⟨taken, hrun, -⟩, -, hall⟩ :=
    parse_ends (new leftRecursive .bottomUpWithGaps .skippingBlanks) ['a', ' ', 'a'] hl
  obtain ⟨hnodup, -, hle, -⟩ := hall taken _ hrun
  rw [hok] at hrun
  exact ⟨hl, taken, hrun, hnodup, hle⟩

end Parser

end ChartParsing
