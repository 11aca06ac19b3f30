import ChartParsing.Proofs.Gaps.Filling

/-!
# The rounds in which gaps are filled

The deferred edges have their turn together, each time the agenda is empty, and each of them has it once.
`GapTurn` is the chart at the turn of a gap edge.

* **`Run.moved`**: between turns a gap edge that has had its turn was moved to the targets of that time, and
  to nothing else, and one that has not had it was not moved at all.
* **`gapsFilled_iff`**: so when a parse is over, all gaps are filled exactly if no start that is a target in
  the end was found after the turn of the edge that waits for it.
* **`gaps_left_nested`**: they need not be.  A finished edge that itself goes over a gap can come too late for
  another gap.
-/

namespace ChartParsing

namespace Parser

variable {g : Grammar} {lexer : Lexer} {input : Text} {c c' : Chart g.rules}
  {w : Chart g.rules × Option Failure} {taken more : List Nat} {i o : Item g.rules} {n s p : Nat}
  {gap : Gap} {name : String} {d : Derivation}

/-- The chart when the gap edge has its turn: nothing is left on the agenda, and the edge is deferred. -/
def GapTurn (lexer : Lexer) (input : Text) (c : Chart g.rules) (n : Nat) : Prop :=
  ∃ taken, Run .bottomUpWithGaps lexer input taken (c, none) ∧ c.agenda = [] ∧ n ∈ c.deferred

/-- The gap edge was moved to its targets in this chart where the gap accepts the text between, and nowhere
else. -/
def MovedAs (input : Text) (c' c : Chart g.rules) (n : Nat) (o : Item g.rules) (gap : Gap)
    (name : String) (p : Nat) : Prop :=
  ∀ s, c'.Records (o.step o.start (.offset s)) n none ↔
    Target c gap name p s ∧ (gap.matchSpan? input p s).isSome = true

/-- What holds of the gap edges between two turns. -/
structure GapsMoved (lexer : Lexer) (input : Text) (c : Chart g.rules) : Prop where
  /-- One that has not had its turn was not moved. -/
  before : ∀ n o, c.item? n = some o → o.isAtGap = true → n ∉ c.processed → c.Unmoved n
  /-- One that has had its turn was moved to the targets of that time. -/
  after : ∀ n o gap name p, GapEdge c n o gap name p → n ∈ c.processed →
    ∃ c₀, GapTurn lexer input c₀ n ∧ c₀.Extends c ∧ MovedAs input c c₀ n o gap name p

/-! ### The beginning -/

/-- **A derivation that is based on a gap edge** comes of filling its gap. -/
theorem Step.of_isAtGap {strategy : Strategy} (h : Step strategy lexer input c i d)
    (hb : d.base = some n) (ho : c.item? n = some o) (hat : o.isAtGap = true) :
    strategy = .bottomUpWithGaps ∧ d.child = none ∧ ∃ gap name p q text, GapEdge c n o gap name p ∧
      i = o.step o.start (.offset q) ∧ input.slice? p q = some text ∧
      d.texts = some [String.ofList text] := by
  cases h with
  | nonterminal ho' _ _ _ hn _ _ _ _ _ =>
      obtain rfl := Option.some.inj hb
      obtain rfl := Option.some.inj (ho'.symm.trans ho)
      exact absurd hat (by simp [Item.isAtGap, hn, Symbol.isGap, Symbol.kind])
  | terminal ho' _ _ hn hsc _ _ _ _ =>
      obtain rfl := Option.some.inj hb
      obtain rfl := Option.some.inj (ho'.symm.trans ho)
      exact absurd hat (by simp [not_isAtGap_of_isScannable hn hsc])
  | occurrence ho' _ _ hn hsc _ _ _ _ _ =>
      obtain rfl := Option.some.inj hb
      obtain rfl := Option.some.inj (ho'.symm.trans ho)
      exact absurd hat (by simp [not_isAtGap_of_isScannable hn hsc])
  | @gap _ _ _ _ gap p q text hk ho' hr hd hn hfol _ _ _ hp _ _ ht _ hs he =>
      obtain rfl := Option.some.inj hb
      obtain rfl := Option.some.inj (ho'.symm.trans ho)
      refine ⟨hk, rfl, gap, _, p, q, text, ⟨ho', hn, hfol, hp⟩, ?_, ht, rfl⟩
      show (⟨i.number, i.dot, i.start, i.stop⟩ : Item g.rules) = _
      rw [← hr, ← hd, hs, he]
      rfl

/-- Without the strategy that fills gaps no derivation is based on a gap edge. -/
theorem Step.base_notAtGap {strategy : Strategy} (hs : strategy ≠ .bottomUpWithGaps)
    (h : Step strategy lexer input c i d) (hb : d.base = some n) (ho : c.item? n = some o) :
    o.isAtGap = false := by
  by_contra hat
  exact hs (h.of_isAtGap hb ho (by simpa using hat)).1

/-- At the beginning nothing is processed but edges in front of terminals. -/
theorem not_isAtGap_of_mem_begin
    (hn : n ∈ (Parser.begin .bottomUpWithGaps lexer input : Chart g.rules).processed)
    (ho : (Parser.begin .bottomUpWithGaps lexer input).item? n = some o) : o.isAtGap = false := by
  obtain ⟨hseed, -⟩ := beginBottomUp_spec (g := g) .bottomUp lexer input rfl
  have hn' : n ∈ (beginBottomUp lexer input (.empty : Chart g.rules)).staged := by
    have hmem : n ∈ (beginBottomUp lexer input (.empty : Chart g.rules)).settle.processed := hn
    simpa [Chart.settle, hseed.processed] using hmem
  obtain ⟨s, hs, hsc⟩ := hseed.terminal n hn' o ho
  exact not_isAtGap_of_isScannable hs hsc

theorem gapsMoved_begin :
    GapsMoved lexer input (Parser.begin .bottomUpWithGaps lexer input : Chart g.rules) := by
  -- the same chart is the beginning of a parse that never fills a gap
  obtain ⟨hseed, -⟩ := beginBottomUp_spec (g := g) .bottomUp lexer input rfl
  refine ⟨fun n o ho hg _ m e he d hd hb => ?_, fun n o gap name p ho hn => ?_⟩
  · have hnot := (hseed.settle.built.traced.step m e he d hd).base_notAtGap (by simp) hb ho
    rw [hnot] at hg
    exact absurd hg (by simp)
  · have hnot := not_isAtGap_of_mem_begin hn ho.item
    exact absurd (ho.isAtGap.symm.trans hnot) (by simp)

/-! ### One turn -/

/-- No derivation is based on what is not in the chart. -/
theorem unmoved_of_item? {strategy : Strategy} (hc : Built strategy lexer input c)
    (hn : c.item? n = none) : c.Unmoved n := by
  intro m e he d hd hb
  obtain ⟨b, o, hb', ho, -⟩ := (hc.traced.step m e he d hd).exists_base
  obtain rfl := Option.some.inj (hb'.symm.trans hb)
  exact absurd ho (by simp [hn])

/-- What a turn keeps of a gap edge on which it bases nothing. -/
theorem MovedAs.of_adds {P : Nat → Item g.rules → Item g.rules → Prop} {c₀ : Chart g.rules}
    (h : MovedAs input c c₀ n o gap name p) (hc : Chart.Adds P c c')
    (hn : ∀ o i, c'.item? n = some o → ¬ P n o i) : MovedAs input c' c₀ n o gap name p := by
  intro s
  rw [hc.records_iff hn]
  exact h s

theorem GapEdge.of_later (hc : c.Extends c') (hn : n < c.size) (h : GapEdge c' n o gap name p) :
    GapEdge c n o gap name p := by
  obtain ⟨o', ho'⟩ := Chart.exists_item_of_lt_size hn
  obtain rfl := Option.some.inj ((hc.item ho').symm.trans h.item)
  exact ⟨ho', h.next, h.following, h.stop⟩

/-- What is based on edges in front of no gap is not based on a gap edge. -/
theorem not_notAtGap (ho : c.item? n = some o) (hg : o.isAtGap = true) (o' i : Item g.rules)
    (ho' : c.item? n = some o') : ¬ NotAtGap n o' i := by
  obtain rfl := Option.some.inj (ho.symm.trans ho')
  intro h
  exact absurd (hg.symm.trans h) (by simp)

/-- A gap edge that has had its turn keeps where it was moved to, if nothing new is based on it. -/
theorem GapsMoved.keep {P : Nat → Item g.rules → Item g.rules → Prop}
    (h : GapsMoved lexer input c) (hr : Running .bottomUpWithGaps lexer input c)
    (hadds : Chart.Adds P c c') (hn : n ∈ c.processed) (ho : GapEdge c' n o gap name p)
    (hnew : ∀ o i, c'.item? n = some o → ¬ P n o i) :
    ∃ c₀, GapTurn lexer input c₀ n ∧ c₀.Extends c' ∧ MovedAs input c' c₀ n o gap name p := by
  have hlt : n < c.size := hr.wellFormed.lt_size (by simp [hn])
  obtain ⟨c₀, hturn, hext, hmoved⟩ := h.after n o gap name p (ho.of_later hadds.grown hlt) hn
  exact ⟨c₀, hturn, hext.trans hadds.grown, hmoved.of_adds hadds hnew⟩

/-- **The turn of another edge** keeps what holds of the gap edges. -/
theorem GapsMoved.process (h : GapsMoved lexer input c)
    (hr : Running .bottomUpWithGaps lexer input c) (hn : c.next? = some (n, c')) :
    GapsMoved lexer input (process .bottomUpWithGaps lexer input c' n) := by
  obtain ⟨i, hi, hg⟩ := hr.exists_next hn
  obtain ⟨-, hc'⟩ := Chart.next?_eq_some hn
  have hadds : Chart.Adds NotAtGap c (Parser.process .bottomUpWithGaps lexer input c' n) :=
    (Chart.Adds.of_edges (c := c) (by rw [hc'])).trans
      (process_adds .bottomUpWithGaps lexer input hi hg)
  have hproc : (Parser.process .bottomUpWithGaps lexer input c' n).processed = c.processed ++ [n] := by
    rw [(process_grows .bottomUpWithGaps lexer input hi hg).processed, hc']
  have hitem := (process_grows .bottomUpWithGaps lexer input hi hg).extends.item hi
  generalize Parser.process .bottomUpWithGaps lexer input c' n = c'' at hadds hproc hitem ⊢
  refine ⟨fun m o ho hgap hm => ?_, fun m o gap name p ho hm => ?_⟩
  · refine hadds.unmoved (not_notAtGap ho hgap) ?_
    cases hm' : c.item? m with
    | none => exact unmoved_of_item? hr.built hm'
    | some o' =>
        obtain rfl := Option.some.inj ((hadds.grown.item hm').symm.trans ho)
        refine h.before m o' hm' hgap (fun hp => hm ?_)
        rw [hproc]
        exact List.mem_append_left _ hp
  · rw [hproc] at hm
    rcases List.mem_append.1 hm with hm | hm
    · exact h.keep hr hadds hm ho (not_notAtGap ho.item ho.isAtGap)
    · obtain rfl := List.mem_singleton.1 hm
      obtain rfl := Option.some.inj (hitem.symm.trans ho.item)
      exact absurd (ho.isAtGap.symm.trans hg) (by simp)

/-- A deferred edge was not moved yet. -/
theorem GapsMoved.unmoved_of_deferred (h : GapsMoved lexer input c)
    (hr : Running .bottomUpWithGaps lexer input c) (ha : c.agenda = []) (hn : n ∈ c.deferred) :
    c.Unmoved n := by
  have hlt : n < c.size := hr.wellFormed.lt_size (by simp [hn])
  obtain ⟨o, ho⟩ := Chart.exists_item_of_lt_size hlt
  refine h.before n o ho (hr.wellFormed.deferred n hn o ho) (fun hp => ?_)
  have hnodup := (hr.numbered ha).nodup_iff.2 List.nodup_range
  exact (List.nodup_append.1 hnodup).2.2 n hp n hn rfl

/-- **A round** moves the deferred edges to their targets, and keeps what holds of the other gap edges. -/
theorem GapsMoved.fillGaps (h : GapsMoved lexer input c)
    (hrun : Run .bottomUpWithGaps lexer input taken (c, none)) (ha : c.agenda = [])
    (hf : fillGaps input c.takeDeferred.2 c.takeDeferred.1 = (c', none)) :
    GapsMoved lexer input c' := by
  have hr := hrun.running.1
  have htake : Chart.Adds (fun b _ _ => b ∈ c.deferred) c c.takeDeferred.2 := .of_edges rfl
  have hadds : Chart.Adds (fun b _ _ => b ∈ c.deferred) c c' := htake.trans (fillGaps_adds hf)
  have hproc : c'.processed = c.processed ++ c.deferred := by
    have hg := (fillGaps_grows lexer input c.takeDeferred.2 c.takeDeferred.1).processed
    rw [hf] at hg
    exact hg
  have hnum := hr.numbered ha
  obtain ⟨-, hdnodup, hdisj⟩ := List.nodup_append.1 (hnum.nodup_iff.2 List.nodup_range)
  refine ⟨fun m o ho hgap hm => ?_, fun m o gap name p ho hm => ?_⟩
  · rw [hproc] at hm
    have hnew : c.item? m = none := by
      by_contra hne
      obtain ⟨o', ho'⟩ := Option.ne_none_iff_exists'.1 hne
      exact hm (hnum.mem_iff.2 (List.mem_range.2 (Chart.lt_size_of_item? ho')))
    refine hadds.unmoved (fun _ _ _ hd => ?_) (unmoved_of_item? hr.built hnew)
    exact hm (List.mem_append_right _ hd)
  · rw [hproc] at hm
    rcases List.mem_append.1 hm with hm | hm
    · exact h.keep hr hadds hm ho (fun _ _ _ hd => hdisj m hm m hd rfl)
    · have hlt : m < c.size := hr.wellFormed.lt_size (by simp [hm])
      have hunmoved (k : Nat) (hk : k ∈ c.deferred) : c.takeDeferred.2.Unmoved k :=
        h.unmoved_of_deferred hr ha hk
      have hstart := (ho.of_later hadds.grown hlt).mono htake.grown
      have hmoved (s : Nat) := fillGaps_records (s := s) hf hdnodup hunmoved hm hstart
      exact ⟨c, ⟨taken, hrun, ha, hm⟩, hadds.grown, hmoved⟩

/-! ### A whole run -/

/-- **Between turns**, as long as nothing went wrong, what `GapsMoved` says holds. -/
theorem Run.moved (h : Run .bottomUpWithGaps lexer input taken w) (hok : w.2 = none) :
    GapsMoved lexer input w.1 := by
  induction h with
  | start => exact gapsMoved_begin
  | @turn taken more c w h ht ih =>
      cases ht with
      | edge hn => exact (ih rfl).process h.running.1 hn
      | gaps hn _ _ =>
          refine (ih rfl).fillGaps h (Chart.next?_eq_none hn) ?_
          rw [← hok]
      | pass _ _ hs => exact absurd rfl hs

/-- The gap edge was moved over this text, up to `s`. -/
def Filled (c : Chart g.rules) (n : Nat) (o : Item g.rules) (s : Nat) (text : String) : Prop :=
  ∃ k e, c.edge? k = some e ∧ e.item = ⟨o.number, o.dot + 1, o.start, .offset s⟩ ∧
    ⟨some n, none, some [text]⟩ ∈ e.derivations

/-- Every gap edge was moved to all its targets, wherever the gap accepts the text between. -/
def GapsFilled (input : Text) (c : Chart g.rules) : Prop :=
  ∀ n o gap name p s text, GapEdge c n o gap name p → Target c gap name p s →
    gap.matchSpan? input p s = some ⟨[text], s⟩ → Filled c n o s text

/-- The texts of a derivation over a gap are those that the gap answers. -/
theorem filled_iff_records (hc : Built .bottomUpWithGaps lexer input c)
    (ho : GapEdge c n o gap name p) {text : String}
    (hm : gap.matchSpan? input p s = some ⟨[text], s⟩) :
    Filled c n o s text ↔ c.Records (o.step o.start (.offset s)) n none := by
  constructor
  · rintro ⟨k, e, he, hi, hd⟩
    exact ⟨k, e, he, hi, _, hd, rfl, rfl⟩
  · rintro ⟨k, e, he, hi, ⟨base, child, texts⟩, hd, rfl, rfl⟩
    refine ⟨k, e, he, hi, ?_⟩
    obtain ⟨-, -, gap', name', p', q, text', hgap, hi', ht, htexts⟩ :=
      (hc.traced.step k e he _ hd).of_isAtGap rfl ho.item ho.isAtGap
    obtain rfl := Position.offset.inj (hgap.stop.symm.trans ho.stop)
    obtain rfl : q = s := Position.offset.inj (congrArg Item.stop (hi'.symm.trans hi))
    obtain ⟨text'', ht', -, heq⟩ := Gap.matchSpan?_eq_some.1 hm
    obtain rfl := Option.some.inj (ht.symm.trans ht')
    obtain rfl : text = String.ofList text' := by simpa using congrArg Match.texts heq
    obtain rfl : texts = some [String.ofList text'] := htexts
    exact hd

/-- **When all gaps are filled.**  Each gap edge of a parse that succeeds was moved to the targets of the
chart at its turn.  So all gaps are filled exactly if each start that is a target in the end was there
already at the turn of the edge. -/
theorem gapsFilled_iff (g : Grammar) (lexer : Lexer) (input : Text) (turns : Nat) (c : Chart g.rules)
    (h : parseWithin g .bottomUpWithGaps lexer input turns = (c, none)) :
    ∃ turn : Nat → Chart g.rules,
      (∀ n o gap name p, GapEdge c n o gap name p →
        GapTurn lexer input (turn n) n ∧ (turn n).Extends c ∧
          ∀ s text, gap.matchSpan? input p s = some ⟨[text], s⟩ →
            (Filled c n o s text ↔ Target (turn n) gap name p s)) ∧
      (GapsFilled input c ↔ ∀ n o gap name p s text, GapEdge c n o gap name p →
        Target c gap name p s → gap.matchSpan? input p s = some ⟨[text], s⟩ →
          Starts (turn n) gap name p s) := by
  obtain ⟨taken, hrun, hstop⟩ := parseWithin_run h (by simp)
  obtain ⟨ha, hd⟩ := stopped_iff.1 hstop
  have hr := hrun.running.1
  have hmoved := hrun.moved rfl
  have hex (n : Nat) : ∃ c₀ : Chart g.rules, ∀ o gap name p, GapEdge c n o gap name p →
      GapTurn lexer input c₀ n ∧ c₀.Extends c ∧ MovedAs input c c₀ n o gap name p := by
    by_cases hn : ∃ o gap name p, GapEdge c n o gap name p
    · obtain ⟨o, gap, name, p, ho⟩ := hn
      obtain ⟨c₀, hturn⟩ := hmoved.after n o gap name p ho (mem_processed_of_done hr ha hd ho.item)
      refine ⟨c₀, fun o' gap' name' p' ho' => ?_⟩
      obtain rfl := Option.some.inj (ho.item.symm.trans ho'.item)
      obtain rfl : gap = gap' := by simpa using ho.next.symm.trans ho'.next
      obtain rfl : name = name' := by simpa using ho.following.symm.trans ho'.following
      obtain rfl := Position.offset.inj (ho.stop.symm.trans ho'.stop)
      exact hturn
    · exact ⟨c, fun o gap name p ho => absurd ⟨o, gap, name, p, ho⟩ hn⟩
  choose turn hturn using hex
  have hfilled (n : Nat) (o : Item g.rules) (gap : Gap) (name : String) (p : Nat)
      (ho : GapEdge c n o gap name p) (s : Nat) (text : String)
      (hm : gap.matchSpan? input p s = some ⟨[text], s⟩) :
      Filled c n o s text ↔ Target (turn n) gap name p s := by
    obtain ⟨-, -, hmov⟩ := hturn n o gap name p ho
    rw [filled_iff_records hr.built ho hm, hmov s, hm]
    simp
  refine ⟨turn, fun n o gap name p ho => ?_, fun hall n o gap name p s text ho ht hm => ?_,
    fun hall n o gap name p s text ho ht hm => ?_⟩
  · obtain ⟨hgt, hext, -⟩ := hturn n o gap name p ho
    exact ⟨hgt, hext, hfilled n o gap name p ho⟩
  · exact ((hfilled n o gap name p ho s text hm).1 (hall n o gap name p s text ho ht hm)).1
  · obtain ⟨-, hext, -⟩ := hturn n o gap name p ho
    rw [hfilled n o gap name p ho s text hm, ht.of_later hext]
    exact hall n o gap name p s text ho ht hm

/-! ### A gap behind a gap -/

/-- A gap of up to ten bytes that accepts everything. -/
def anything : Gap := ⟨"gap", 10, false, Gap.always true⟩

/-- The nonterminal behind the gap of the first rule stands for a rule with a gap. -/
def nested : Grammar :=
  ⟨#[(Rule.of "S" [.literal "x", .gap anything, .nonterminal "N"]).withEntity true,
    .of "N" [.literal "a", .gap anything, .nonterminal "B"], .of "B" [.literal "b"]]⟩

/-- What is found in `x-a-b`. -/
def nestedChart : Chart nested.rules :=
  finalChart nested .bottomUpWithGaps .skippingBlanks ['x', '-', 'a', '-', 'b']

theorem parse_nested : ((new nested .bottomUpWithGaps .skippingBlanks).parse
    ['x', '-', 'a', '-', 'b']).2 = none := by decide +kernel

theorem gapEdge_nested :
    GapEdge nestedChart 1 ⟨⟨0, by decide⟩, 1, .offset 0, .offset 1⟩ anything "N" 1 :=
  ⟨by decide +kernel, rfl, rfl, rfl⟩

theorem matchSpan_nested :
    anything.matchSpan? ['x', '-', 'a', '-', 'b'] 1 2 = some ⟨["-"], 2⟩ := by decide

theorem not_filled_nested :
    ¬ Filled nestedChart 1 ⟨⟨0, by decide⟩, 1, .offset 0, .offset 1⟩ 2 "-" := by
  have hall : nestedChart.edges.toList.all (fun e =>
      e.item ≠ ⟨⟨0, by decide⟩, 2, .offset 0, .offset 2⟩) = true := by decide +kernel
  rintro ⟨k, e, he, hi, -⟩
  have hmem : e ∈ nestedChart.edges.toList := Array.mem_toList_iff.2 (Array.mem_of_getElem? he)
  exact of_decide_eq_true (List.all_eq_true.1 hall e hmem) hi

/-- The gap behind `x` has its turn when there is no finished edge for `N` yet. -/
theorem gapsFilled_iff_nested : ∃ c : Chart nested.rules,
    GapTurn .skippingBlanks ['x', '-', 'a', '-', 'b'] c 1 ∧ c.Extends nestedChart ∧
      ¬ Target c anything "N" 1 2 := by
  have hparse : parseWithin nested .bottomUpWithGaps .skippingBlanks ['x', '-', 'a', '-', 'b']
      (edgeBound nested 5 + 1) = (nestedChart, none) := by
    rw [← parse_nested]
    exact (parse_eq_parseWithin (new nested .bottomUpWithGaps .skippingBlanks) _).symm
  obtain ⟨turn, hturn, -⟩ := gapsFilled_iff nested .skippingBlanks ['x', '-', 'a', '-', 'b']
    (edgeBound nested 5 + 1) nestedChart hparse
  obtain ⟨hgap, hext, hfilled⟩ := hturn 1 _ anything "N" 1 gapEdge_nested
  refine ⟨turn 1, hgap, hext, fun ht => ?_⟩
  exact not_filled_nested ((hfilled 2 "-" matchSpan_nested).2 ht)

/-- **A gap that is left.**  In the end there is an edge for `N` that starts behind the first hyphen, but
the edge in front of the gap there was never moved over the hyphen. -/
theorem gaps_left_nested :
    ((new nested .bottomUpWithGaps .skippingBlanks).parse ['x', '-', 'a', '-', 'b']).2 = none ∧
      ¬ GapsFilled ['x', '-', 'a', '-', 'b']
        ((new nested .bottomUpWithGaps .skippingBlanks).parse ['x', '-', 'a', '-', 'b']).1.chart := by
  refine ⟨parse_nested, fun h => not_filled_nested ?_⟩
  have hstarts : Starts nestedChart anything "N" 1 2 :=
    ⟨⟨⟨1, by decide⟩, 3, .offset 2, .offset 5⟩, ⟨7, by decide +kernel⟩, by decide, rfl, rfl,
      by decide, by decide⟩
  have htarget : Target nestedChart anything "N" 1 2 := ⟨hstarts, fun hn => absurd hn (by decide)⟩
  exact h 1 _ anything "N" 1 2 "-" gapEdge_nested htarget matchSpan_nested

end Parser

end ChartParsing
