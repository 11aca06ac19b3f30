import ChartParsing.Proofs.Gaps.Rounds
import ChartParsing.Proofs.Parsing.Stores

/-!
# When a parse fails

A parse that comes to an end can fail for one reason only: an edge that was deferred has its turn, and no
nonterminal follows its gap.  Such an edge is `Misused`.

* **`Run.followed`**: between turns, as long as nothing went wrong, no processed edge is misused.
* **`Run.misused`**: what goes wrong in a turn is the gap of a misused edge.

Main statement: **`parse_fails_iff`**.  It is about the parse with a store as well, in which every addition of
an edge may fail.
-/

namespace ChartParsing

/-- Behind every gap of a rule comes a nonterminal. -/
def Grammar.GapsFollowed (g : Grammar) : Prop :=
  ∀ r : g.RuleId, ∀ k gap, (g.rule r).rhs[k]? = some (.gap gap) →
    ∃ name, (g.rule r).rhs[k + 1]? = some (.nonterminal name)

namespace Parser

variable {g : Grammar} {strategy : Strategy} {lexer : Lexer} {input : Text} {c c' : Chart g.rules}
  {w : Chart g.rules × Option Failure} {taken : List Nat} {i : Item g.rules} {n : Nat} {gap : Gap}
  {e : Failure}

/-- The edge is in front of this gap, so that it was deferred when it was added, and what follows the gap
in its rule is not a nonterminal. -/
structure Misused (c : Chart g.rules) (n : Nat) (i : Item g.rules) (gap : Gap) : Prop where
  item : c.item? n = some i
  next : i.next? = some (.gap gap)
  following : ∀ name, i.following? ≠ some (.nonterminal name)

theorem Misused.isAtGap (h : Misused c n i gap) : i.isAtGap = true := by
  simp [Item.isAtGap, h.next, Symbol.isGap, Symbol.kind]

theorem exists_gap_of_isAtGap (h : i.isAtGap = true) : ∃ gap, i.next? = some (.gap gap) := by
  obtain ⟨s, hs, hgap⟩ := (Option.any_eq_true _ _).1 h
  cases s with
  | gap gap => exact ⟨gap, hs⟩
  | nonterminal _ => simp [Symbol.isGap, Symbol.kind] at hgap
  | literal _ => simp [Symbol.isGap, Symbol.kind] at hgap
  | pattern _ => simp [Symbol.isGap, Symbol.kind] at hgap
  | entity _ _ => simp [Symbol.isGap, Symbol.kind] at hgap

/-- Of an item in front of a gap there can be wrong only that no nonterminal follows. -/
theorem gapAt_of_next? (h : i.next? = some (.gap gap)) :
    (∃ name, i.following? = some (.nonterminal name) ∧ gapAt i = .ok (gap, name)) ∨
      (∀ name, i.following? ≠ some (.nonterminal name)) ∧
        gapAt i = .error (.gapNotFollowed gap.name i.rule.render) := by
  by_cases hf : ∃ name, i.following? = some (.nonterminal name)
  · obtain ⟨name, hf⟩ := hf
    exact .inl ⟨name, hf, gapAt_eq_ok.2 ⟨h, hf⟩⟩
  · have hnone : i.following?.bind Symbol.nonterminal? = none := by
      refine Option.eq_none_iff_forall_ne_some.2 (fun name hn => hf ⟨name, ?_⟩)
      obtain ⟨s, hs, hname⟩ := Option.bind_eq_some_iff.1 hn
      rw [hs, nonterminal?_eq_some.1 hname]
    refine .inr ⟨fun name hn => hf ⟨name, hn⟩, ?_⟩
    unfold gapAt
    rw [h, hnone]
    rfl

/-! ### Rounds that fail -/

/-- Filling the gap of an edge fails with what is wrong with its item. -/
theorem fillGap_eq_error (h : fillGap input c n = .error e) :
    ∃ i, c.item? n = some i ∧ gapAt i = .error e := by
  unfold fillGap at h
  cases hi : c.item? n with
  | none =>
      rw [hi] at h
      exact absurd h (by simp)
  | some i =>
      rw [hi] at h
      dsimp only at h
      refine ⟨i, rfl, ?_⟩
      cases hg : gapAt i with
      | error e' =>
          rw [hg] at h
          exact congrArg Except.error (Except.error.inj h)
      | ok found => cases hs : i.stop <;> rw [hg, hs] at h <;> exact absurd h (by simp)

/-- Filling several gaps fails with that of one of the edges. -/
theorem exists_of_fillGaps {numbers : List Nat} (hlt : ∀ n ∈ numbers, n < c.size)
    (h : (fillGaps input c numbers).2 = some e) :
    ∃ n ∈ numbers, ∃ i, c.item? n = some i ∧ gapAt i = .error e := by
  induction numbers generalizing c with
  | nil => exact absurd h (by simp [fillGaps])
  | cons n rest ih =>
      unfold fillGaps at h
      cases hfill : fillGap input c n with
      | error e' =>
          rw [hfill] at h
          obtain rfl : e' = e := Option.some.inj h
          exact ⟨n, by simp, fillGap_eq_error hfill⟩
      | ok c₁ =>
          rw [hfill] at h
          have hext := (fillGap_adds hfill).grown
          have hrest (m : Nat) (hm : m ∈ rest) : m < c.size := hlt m (List.mem_cons_of_mem n hm)
          obtain ⟨m, hm, j, hj, hg⟩ :=
            ih (fun m hm => Nat.lt_of_lt_of_le (hrest m hm) hext.size_le) h
          obtain ⟨j', hj'⟩ := Chart.exists_item_of_lt_size (hrest m hm)
          obtain rfl := Option.some.inj ((hext.item hj').symm.trans hj)
          exact ⟨m, List.mem_cons_of_mem n hm, j', hj', hg⟩

/-! ### Runs -/

/-- **No processed edge is misused** as long as nothing went wrong. -/
theorem Run.followed (h : Run .bottomUpWithGaps lexer input taken w) (hok : w.2 = none)
    (hn : n ∈ w.1.processed) : ¬ Misused w.1 n i gap := by
  induction h with
  | start =>
      intro hm
      exact absurd (hm.isAtGap.symm.trans (not_isAtGap_of_mem_begin hn hm.item)) (by simp)
  | @turn taken more c w h ht ih =>
      intro hm
      obtain ⟨-, hext, hproc⟩ := ht.running h.running.1
      -- the edge was there before the turn, so it is the same one as then
      have hold (hn : n < c.size) : Misused c n i gap := by
        obtain ⟨j, hj⟩ := Chart.exists_item_of_lt_size hn
        obtain rfl := Option.some.inj ((hext.item hj).symm.trans hm.item)
        exact ⟨hj, hm.next, hm.following⟩
      have hlt {m : Nat} (hmem : m ∈ c.processed ++ c.agenda ++ c.staged ++ c.deferred) :
          m < c.size := h.running.1.wellFormed.lt_size hmem
      rw [hproc] at hn
      rcases List.mem_append.1 hn with hn | hn
      · exact ih rfl hn (hold (hlt (by simp [hn])))
      · cases ht with
        | @edge m c' hnext =>
            obtain rfl := List.mem_singleton.1 hn
            obtain ⟨j, hj, hgap⟩ := h.running.1.exists_next hnext
            have hj' : c.item? n = some j := by
              rw [← hj, (Chart.next?_eq_some hnext).2]
              rfl
            have hlt' : n < c.size := Chart.lt_size_of_item? hj'
            obtain rfl := Option.some.inj (hj'.symm.trans (hold hlt').item)
            exact absurd (hm.isAtGap.symm.trans hgap) (by simp)
        | gaps hnext hd hs =>
            have hdef : n ∈ c.deferred := hn
            have hm' := hold (hlt (by simp [hdef]))
            have hall := (fillGaps_eq_none_iff (c := c.takeDeferred.2)
              (fun m hm => hlt (by simp [show m ∈ c.deferred from hm]))).1 hok
            obtain ⟨found, hfound⟩ := hall n hn i hm'.item
            rcases gapAt_of_next? hm'.next with ⟨name, hf, -⟩ | ⟨-, herror⟩
            · exact hm'.following name hf
            · exact absurd (hfound.symm.trans herror) (by simp)
        | pass _ _ hs => exact hs rfl

/-- **What goes wrong** is the gap of a misused edge, and gaps are filled by one strategy only. -/
theorem Run.misused (h : Run strategy lexer input taken w) (he : w.2 = some e) :
    strategy = .bottomUpWithGaps ∧ ∃ n i gap, Misused w.1 n i gap ∧
      e = .gapNotFollowed gap.name i.rule.render := by
  cases h with
  | start => exact absurd he (by simp)
  | @turn taken more c w h ht =>
      obtain ⟨-, hext, -⟩ := ht.running h.running.1
      cases ht with
      | edge _ => exact absurd he (by simp)
      | gaps hn hd hs =>
          have hlt (m : Nat) (hm : m ∈ c.takeDeferred.1) : m < c.takeDeferred.2.size :=
            h.running.1.wellFormed.lt_size (by simp [show m ∈ c.deferred from hm])
          obtain ⟨m, hm, i, hi, hg⟩ := exists_of_fillGaps hlt he
          have hi' : c.item? m = some i := hi
          obtain ⟨gap, hgap⟩ :=
            exists_gap_of_isAtGap (h.running.1.wellFormed.deferred m hm i hi')
          rcases gapAt_of_next? hgap with ⟨name, -, hok⟩ | ⟨hf, herror⟩
          · exact absurd (hok.symm.trans hg) (by simp)
          · exact ⟨hs, m, i, gap, ⟨hext.item hi', hgap, hf⟩,
              Except.error.inj (hg.symm.trans herror)⟩
      | pass _ _ _ => exact absurd he (by simp)

/-- **When a parse fails.**  If it comes to an end within these turns, it fails exactly if gaps are to be
filled and one of the deferred edges is misused, and the failure says so of such an edge.  So parsing top down
and bottom up never fails, nor does it with a grammar in which nonterminals follow all gaps.  Nothing else goes
wrong: a parse with a store, where every addition merges derivations and may find that the edges are
different, ends in the same way with the same chart. -/
theorem parse_fails_iff (g : Grammar) (strategy : Strategy) (lexer : Lexer) (input : Text)
    (turns : Nat) (w : Chart g.rules × Option Failure)
    (hparse : parseWithin g strategy lexer input turns = w) (hend : w.2 ≠ some .outOfSteps) :
    (w.2 ≠ none ↔ strategy = .bottomUpWithGaps ∧ ∃ n i gap, Misused w.1 n i gap) ∧
      (∀ e, w.2 = some e → ∃ n i gap, Misused w.1 n i gap ∧
        e = .gapNotFollowed gap.name i.rule.render) ∧
      (strategy = .topDown ∨ strategy = .bottomUp ∨ g.GapsFollowed → w.2 = none) ∧
      ∃ s : Store g.rules, s.toChart = w.1 ∧
        (Work.parseWithin g strategy lexer input turns).outcome .empty =
          (match w.2 with
            | none => .ok ()
            | some e => .error e, s) := by
  obtain ⟨taken, hrun, hstop⟩ := parseWithin_run hparse hend
  have hfails : w.2 ≠ none ↔ strategy = .bottomUpWithGaps ∧ ∃ n i gap, Misused w.1 n i gap := by
    constructor
    · intro hne
      obtain ⟨e, he⟩ := Option.ne_none_iff_exists'.1 hne
      obtain ⟨hs, n, i, gap, hm, -⟩ := hrun.misused he
      exact ⟨hs, n, i, gap, hm⟩
    · rintro ⟨rfl, n, i, gap, hm⟩ hok
      obtain ⟨c, failure⟩ := w
      obtain rfl : failure = none := hok
      obtain ⟨ha, hd⟩ := stopped_iff.1 hstop
      exact hrun.followed rfl (mem_processed_of_done hrun.running.1 ha hd hm.item) hm
  refine ⟨hfails, fun e he => (hrun.misused he).2, fun hcase => ?_, ?_⟩
  · by_contra hne
    obtain ⟨hs, n, i, gap, hm⟩ := hfails.1 hne
    rcases hcase with ht | hb | hg
    · exact absurd (ht.symm.trans hs) (by simp)
    · exact absurd (hb.symm.trans hs) (by simp)
    · obtain ⟨name, hname⟩ := hg i.number i.dot gap hm.next
      exact hm.following name hname
  · obtain ⟨hanswer, hleft⟩ :=
      Work.parseWithin_follows strategy lexer input turns .empty (g := g) Store.represents_empty
    rw [hparse] at hanswer hleft
    exact ⟨_, hleft.chart, Prod.ext (hanswer.trans (by cases w.2 <;> rfl)) rfl⟩

/-- A gap with a literal behind it instead of a nonterminal. -/
def gapBeforeLiteral : Grammar :=
  ⟨#[(Rule.of "S" [.literal "x", .gap anything, .literal "y"]).withEntity true]⟩

/-- The edge behind the `x` is deferred, and when it has its turn the parse fails. -/
theorem parse_fails_gapBeforeLiteral :
    (parseWithin gapBeforeLiteral .bottomUpWithGaps .skippingBlanks ['x', '-', 'y'] 9).2 ≠
        some .outOfSteps ∧
      (parseWithin gapBeforeLiteral .bottomUpWithGaps .skippingBlanks ['x', '-', 'y'] 9).2 ≠
        none := by
  have hend : (parseWithin gapBeforeLiteral .bottomUpWithGaps .skippingBlanks ['x', '-', 'y'] 9).2 ≠
      some .outOfSteps := by
    intro h
    have hgap : ((parseWithin gapBeforeLiteral .bottomUpWithGaps .skippingBlanks
        ['x', '-', 'y'] 9).2.map Failure.gapDetail) ≠ some "" := by decide +kernel
    rw [h] at hgap
    exact hgap rfl
  have hitem : (parseWithin gapBeforeLiteral .bottomUpWithGaps .skippingBlanks
      ['x', '-', 'y'] 9).1.item? 1 = some ⟨⟨0, by decide⟩, 1, .offset 0, .offset 1⟩ := by
    decide +kernel
  obtain ⟨hfails, -⟩ := parse_fails_iff gapBeforeLiteral .bottomUpWithGaps .skippingBlanks
    ['x', '-', 'y'] 9 _ rfl hend
  exact ⟨hend, hfails.2 ⟨rfl, 1, _, anything, hitem, rfl, fun name h => by cases h⟩⟩

end Parser

end ChartParsing
