import ChartParsing.Chart.Operation
import ChartParsing.Proofs.Forest.Fresh
import ChartParsing.Proofs.Forest.Requests
import Mathlib.Data.Finset.Card

/-!
# Whether the memory of a forest shows

A forest keeps what it has found for one request and uses it for the next one.  What is kept of an edge was
found with nothing of it cut.  But when it is used, another edge may be on its way that it goes back to; a
fresh forest would cut there, and the one with a memory does not.  So on charts with cycles of different
edges the answer can depend on what was asked before (**`results_ne_fresh`**).

Main statement: **`expand_eq_fresh_iff`**.  The memory does not show exactly if all edges are harmless.
That is so wherever edges lead back to nothing but themselves.
-/

namespace ChartParsing

open Relation

variable {rules : Array Rule}

namespace Forest

variable {chart : Chart rules} {f : Forest chart} {n m : Nat} {i : Item rules}

/-! ### Requests -/

/-- At a request nothing is cut further out. -/
theorem expand_answered (hfair : f.Fair) (hactive : f.active = []) (n : Nat) :
    Answered f n (f.expand n).1 ⟨(f.expand n).2, none⟩ := by
  have hanswered := descend_answered (n := n) chart.size f.free_le_size hfair
    (show ∀ q ∈ f.active, q.2 < 0 by simp [hactive])
  have hcut : (f.descend chart.size 0 n).2.cut = none := by
    cases hc : (f.descend chart.size 0 n).2.cut with
    | none => rfl
    | some c =>
        obtain ⟨a, ha, -⟩ := hanswered.bounded.origin c hc
        simp [hactive] at ha
  rw [expand_eq_descend]
  rw [← hcut]
  exact hanswered

theorem fair_askAll (hfair : f.Fair) (hactive : f.active = []) (requests : List Request) :
    (f.askAll requests).Fair ∧ (f.askAll requests).active = [] ∧
      ∀ m e, f.known.lookup m = some e → (f.askAll requests).known.lookup m = some e := by
  induction requests generalizing f with
  | nil => exact ⟨hfair, hactive, fun m e hm => hm⟩
  | cons request rest ih =>
      have hanswered := expand_answered hfair hactive request.edge
      have hactive' : (f.expand request.edge).1.active = [] := by rw [active_expand, hactive]
      obtain ⟨hfair', hactive'', hkeeps⟩ := ih hanswered.fair hactive'
      rw [← ask_eq] at hfair' hactive'' hkeeps
      refine ⟨hfair', hactive'', fun m e hm => hkeeps m e ?_⟩
      rw [ask_eq]
      exact hanswered.keeps m e hm

/-- **Harmless edges** unfold into what there is around nothing, whatever was asked before. -/
theorem expand_of_harmless (hfair : f.Fair) (hactive : f.active = []) (h : chart.HarmlessBelow n) :
    (f.expand n).2 = chart.around [] n := by
  have hbounded := (expand_answered hfair hactive n).bounded
  refine (hbounded.upper h).antisymm ?_
  have hlower := hbounded.lower 0 (fun c hc => Nat.zero_le c)
  rwa [hactive] at hlower

/-! ### Asking for the parts first -/

theorem answer?_of_item (hk : f.known.lookup n = none) (ha : f.active.lookup n = none)
    (hi : chart.item? n = some i) (hp : i.isPredicted = false) : f.answer? n = none := by
  unfold answer?
  rw [hk, ha, hi]
  simp [hp]

theorem exists_size_eq (h : f.answer? n = none) : ∃ k, chart.size = k + 1 ∧ f.free ≤ k + 1 := by
  obtain ⟨k, hsize⟩ := Nat.exists_eq_succ_of_ne_zero
    (Nat.ne_of_gt (Nat.lt_of_lt_of_le (free_pos h) f.free_le_size))
  exact ⟨k, hsize, Nat.le_trans f.free_le_size (Nat.le_of_eq hsize)⟩

/-- An edge does not become known by asking for another one that it asks for itself. -/
theorem lookup_expand (hactive : f.active = []) (hk : f.known.lookup n = none)
    (hasks : chart.Asks n m) (hne : m ≠ n) : (f.expand m).1.known.lookup n = none := by
  rw [expand_eq_descend]
  cases h : f.answer? m with
  | some a =>
      rw [descend_of_answer? h]
      rcases answer?_cases h with ⟨e, -, rfl⟩ | ⟨c, -, -, rfl⟩ | ⟨-, -, rfl⟩ | ⟨i, -, -, -, -, rfl⟩
      · exact hk
      · exact hk
      · exact hk
      · rw [lookup_cons_of_ne (Ne.symm hne)]
        exact hk
  | none =>
      obtain ⟨hk', -, i, hi, -⟩ := answer?_eq_none h
      obtain ⟨k, hsize, hfree⟩ := exists_size_eq h
      rw [hsize]
      obtain ⟨f', lists, cut, -, hunknown, -, hends⟩ := descend_gathers (k := k) 0
        (fun f' => ∀ z, z = n ∨ z = m → f'.known.lookup z = none) (fun _ _ => True) h hi hfree
        (by rintro z (rfl | rfl) <;> assumption) (fun f' x hact hf' _ hfree' => by
          have hback : ∀ z, z = n ∨ z = m →
              ReflTransGen (fun x y => chart.Asks x y ∧ (y = n ∨ y = m)) z m := by
            rintro z (rfl | rfl)
            · exact .single ⟨hasks, .inr rfl⟩
            · exact .refl
          refine ⟨(descend_blocked hback k hfree' ?_ ?_ hf').1, trivial⟩
          · simp [hact, hactive]
          · simp [hact])
      rcases hends with ⟨-, hends⟩ | ⟨c, -, -, hends⟩ <;> rw [hends]
      · rw [lookup_cons_of_ne (Ne.symm hne)]
        exact hunknown n (.inl rfl)
      · exact hunknown n (.inl rfl)

/-- After asking for other edges that an edge asks for, they are known and the edge itself is not. -/
theorem lookup_askAll {parts : List Nat} (hfair : f.Fair) (hactive : f.active = [])
    (hk : f.known.lookup n = none) (hparts : ∀ m ∈ parts, chart.Asks n m ∧ m ≠ n) :
    (f.askAll (parts.map .expand)).known.lookup n = none ∧
      ∀ m ∈ parts, chart.item? m ≠ none → (f.askAll (parts.map .expand)).known.lookup m ≠ none := by
  induction parts generalizing f with
  | nil => exact ⟨hk, by simp⟩
  | cons p rest ih =>
      obtain ⟨hasks, hne⟩ := hparts p List.mem_cons_self
      have hanswered := expand_answered hfair hactive p
      have hactive' : (f.expand p).1.active = [] := by rw [active_expand, hactive]
      obtain ⟨hunknown, hknown⟩ := ih hanswered.fair hactive' (lookup_expand hactive hk hasks hne)
        (fun m hm => hparts m (List.mem_cons_of_mem _ hm))
      refine ⟨hunknown, fun m hm hitem => ?_⟩
      rcases List.mem_cons.1 hm with rfl | hm
      · have hkeeps := (fair_askAll hanswered.fair hactive' (rest.map .expand)).2.2 m _
          (hanswered.known rfl hitem)
        exact fun hnone => absurd (hkeeps.symm.trans hnone) (by simp)
      · exact hknown m hm hitem

/-- If the memory does not show, an edge is harmless as soon as the edges below its cycles are. -/
theorem harmless_of_same (hsame : ∀ (earlier : List Request) (n : Nat),
      (((new chart).askAll earlier).expand n).2 = ((new chart).expand n).2)
    (hbelow : ∀ m, ReflTransGen chart.Asks n m → ¬ ReflTransGen chart.Asks m n →
      chart.HarmlessBelow m) : chart.Harmless n := by
  intro i hi hp
  -- ask for all other edges first that the edge asks for
  obtain ⟨parts, hparts⟩ : ∃ parts : List Nat, ∀ m, m ∈ parts ↔
      (∃ d ∈ chart.derivations n, m ∈ d.asked) ∧ m ≠ n :=
    ⟨((chart.derivations n).flatMap Derivation.asked).filter (fun m => m ≠ n), by simp⟩
  have hnew : (new chart).known.lookup n = none := rfl
  obtain ⟨hfair, hactive, -⟩ := fair_askAll (fair_new chart) rfl (parts.map .expand)
  obtain ⟨hunknown, hknown⟩ := lookup_askAll (fair_new chart) rfl hnew (fun m hm =>
    ⟨⟨i, hi, hp, ((hparts m).1 hm).1⟩, ((hparts m).1 hm).2⟩)
  have hanswer := (hsame (parts.map .expand) n).trans (expand_new hbelow)
  generalize (new chart).askAll (parts.map .expand) = f at hfair hactive hunknown hknown hanswer
  have h : f.answer? n = none := answer?_of_item hunknown (by simp [hactive]) hi hp
  obtain ⟨k, hsize, hfree⟩ := exists_size_eq h
  rw [expand_eq_descend, hsize] at hanswer
  -- then all of them answer from memory
  obtain ⟨f', lists, cut, hgathers, -, -, hends⟩ := descend_gathers (k := k) 0
    (fun f' => f'.known = f.known)
    (fun m u => (chart.without n (chart.around []) m).Within u.expansion) h hi hfree rfl
    (fun f' m hact hf' hasks _ => by
      unfold Chart.without
      by_cases hmn : m = n
      · subst hmn
        rw [if_pos rfl, descend_of_active (by rw [hf', hunknown]) (by simp [hact]; rfl)]
        exact ⟨hf', .refl _⟩
      · rw [if_neg hmn]
        cases hk : f'.known.lookup m with
        | some e =>
            have hanswer' : f'.answer? m = some (f', ⟨e, none⟩) := by
              unfold answer?
              rw [hk]
            rw [descend_of_answer? hanswer']
            exact ⟨hf', hfair.lower m e (hf' ▸ hk)⟩
        | none =>
            obtain ⟨_, _, _, hasked⟩ := hasks
            have hitem : chart.item? m = none := by
              by_contra hitem
              exact hknown m ((hparts m).2 ⟨hasked, hmn⟩) hitem (hf' ▸ hk)
            have hanswer' : f'.answer? m = some (f', ⟨nothing chart m, none⟩) := by
              unfold answer?
              rw [hk, hact, hactive, lookup_cons_of_ne hmn, hitem]
              rfl
            rw [descend_of_answer? hanswer', Chart.around_of_missing hitem]
            exact ⟨hf', .refl _⟩)
  have hall : ((chart.derivations n).flatMap
      (chart.contribution i (chart.without n (chart.around [])))).Sublist lists :=
    hgathers.lower (show CutFrom 0 cut from fun c _ => Nat.zero_le c) (fun d _ m _ u hu _ => hu)
  have hpart : ((chart.derivations n).flatMap (chart.contribution i (chart.around [n]))).Sublist
      ((chart.derivations n).flatMap
        (chart.contribution i (chart.without n (chart.around [])))) :=
    Chart.contributions_within (fun d _ m _ => Chart.around_within_without chart n m)
  have heq : i.expansion lists = i.expansion
      ((chart.derivations n).flatMap (chart.contribution i (chart.around [n]))) := by
    rw [← Chart.around_eq hi (by simp) hp, ← hanswer]
    rcases hends with ⟨-, hends⟩ | ⟨c, -, -, hends⟩ <;> rw [hends]
  have hlength := Item.length_eq_of_expansion_eq heq
  exact (hpart.eq_of_length
    (Nat.le_antisymm hpart.length_le (hlength ▸ hall.length_le))).symm

/-- If the memory does not show, all edges are harmless, from those below all cycles upwards. -/
theorem harmless_of_forall_same (hsame : ∀ (earlier : List Request) (n : Nat),
      (((new chart).askAll earlier).expand n).2 = ((new chart).expand n).2) (n : Nat) :
    chart.Harmless n := by
  classical
  -- by the number of edges that the edge leads to
  induction hcount : ((Finset.range chart.size).filter (ReflTransGen chart.Asks n)).card using
    Nat.strong_induction_on generalizing n with
  | _ count ih =>
      refine harmless_of_same hsame (fun m hnm hmn z hz => ?_)
      have hzn : ¬ ReflTransGen chart.Asks z n := fun h => hmn (hz.trans h)
      by_cases hlt : n < chart.size
      · refine ih _ ?_ z rfl
        rw [← hcount]
        refine Finset.card_lt_card (Finset.ssubset_iff_of_subset ?_ |>.2 ⟨n, ?_, ?_⟩)
        · intro x hx
          rw [Finset.mem_filter] at hx ⊢
          exact ⟨hx.1, (hnm.trans hz).trans hx.2⟩
        · exact Finset.mem_filter.2 ⟨Finset.mem_range.2 hlt, .refl⟩
        · exact fun hmem => hzn (Finset.mem_filter.1 hmem).2
      · -- where there is no edge nothing is asked for
        rcases (hnm.trans hz).cases_head with rfl | ⟨y, ⟨i, hi, -⟩, -⟩
        · exact absurd .refl hzn
        · exact absurd (Chart.lt_size_of_item? hi) hlt

/-- **When the memory does not show.**  Unfolding edges answers the same after any earlier requests as it
does in a fresh forest exactly if all edges are harmless.  The readings of one edge are those of a fresh
forest already if the edges that it is made of are harmless; and an edge is, if whatever it asks for and
leads back to it is the edge itself. -/
theorem expand_eq_fresh_iff (chart : Chart rules) :
    ((∀ earlier n, (((new chart).askAll earlier).expand n).2 = ((new chart).expand n).2) ↔
      ∀ n, chart.Harmless n) ∧
    (∀ n, (∀ m, ReflTransGen chart.Asks n m → chart.Harmless m) → ∀ earlier,
      (((new chart).askAll earlier).results n).2 = ((new chart).results n).2) ∧
    ∀ n, (∀ m, chart.Asks n m → ReflTransGen chart.Asks m n → m = n) → chart.Harmless n := by
  have hsame : ∀ n, chart.HarmlessBelow n → ∀ earlier,
      (((new chart).askAll earlier).expand n).2 = ((new chart).expand n).2 := by
    intro n h earlier
    obtain ⟨hfair, hactive, -⟩ := fair_askAll (fair_new chart) rfl earlier
    rw [expand_of_harmless hfair hactive h, expand_of_harmless (fair_new chart) rfl h]
  refine ⟨⟨harmless_of_forall_same, fun h earlier n => hsame n (fun m _ => h m) earlier⟩,
    fun n h earlier => ?_, fun n => Chart.harmless_of_asks⟩
  exact congrArg Expansion.toReadings (hsame n h earlier)

/-- Things that can be themselves. -/
def itself : Grammar := ⟨#[.of "A" [.nonterminal "A"], .of "A" [.literal "a"]]⟩

/-- An `A` that can be itself or another one. -/
def itselfRun : List (Operation itself.rules) :=
  [.predict (0 : Fin 2) (.offset 0), .predict (1 : Fin 2) (.offset 0),
    .scan 1 (.offset 1) ["a"] none, .advance 0 2, .advance 0 3]

/-- The edge that leads back to itself is harmless, and so are all others. -/
theorem results_eq_fresh_itself :
    (((new (Chart.empty.performAll itselfRun).1).askAll [.results 2, .expand 3]).results 3).2 =
      ((new (Chart.empty.performAll itselfRun).1).results 3).2 := by
  have hle : ∀ n m, (Chart.empty.performAll itselfRun).1.Asks n m → m ≤ n := by
    rintro n m ⟨i, hi, -, d, hd, hm⟩
    exact (by decide +kernel : ∀ n < (Chart.empty.performAll itselfRun).1.size,
      ∀ d ∈ (Chart.empty.performAll itselfRun).1.derivations n, ∀ m ∈ d.asked, m ≤ n) n
        (Chart.lt_size_of_item? hi) d hd m hm
  have hreach : ∀ n m, ReflTransGen (Chart.empty.performAll itselfRun).1.Asks n m → m ≤ n := by
    intro n m h
    induction h with
    | refl => exact Nat.le_refl n
    | tail _ hxy ih => exact Nat.le_trans (hle _ _ hxy) ih
  obtain ⟨-, hresults, hharmless⟩ := expand_eq_fresh_iff (Chart.empty.performAll itselfRun).1
  exact hresults 3 (fun n _ => hharmless n (fun m hm hback =>
    Nat.le_antisymm (hle n m hm) (hreach m n hback))) _

/-- Two kinds of things that can be one another. -/
def oneAnother : Grammar :=
  ⟨#[.of "A" [.nonterminal "B"], .of "A" [.literal "a"], .of "B" [.nonterminal "A"]]⟩

/-- An `A` that can be a `B`, and a `B` that can be either of two `A`s. -/
def oneAnotherRun : List (Operation oneAnother.rules) :=
  [.predict (0 : Fin 3) (.offset 0), .predict (1 : Fin 3) (.offset 0),
    .predict (2 : Fin 3) (.offset 0), .scan 1 (.offset 1) ["a"] none, .advance 2 3, .advance 0 4,
    .advance 2 5]

/-- **The memory can show.**  Once the `A` was asked for that is made of the `B`, there is a `B` made of an
`A` made of a `B`. -/
theorem results_ne_fresh :
    ((new (Chart.empty.performAll oneAnotherRun).1).results 4).2.map Reading.trace =
        ["B(A(\"a\"))"] ∧
      (((new (Chart.empty.performAll oneAnotherRun).1).askAll [.results 5]).results 4).2.map
        Reading.trace = ["B(A(\"a\"))", "B(A(B(A(\"a\"))))"] :=
  ⟨by decide +kernel, by decide +kernel⟩

end Forest

end ChartParsing
