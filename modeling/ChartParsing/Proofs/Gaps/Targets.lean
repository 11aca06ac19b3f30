import ChartParsing.Proofs.Parsing.Steps

/-!
# Where gaps end

`gapEnds` collects numbers in increasing order and takes the first one of them if a gap only wants what
is nearest.  `Target` says the same without lists: a finished edge for the nonterminal behind the gap
starts there, within the reach of the gap, and there is no nearer start if only the nearest one counts.

Main statement: **`mem_gapEnds`**.
-/

namespace ChartParsing

namespace Parser

variable {g : Grammar} {c c' : Chart g.rules} {gap : Gap} {name : String} {n p s : Nat}

/-! ### Numbers in increasing order -/

theorem mem_insertNumber {k : Nat} {list : List Nat} :
    k ∈ insertNumber n list ↔ k = n ∨ k ∈ list := by
  induction list with
  | nil => simp [insertNumber]
  | cons x list ih =>
      unfold insertNumber
      split
      · next h => simp [h]
      · split
        · simp
        · rw [List.mem_cons, ih, List.mem_cons]
          tauto

theorem mem_foldr_insertNumber {k : Nat} {list : List Nat} :
    k ∈ list.foldr insertNumber [] ↔ k ∈ list := by
  induction list with
  | nil => simp
  | cons x list ih => rw [List.foldr_cons, mem_insertNumber, ih, List.mem_cons]

theorem pairwise_insertNumber {list : List Nat} (h : list.Pairwise (· < ·)) (n : Nat) :
    (insertNumber n list).Pairwise (· < ·) := by
  induction list with
  | nil => simp [insertNumber]
  | cons m list ih =>
      obtain ⟨hm, hlist⟩ := List.pairwise_cons.1 h
      unfold insertNumber
      split
      · exact h
      · split
        · next hne hlt =>
            refine List.pairwise_cons.2 ⟨fun k hk => ?_, h⟩
            rcases List.mem_cons.1 hk with rfl | hk
            · exact hlt
            · exact Nat.lt_trans hlt (hm k hk)
        · next hne hlt =>
            refine List.pairwise_cons.2 ⟨fun k hk => ?_, ih hlist⟩
            rcases mem_insertNumber.1 hk with rfl | hk
            · omega
            · exact hm k hk

theorem pairwise_foldr_insertNumber (list : List Nat) :
    (list.foldr insertNumber []).Pairwise (· < ·) := by
  induction list with
  | nil => exact .nil
  | cons n list ih => exact pairwise_insertNumber ih n

/-- The first number of an increasing list is the least one. -/
theorem mem_take_one {list : List Nat} (h : list.Pairwise (· < ·)) :
    n ∈ list.take 1 ↔ n ∈ list ∧ ∀ m ∈ list, n ≤ m := by
  cases list with
  | nil => simp
  | cons k list =>
      have hk := (List.pairwise_cons.1 h).1
      constructor
      · intro hn
        obtain rfl : n = k := by simpa using hn
        refine ⟨by simp, fun m hm => ?_⟩
        rcases List.mem_cons.1 hm with rfl | hm
        · exact Nat.le_refl _
        · exact Nat.le_of_lt (hk m hm)
      · rintro ⟨hn, hle⟩
        rcases List.mem_cons.1 hn with rfl | hn
        · simp
        · exact absurd (hle k (by simp)) (Nat.not_le_of_lt (hk n hn))

/-! ### Targets -/

/-- A finished edge for the nonterminal starts at `s`, behind `p` and within the reach of the gap. -/
def Starts (c : Chart g.rules) (gap : Gap) (name : String) (p s : Nat) : Prop :=
  ∃ f, c.Has f ∧ f.isReduced = true ∧ f.lhs = name ∧ f.start = .offset s ∧ p < s ∧ s ≤ p + gap.reach

/-- The gap is to be filled from `p` up to `s`.  If it only takes what is nearest, there is no other start
before `s`. -/
def Target (c : Chart g.rules) (gap : Gap) (name : String) (p s : Nat) : Prop :=
  Starts c gap name p s ∧ (gap.nearestOnly = true → ∀ s', Starts c gap name p s' → s ≤ s')

theorem Starts.mono (hc : c.Extends c') (h : Starts c gap name p s) : Starts c' gap name p s := by
  obtain ⟨f, hf, hrest⟩ := h
  exact ⟨f, hc.has hf, hrest⟩

/-- A start that was there before is a target already if it is one later. -/
theorem Target.of_later (hc : c.Extends c') (h : Target c' gap name p s) :
    Target c gap name p s ↔ Starts c gap name p s :=
  ⟨And.left, fun hs => ⟨hs, fun hn s' hs' => h.2 hn s' (hs'.mono hc)⟩⟩

theorem Target.congr (h : ∀ s, Starts c gap name p s ↔ Starts c' gap name p s) :
    Target c gap name p s ↔ Target c' gap name p s := by
  simp only [Target, h]

/-- **The ends that a gap is filled up to** are its targets. -/
theorem mem_gapEnds : s ∈ gapEnds c gap name p ↔ Target c gap name p s := by
  have hmem (s : Nat) : s ∈ (((c.reduced name .anywhere).filterMap (fun n =>
      (c.item? n).bind (fun i => i.start.offset?))).filter
        (fun s => p < s ∧ s - p ≤ gap.reach)).foldr insertNumber [] ↔ Starts c gap name p s := by
    rw [mem_foldr_insertNumber]
    simp only [List.mem_filter, List.mem_filterMap, Chart.reduced, Chart.mem_select,
      Option.bind_eq_some_iff, decide_eq_true_eq]
    constructor
    · rintro ⟨⟨k, ⟨f, hf, hr, hl, -⟩, f', hf', hs⟩, hlt, hle⟩
      obtain rfl := Option.some.inj (hf.symm.trans hf')
      exact ⟨f, ⟨k, hf⟩, hr, hl, Position.offset?_eq_some.1 hs, hlt, by omega⟩
    · rintro ⟨f, ⟨k, hf⟩, hr, hl, hs, hlt, hle⟩
      exact ⟨⟨k, ⟨f, hf, hr, hl, .inl trivial⟩, f, hf, Position.offset?_eq_some.2 hs⟩, hlt, by omega⟩
  unfold gapEnds Target
  split
  · next hn =>
      rw [mem_take_one (pairwise_foldr_insertNumber _), hmem]
      simp only [hmem, hn, true_imp_iff]
  · next hn => simp only [hmem, hn, false_imp_iff, and_true, Bool.false_eq_true]

end Parser

end ChartParsing
