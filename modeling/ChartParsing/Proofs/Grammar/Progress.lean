import ChartParsing.Proofs.Grammar.Bars

/-!
# Grammar texts are read to their ends

The loops of the readers have no bound of their own: they go on until a round ends them.  `Rounds` says what
such a loop comes to and how many rounds it takes, and `itemsRound`, `alternativesRound` and `rulesRound` are
the rounds of the three loops.

A round that is not the last one takes at least one character.  So on every text, be it well formed or not,
a loop ends after at most one round more than the text has characters, and the readers with fuel answer what
it comes to, be it a result or a failure.

Main statement: **`readers_end`**.
-/

namespace ChartParsing.Source

open Text Lexeme

/-! ### Loops -/

section Loops

variable {σ ρ : Type} {round : σ → σ ⊕ ρ} {s : σ} {a b : ρ} {m n : Nat}

/-- From a state, the loop ends with an answer in its `n`-th round. -/
inductive Rounds (round : σ → σ ⊕ ρ) : Nat → σ → ρ → Prop
  | last {s : σ} {a : ρ} (h : round s = .inr a) : Rounds round 1 s a
  | more {s next : σ} {a : ρ} {n : Nat} (h : round s = .inl next) (hrest : Rounds round n next a) :
      Rounds round (n + 1) s a

/-- A loop ends in one way only. -/
theorem Rounds.unique (h : Rounds round m s a) (h' : Rounds round n s b) : m = n ∧ a = b := by
  induction h generalizing n with
  | last hend =>
      cases h' with
      | last hend' => exact ⟨rfl, Sum.inr.inj (hend.symm.trans hend')⟩
      | more hnext _ => exact absurd (hend.symm.trans hnext) Sum.inr_ne_inl
  | more hnext _ ih =>
      cases h' with
      | last hend => exact absurd (hend.symm.trans hnext) Sum.inr_ne_inl
      | more hnext' hrest =>
          obtain rfl := Sum.inl.inj (hnext.symm.trans hnext')
          obtain ⟨rfl, rfl⟩ := ih hrest
          exact ⟨rfl, rfl⟩

/-- A loop ends if every round makes something smaller. -/
theorem exists_rounds (size : σ → Nat) (hround : ∀ s next, round s = .inl next → size next < size s)
    (s : σ) : ∃ n ≤ size s + 1, ∃ a, Rounds round n s a := by
  induction hsize : size s using Nat.strongRecOn generalizing s with
  | _ k ih =>
      cases hs : round s with
      | inr a => exact ⟨1, Nat.le_add_left 1 k, a, .last hs⟩
      | inl next =>
          have hless := hround s next hs
          rw [hsize] at hless
          obtain ⟨n, hn, a, hrest⟩ := ih (size next) hless next rfl
          exact ⟨n + 1, by omega, a, .more hs hrest⟩

/-- A run with fuel for as many rounds as the size of the state answers what the loop comes to. -/
theorem Rounds.run_eq {size : σ → Nat} (h : Rounds round n s a) (run : Nat → σ → ρ) (fuel : Nat)
    (hround : ∀ s next, round s = .inl next → size next < size s)
    (hbase : ∀ s, size s = 0 → round s = .inr (run 0 s))
    (hstep : ∀ fuel s, run (fuel + 1) s = Sum.elim (run fuel) id (round s)) (hfuel : size s ≤ fuel) :
    run fuel s = a := by
  induction h generalizing fuel with
  | @last s a hend =>
      cases fuel with
      | zero => exact Sum.inr.inj ((hbase s (Nat.le_zero.1 hfuel)).symm.trans hend)
      | succ fuel => rw [hstep, hend, Sum.elim_inr, id]
  | @more s next a n hnext _ ih =>
      have hless := hround s next hnext
      cases fuel with
      | zero => omega
      | succ fuel =>
          rw [hstep, hnext, Sum.elim_inl]
          exact ih fuel (by omega)

/-- Goes on with a new state, or ends with a failure. -/
def goOn {α : Type} : Except Failure σ → σ ⊕ Except Failure α
  | .ok next => .inl next
  | .error e => .inr (.error e)

theorem goOn_eq_inl {α : Type} {x : Except Failure σ} (h : goOn (α := α) x = .inl s) : x = .ok s := by
  cases x with
  | error e => simp [goOn] at h
  | ok next => rw [Sum.inl.inj h]

end Loops

/-! ### The three loops -/

/-- Takes an item, unless the alternative ends here. -/
def itemsRound (v : Vocabulary) (s : Rule × Text) : (Rule × Text) ⊕ Except Failure (Rule × Text) :=
  if endsAlternative (dropSpace s.2) then .inr (.ok (s.1, dropSpace s.2))
  else goOn (do
    let (item, rest) ← within ("rule " ++ s.1.lhs) (readItem v (dropSpace s.2))
    let r ← item.addTo s.1
    .ok (r, rest))

/-- Takes an alternative, and the bar behind it if there is one. -/
def alternativesRound (v : Vocabulary) (lhs : String) (s : List Rule × Text) :
    (List Rule × Text) ⊕ Except Failure (List Rule × Text) :=
  match readAlternative v lhs s.2 with
  | .error e => .inr (.error e)
  | .ok (r, rest) =>
      match rest.dropPrefix? bar with
      | none => .inr (.ok (s.1 ++ [r], rest))
      | some next => .inl (s.1 ++ [r], next)

/-- Takes a rule, unless the text ends here. -/
def rulesRound (v : Vocabulary) (s : List Rule × Text) :
    (List Rule × Text) ⊕ Except Failure (List Rule × Text) :=
  if (dropSpace s.2).isEmpty then .inr (.ok (s.1, dropSpace s.2))
  else goOn (do
    let (rules, rest) ← readRule v (dropSpace s.2)
    .ok (s.1 ++ rules, rest))

section Rounds

variable {v : Vocabulary} {lhs : String}

theorem itemsRound_shorter (s next : Rule × Text) (h : itemsRound v s = .inl next) :
    next.2.length < s.2.length := by
  unfold itemsRound at h
  split at h
  · simp at h
  · obtain ⟨⟨item, rest⟩, hitem, hadd⟩ := bind_eq_ok.1 (goOn_eq_inl h)
    obtain ⟨r, -, hnext⟩ := bind_eq_ok.1 hadd
    obtain rfl := Except.ok.inj hnext
    have hread := readItem_eq_ok_iff.1 (within_eq_ok.1 hitem)
    exact (hread.remains.trans_suffix (dropSpace_suffix s.2)).shorter

theorem readItems_succ (v : Vocabulary) (fuel : Nat) (s : Rule × Text) :
    readItems v (fuel + 1) s.1 s.2 =
      Sum.elim (fun next => readItems v fuel next.1 next.2) id (itemsRound v s) := by
  unfold itemsRound
  rw [readItems]
  dsimp only
  split
  · rfl
  · cases within ("rule " ++ s.1.lhs) (readItem v (dropSpace s.2)) with
    | error e => rfl
    | ok found =>
        dsimp only [bind, Except.bind]
        cases found.1.addTo s.1 <;> rfl

/-- **The loop over the items** of an alternative ends on every text. -/
theorem rounds_readAlternative (v : Vocabulary) (lhs : String) (t : Text) :
    ∃ n ≤ t.length + 1, Rounds (itemsRound v) n (Rule.of lhs [], t) (readAlternative v lhs t) := by
  obtain ⟨n, hn, a, hrounds⟩ := exists_rounds (fun s : Rule × Text => s.2.length)
    (@itemsRound_shorter v) (Rule.of lhs [], t)
  have hrun := hrounds.run_eq (fun fuel s => readItems v fuel s.1 s.2) t.length
    itemsRound_shorter ?_ (readItems_succ v) (Nat.le_refl _)
  · rw [← hrun] at hrounds
    exact ⟨n, hn, hrounds⟩
  · rintro ⟨r, t⟩ ht
    obtain rfl := List.eq_nil_of_length_eq_zero ht
    rfl

theorem alternativesRound_shorter (s next : List Rule × Text)
    (h : alternativesRound v lhs s = .inl next) : next.2.length < s.2.length := by
  unfold alternativesRound at h
  split at h
  · simp at h
  · next r rest hread =>
      split at h
      · simp at h
      · next left hbar =>
          obtain rfl := Sum.inl.inj h
          have hsuffix := (readAlternative_eq_ok_iff.1 hread).suffix
          exact ((remains_of_dropPrefix? (by decide) hbar).trans_suffix hsuffix).shorter

/-- The alternatives behind those that were read before. -/
theorem readAlternatives_succ (v : Vocabulary) (lhs : String) (fuel : Nat) (s : List Rule × Text) :
    (readAlternatives v lhs (fuel + 1) s.2).map (fun p => (s.1 ++ p.1, p.2)) =
      Sum.elim (fun next => (readAlternatives v lhs fuel next.2).map (fun p => (next.1 ++ p.1, p.2))) id
        (alternativesRound v lhs s) := by
  unfold alternativesRound
  rw [readAlternatives]
  cases readAlternative v lhs s.2 with
  | error e => rfl
  | ok found =>
      obtain ⟨r, rest⟩ := found
      dsimp only [bind, Except.bind]
      cases rest.dropPrefix? bar with
      | none => rfl
      | some next =>
          dsimp only [Sum.elim_inl]
          cases readAlternatives v lhs fuel next with
          | error e => rfl
          | ok others => simp [Except.map]

/-- **The loop over the alternatives** of a rule ends on every text. -/
theorem rounds_readAlternatives (v : Vocabulary) (lhs : String) (t : Text) : ∃ n ≤ t.length + 1,
    Rounds (alternativesRound v lhs) n ([], t) (readAlternatives v lhs (t.length + 1) t) := by
  obtain ⟨n, hn, a, hrounds⟩ := exists_rounds (fun s : List Rule × Text => s.2.length)
    (@alternativesRound_shorter v lhs) ([], t)
  have hrun := hrounds.run_eq
    (fun fuel s => (readAlternatives v lhs (fuel + 1) s.2).map (fun p => (s.1 ++ p.1, p.2))) t.length
    alternativesRound_shorter ?_ (fun fuel s => readAlternatives_succ v lhs (fuel + 1) s) (Nat.le_refl _)
  · rw [← hrun] at hrounds
    refine ⟨n, hn, ?_⟩
    convert hrounds using 1
    cases readAlternatives v lhs (t.length + 1) t <;> rfl
  · intro s hs
    have hsucc := readAlternatives_succ v lhs 0 s
    cases hround : alternativesRound v lhs s with
    | inl next =>
        have hless := alternativesRound_shorter s next hround
        omega
    | inr a =>
        rw [hround, Sum.elim_inr, id] at hsucc
        rw [← hsucc]

theorem rulesRound_shorter (s next : List Rule × Text) (h : rulesRound v s = .inl next) :
    next.2.length < s.2.length := by
  unfold rulesRound at h
  split at h
  · simp at h
  · obtain ⟨⟨rules, rest⟩, hrule, hnext⟩ := bind_eq_ok.1 (goOn_eq_inl h)
    obtain rfl := Except.ok.inj hnext
    exact ((readRule_eq_ok_iff.1 hrule).remains.trans_suffix (dropSpace_suffix s.2)).shorter

/-- The rules behind those that were read before. -/
theorem readRulesFrom_succ (v : Vocabulary) (fuel : Nat) (s : List Rule × Text) :
    (readRulesFrom v (fuel + 1) s.2).map (fun rules => (s.1 ++ rules, ([] : Text))) =
      Sum.elim (fun next => (readRulesFrom v fuel next.2).map (fun rules => (next.1 ++ rules, []))) id
        (rulesRound v s) := by
  unfold rulesRound
  rw [readRulesFrom]
  dsimp only
  by_cases hends : (dropSpace s.2).isEmpty = true
  · rw [if_pos hends, if_pos hends, List.isEmpty_iff.1 hends]
    simp [Except.map]
  · rw [if_neg hends, if_neg hends]
    cases readRule v (dropSpace s.2) with
    | error e => rfl
    | ok found =>
        obtain ⟨rules, rest⟩ := found
        dsimp only [bind, Except.bind, goOn, Sum.elim_inl]
        cases readRulesFrom v fuel rest with
        | error e => rfl
        | ok others => simp [Except.map]

/-- **The loop over the rules** ends on every text, and where it succeeds nothing of the text is left. -/
theorem rounds_readRules (v : Vocabulary) (t : Text) : ∃ n ≤ t.length + 1,
    Rounds (rulesRound v) n ([], t) ((readRules v t).map (fun rules => (rules, []))) := by
  obtain ⟨n, hn, a, hrounds⟩ := exists_rounds (fun s : List Rule × Text => s.2.length)
    (@rulesRound_shorter v) ([], t)
  have hrun := hrounds.run_eq
    (fun fuel s => (readRulesFrom v (fuel + 1) s.2).map (fun rules => (s.1 ++ rules, []))) t.length
    rulesRound_shorter ?_ (fun fuel s => readRulesFrom_succ v (fuel + 1) s) (Nat.le_refl _)
  · rw [← hrun] at hrounds
    exact ⟨n, hn, hrounds⟩
  · intro s hs
    have hsucc := readRulesFrom_succ v 0 s
    cases hround : rulesRound v s with
    | inl next =>
        have hless := rulesRound_shorter s next hround
        omega
    | inr a =>
        rw [hround, Sum.elim_inr, id] at hsucc
        rw [← hsucc]

end Rounds

/-! ### Readers -/

/-- What the reader leaves of a text is a proper suffix of it. -/
def Consumes {α : Type} (read : Text → Except Failure (α × Text)) : Prop :=
  ∀ t a rest, read t = .ok (a, rest) → Remains rest t

/-- The left side of a rule and its arrow. -/
def readHead (t : Text) : Except Failure (String × Text) := do
  let (lhs, rest) ← within "rule symbol" (readName t)
  let rest := dropSpace rest
  let rest ← within "rule arrow" (required .arrow rest (rest.dropPrefix? "->".toList))
  .ok (lhs, rest)

theorem readRule_eq (v : Vocabulary) (t : Text) : readRule v t =
    (readHead t >>= fun (lhs, rest) => readAlternatives v lhs (rest.length + 1) rest) := by
  unfold readRule readHead
  cases within "rule symbol" (readName t) with
  | error e => rfl
  | ok found =>
      dsimp only [bind, Except.bind]
      cases within "rule arrow" (required .arrow (dropSpace found.2)
        ((dropSpace found.2).dropPrefix? "->".toList)) <;> rfl

theorem consumes_readName : Consumes readName := by
  intro t name rest h
  obtain ⟨w, hw, -⟩ := readName_eq_ok.1 h
  exact name?_remains hw

/-- **Grammar texts are read to their ends.**  What the readers of names, options, items and rules leave is a
proper suffix of the text, what the reader of alternatives leaves is a suffix.  On every text the loops over
items, alternatives and rules end, after at most one round more than there are characters, with what the
readers answer.  A rule's text has one alternative more than bars, and when all rules are read nothing is
left of the text. -/
theorem readers_end (v : Vocabulary) :
    (Consumes readName ∧ (∀ key, Consumes (readOption key)) ∧ Consumes (readItem v) ∧
      Consumes (readRule v)) ∧
    ((∀ t, dropSpace t <:+ t) ∧
      ∀ lhs t r rest, readAlternative v lhs t = .ok (r, rest) → rest <:+ t) ∧
    (∀ lhs t, ∃ n ≤ t.length + 1,
      Rounds (itemsRound v) n (Rule.of lhs [], t) (readAlternative v lhs t)) ∧
    (∀ t, (∃ e, readHead t = .error e ∧ readRule v t = .error e) ∨
      ∃ lhs inner, readHead t = .ok (lhs, inner) ∧ ∃ n ≤ inner.length + 1,
        Rounds (alternativesRound v lhs) n ([], inner) (readRule v t)) ∧
    (∀ t, ∃ n ≤ t.length + 1,
      Rounds (rulesRound v) n ([], t) ((readRules v t).map (fun rules => (rules, [])))) ∧
    ∀ t rules rest, readRule v t = .ok (rules, rest) →
      ∃ w, t = w ++ rest ∧ rules.length = barsFrom .outside w + 1 := by
  refine ⟨⟨consumes_readName, fun key t o rest h => (readOption_eq_ok_iff.1 h).remains,
    fun t item rest h => (readItem_eq_ok_iff.1 h).remains,
    fun t rules rest h => (readRule_eq_ok_iff.1 h).remains⟩,
    ⟨dropSpace_suffix, fun lhs t r rest h => (readAlternative_eq_ok_iff.1 h).suffix⟩,
    rounds_readAlternative v, fun t => ?_, rounds_readRules v,
    fun t rules rest h => (readRule_eq_ok_iff.1 h).bars⟩
  rw [readRule_eq]
  cases hhead : readHead t with
  | error e => exact .inl ⟨e, rfl, rfl⟩
  | ok found =>
      obtain ⟨lhs, inner⟩ := found
      obtain ⟨n, hn, hrounds⟩ := rounds_readAlternatives v lhs inner
      exact .inr ⟨lhs, inner, rfl, n, hn, hrounds⟩

end ChartParsing.Source
