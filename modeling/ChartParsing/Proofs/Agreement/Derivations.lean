import ChartParsing.Proofs.Chart.Preference
import ChartParsing.Proofs.Recognition.Splits

/-!
# Derivations that count, by their splits

Of the derivations that were found at one split of a stretch one at most counts, since an edge without
a place is left out beside one with a place: `Found.eq_of_counts`.  So what counts of an edge can be told
by splits.

* Top down there is a derivation that counts for each preferred split, and for no other:
  **`exists_counts_topDown`** and **`preferredSplit_topDown`**.
* Bottom up there need not be.  `Complete` says of an edge that none is missing, and then no other
  derivation counts either: **`Complete.preferredSplit`**.
-/

namespace ChartParsing

namespace Chart

variable {rules : Array Rule} {c : Chart rules} {a b b' : Nat} {o o' f f' : Item rules}
  {other δ : Derivation}

theorem isFloating_some (ho : c.item? a = some o) :
    c.isFloating (some a) = true ↔ o.start = .anywhere := by
  rw [isFloating, Option.bind_some, ho]
  exact Parser.isFloating_iff

theorem isAnchored_some (ho : c.item? a = some o) :
    c.isAnchored (some a) = true ↔ o.start ≠ .anywhere := by
  rw [isAnchored, Option.bind_some, ho]
  show (!o.isFloating) = true ↔ _
  rw [Bool.not_eq_true', ← Bool.not_eq_true, Parser.isFloating_iff]

theorem sameRule_some (ho : c.item? a = some o) (hf : c.item? b = some f) :
    c.sameRule (some a) (some b) = true ↔ o.number = f.number := by
  simp [sameRule, ho, hf]

theorem standsFor_base (child : Option Nat) (texts texts' : Option (List String))
    (ho : c.item? b = some o) (ho' : c.item? b' = some o') (hf : o.start = .anywhere)
    (hf' : o'.start ≠ .anywhere) (hn : o'.number = o.number) :
    c.standsFor ⟨some b', child, texts'⟩ ⟨some b, child, texts⟩ = true := by
  simp [standsFor, (isFloating_some ho).2 hf, (isAnchored_some ho').2 hf', (sameRule_some ho' ho).2 hn]

theorem standsFor_child (texts texts' : Option (List String)) (ho : c.item? a = some o)
    (ha : o.start ≠ .anywhere) (hf : c.item? b = some f) (hf' : c.item? b' = some f')
    (hs : f.start = .anywhere) (hs' : f'.start ≠ .anywhere) (hn : f'.number = f.number) :
    c.standsFor ⟨some a, some b', texts'⟩ ⟨some a, some b, texts⟩ = true := by
  have hbase : c.isFloating (some a) = false :=
    Bool.eq_false_iff.2 (fun h => ha ((isFloating_some ho).1 h))
  simp [standsFor, hbase, (isFloating_some hf).2 hs, (isAnchored_some hf').2 hs',
    (sameRule_some hf' hf).2 hn]

end Chart

namespace Parser

variable {g : Grammar} {strategy : Strategy} {lexer : Lexer} {input : Text}
  {c : Chart g.rules} {i o o' f f' : Item g.rules} {r : g.RuleId} {d s p q e n a a' b b' : Nat}
  {δ δ' : Derivation} {y y' : Option g.RuleId} {x : Edge g.rules}

/-! ### One derivation at a split -/

/-- Two items with the same symbols left of the dot over one stretch are the same, or one of them has
no place. -/
theorem eq_or_floating (hn : o'.number = o.number) (hd : o'.dot = o.dot) (ho : o.Over s p)
    (ho' : o'.Over s p) : o = o' ∨ o.start = .anywhere ∧ o'.start ≠ .anywhere ∨
      o.start ≠ .anywhere ∧ o'.start = .anywhere := by
  obtain ⟨r, d, u, v⟩ := o
  obtain ⟨r', d', u', v'⟩ := o'
  obtain rfl : r' = r := hn
  obtain rfl : d' = d := hd
  rcases ho with ⟨hu, hv⟩ | ⟨hu, hv, rfl⟩
  · obtain rfl : u = _ := hu
    obtain rfl : v = _ := hv
    rcases ho' with ⟨hu', hv'⟩ | ⟨hu', hv', rfl⟩
    · obtain rfl : u' = _ := hu'
      obtain rfl : v' = _ := hv'
      exact .inl rfl
    · exact .inr (.inr ⟨by simp, hu'⟩)
  · obtain rfl : u = _ := hu
    obtain rfl : v = _ := hv
    rcases ho' with ⟨hu', hv'⟩ | ⟨hu', hv', -⟩
    · obtain rfl : u' = _ := hu'
      exact .inr (.inl ⟨rfl, by simp⟩)
    · obtain rfl : u' = _ := hu'
      obtain rfl : v' = _ := hv'
      exact .inl rfl

/-- What counts is preferred among the derivations of the edge, and no preferred one stands for it. -/
theorem counts_iff (hx : c.edge? n = some x) : δ ∈ c.derivations n ↔
    δ ∈ preferred c.childPriority? x.derivations ∧
      ∀ other ∈ preferred c.childPriority? x.derivations, c.standsFor other δ = false := by
  rw [Chart.mem_derivations]
  constructor
  · rintro ⟨z, hz, h⟩
    obtain rfl := Option.some.inj (hx.symm.trans hz)
    exact h
  · exact fun h => ⟨x, hx, h⟩

/-- Among the derivations of an edge being preferred depends on the child alone. -/
theorem preferred_of_child (hδ : δ ∈ preferred c.childPriority? x.derivations)
    (hδ' : δ' ∈ x.derivations) (h : δ'.child = δ.child) :
    δ' ∈ preferred c.childPriority? x.derivations := by
  have hp : c.childPriority? δ' = c.childPriority? δ := by
    unfold Chart.childPriority?
    rw [h]
  obtain ⟨-, hmax⟩ := mem_preferred.1 hδ
  refine mem_preferred.2 ⟨hδ', fun b hb => hmax b ?_⟩
  rw [← hp]
  exact hb

/-- Beside an open edge with a place one without a place does not count, where both take the same
finished edge. -/
theorem not_counts_of_anchored (hc : Parsed strategy lexer input c)
    (hx : c.edge? n = some x) (hδ : (⟨some a, some b, none⟩ : Derivation) ∈ c.derivations n)
    (ho : c.item? a = some o) (ho' : c.item? a' = some o') (hf : c.item? b = some f)
    (hi : x.item = o.joined f) (hover : o.Over s p) (hover' : o'.Over s p) (hfe : f.Over p e)
    (ht : o.Takes f) (hn : o'.number = o.number) (hd : o'.dot = o.dot) (hs : o.start = .anywhere)
    (hs' : o'.start ≠ .anywhere) (hstart : x.item.start ≠ .anywhere) : False := by
  have hspan' : o'.start = .offset s ∧ o'.stop = .offset p := by
    rcases hover' with h | ⟨h, -⟩
    · exact h
    · exact absurd h hs'
  have hsp : s = p := by
    rcases hover with ⟨h, -⟩ | ⟨-, -, h⟩
    · exact absurd (hs.symm.trans h) (by simp)
    · exact h
  have hfspan : f.start = .offset p ∧ f.stop = .offset e := by
    rcases hfe with h | ⟨h, -⟩
    · exact h
    · refine absurd ?_ hstart
      rw [hi]
      exact Item.joined_start_eq_anywhere.2 ⟨hs, h⟩
  have htakes : o'.Takes f := by
    have hrule : o'.rule = o.rule := congrArg g.rule hn
    have hnext : o'.next? = o.next? := by
      unfold Item.next?
      rw [hrule, hd]
    refine ⟨?_, ht.reduced, .inl (hspan'.2.trans hfspan.1.symm), ?_⟩
    · unfold Item.wanted?
      rw [hnext]
      exact ht.wanted
    · unfold Chart.veto?
      rw [hrule, hd]
      exact ht.allowed
  have hi' : x.item = o'.joined f := by
    rw [hi]
    unfold Item.joined Item.step
    rw [hn, hd, hs, hspan'.1, hspan'.2, hfspan.1, hfspan.2, hsp]
    rfl
  have hrec := hc.joined a' b o' f ho' hf htakes
  rw [← hi'] at hrec
  obtain ⟨⟨base, child, texts⟩, hmem, rfl, rfl⟩ := exists_of_records hc.wellFormed hx hrec
  obtain ⟨hpref, hall⟩ := (counts_iff hx).1 hδ
  have hstands := Chart.standsFor_base (c := c) (some b) none texts
    ho ho' hs hs' hn
  rw [hall _ (preferred_of_child hpref hmem rfl)] at hstands
  simp at hstands

/-- Of two derivations that count neither stands for the other. -/
theorem standsFor_of_counts (hx : c.edge? n = some x) (hδ : δ ∈ c.derivations n)
    (hδ' : δ' ∈ c.derivations n) : c.standsFor δ' δ = false :=
  ((counts_iff hx).1 hδ).2 δ' ((counts_iff hx).1 hδ').1

/-- Over a terminal one open edge counts at each split. -/
theorem base_eq_of_counts (hc : Parsed strategy lexer input c) (hx : c.edge? n = some x)
    {texts texts' : Option (List String)} (hδ : ⟨some a, none, texts⟩ ∈ c.derivations n)
    (hδ' : ⟨some a', none, texts'⟩ ∈ c.derivations n) (ho : c.item? a = some o)
    (ho' : c.item? a' = some o') (hn : o'.number = o.number) (hd : o'.dot = o.dot)
    (hover : o.Over s p) (hover' : o'.Over s p) : a = a' := by
  rcases eq_or_floating hn hd hover hover' with rfl | ⟨hs, hs'⟩ | ⟨hs, hs'⟩
  · exact hc.wellFormed.unique a a' o ho ho'
  · have hstands := Chart.standsFor_base (c := c) none texts texts' ho ho' hs hs' hn
    rw [standsFor_of_counts hx hδ hδ'] at hstands
    simp at hstands
  · have hstands := Chart.standsFor_base (c := c) none texts' texts ho' ho hs' hs hn.symm
    rw [standsFor_of_counts hx hδ' hδ] at hstands
    simp at hstands

/-- Behind one open edge one finished edge of a rule counts at each split. -/
theorem child_eq_of_counts (hc : Parsed strategy lexer input c) (hx : c.edge? n = some x)
    (hδ : ⟨some a, some b, none⟩ ∈ c.derivations n) (hδ' : ⟨some a, some b', none⟩ ∈ c.derivations n)
    (ho : c.item? a = some o) (hf : c.item? b = some f) (hf' : c.item? b' = some f')
    (hn : f'.number = f.number) (hd : f'.dot = f.dot) (hfe : f.Over p e) (hfe' : f'.Over p e)
    (hjoined : o.joined f = o.joined f') : b = b' := by
  rcases eq_or_floating hn hd hfe hfe' with rfl | ⟨hs, hs'⟩ | ⟨hs, hs'⟩
  · exact hc.wellFormed.unique b b' f hf hf'
  · have hplace : o.start ≠ .anywhere := by
      intro h
      have hnone := Item.joined_start_eq_anywhere.2 ⟨h, hs⟩
      rw [hjoined] at hnone
      exact hs' (Item.joined_start_eq_anywhere.1 hnone).2
    have hstands := Chart.standsFor_child (c := c) none none ho hplace hf hf' hs hs' hn
    rw [standsFor_of_counts hx hδ hδ'] at hstands
    simp at hstands
  · have hplace : o.start ≠ .anywhere := by
      intro h
      have hnone := Item.joined_start_eq_anywhere.2 ⟨h, hs'⟩
      rw [← hjoined] at hnone
      exact hs (Item.joined_start_eq_anywhere.1 hnone).2
    have hstands := Chart.standsFor_child (c := c) none none ho hplace hf' hf hs' hs hn.symm
    rw [standsFor_of_counts hx hδ' hδ] at hstands
    simp at hstands

/-- **At each split one derivation counts at most.** -/
theorem Found.eq_of_counts (hc : Parsed strategy lexer input c)
    (hx : c.edge? n = some x) (hδ : δ ∈ c.derivations n) (hδ' : δ' ∈ c.derivations n)
    (h : Found lexer input c x.item s p e δ y) (h' : Found lexer input c x.item s p e δ' y) :
    δ = δ' := by
  cases h with
  | @terminal a o t m ho hn hd hover ht hs hm he =>
      generalize hz : (none : Option g.RuleId) = z at h'
      cases h' with
      | nonterminal _ _ _ _ _ _ _ => exact absurd hz (by simp)
      | @terminal a' o' t' m' ho' hn' hd' hover' ht' hs' hm' he' =>
          have hod : o'.dot = o.dot := by omega
          obtain rfl := base_eq_of_counts hc hx hδ hδ' ho ho' (hn'.trans hn.symm) hod hover hover'
          exact (hc.wellFormed.distinct n x hx).eq_of_same
            (mem_preferred.1 ((counts_iff hx).1 hδ).1).1
            (mem_preferred.1 ((counts_iff hx).1 hδ').1).1 (by simp [Derivation.same])
  | @nonterminal a b o f ho hf hi hover hfe hd ht =>
      generalize hz : some f.number = z at h'
      cases h' with
      | terminal _ _ _ _ _ _ _ _ => exact absurd hz (by simp)
      | @nonterminal a' b' o' f' ho' hf' hi' hover' hfe' hd' ht' =>
          have hfn : f'.number = f.number := (Option.some.inj hz).symm
          have hfd : f'.dot = f.dot := by
            rw [hd', hd]
            exact congrArg (fun r => (g.rule r).length) hfn
          have hjoined : o.joined f = o'.joined f' := hi.symm.trans hi'
          have hon : o'.number = o.number := (congrArg Item.number hjoined).symm
          have hod : o'.dot = o.dot := (Nat.succ.inj (congrArg Item.dot hjoined)).symm
          have hstart {o f : Item g.rules} (hi : x.item = o.joined f) (ho : o.start ≠ .anywhere) :
              x.item.start ≠ .anywhere := by
            rw [hi]
            exact fun h => ho (Item.joined_start_eq_anywhere.1 h).1
          rcases eq_or_floating hon hod hover hover' with rfl | ⟨hfl, hfl'⟩ | ⟨hfl, hfl'⟩
          · obtain rfl := hc.wellFormed.unique a a' o ho ho'
            obtain rfl := child_eq_of_counts hc hx hδ hδ' ho hf hf' hfn hfd hfe hfe' hjoined
            rfl
          · exact (not_counts_of_anchored hc hx hδ ho ho' hf hi hover hover' hfe ht hon hod hfl
              hfl' (hstart hi' hfl')).elim
          · exact (not_counts_of_anchored hc hx hδ' ho' ho hf' hi' hover' hover hfe' ht' hon.symm
              hod.symm hfl' hfl (hstart hi hfl)).elim

/-! ### Preferred splits -/

/-- The priority of the rule that stands for the last symbol. -/
def splitPriority (y : Option g.RuleId) : Option Int := y.bind (fun r => (g.rule r).priority)

/-- A split at which no other split of the stretch has a rule of greater priority. -/
structure PreferredSplit (lexer : Lexer) (input : Text) (r : g.RuleId) (d s p e : Nat)
    (y : Option g.RuleId) : Prop where
  splits : Splits lexer input r d s p e y
  greatest : ∀ b, splitPriority y = some b → ∀ q y', Splits lexer input r d s q e y' →
    ∀ b', splitPriority y' = some b' → b' ≤ b

/-- No split has a rule of greater priority than all preferred ones. -/
theorem exists_preferredSplit {b : Int} (h : Splits lexer input r d s p e y)
    (hb : splitPriority y = some b) :
    ∃ q y' b', PreferredSplit lexer input r d s q e y' ∧ splitPriority y' = some b' ∧ b ≤ b' := by
  classical
  let rules := (List.finRange g.rules.size).filter (fun r' =>
    decide (∃ q, Splits lexer input r d s q e (some r')))
  have hmem {q : Nat} {y' : Option g.RuleId} {b' : Int} (hs : Splits lexer input r d s q e y')
      (hb' : splitPriority y' = some b') :
      b' ∈ rules.filterMap (fun r' => (g.rule r').priority) := by
    obtain ⟨r', rfl, hr'⟩ := Option.bind_eq_some_iff.1 hb'
    refine List.mem_filterMap.2 ⟨r', List.mem_filter.2 ⟨List.mem_finRange r', ?_⟩, hr'⟩
    exact decide_eq_true ⟨q, hs⟩
  cases hg : greatest? (rules.filterMap (fun r' => (g.rule r').priority)) with
  | none =>
      have hnil := hmem h hb
      rw [greatest?_eq_none hg] at hnil
      simp at hnil
  | some best =>
      obtain ⟨hbest, hall⟩ := greatest?_eq_some hg
      obtain ⟨r', hr', hp⟩ := List.mem_filterMap.1 hbest
      obtain ⟨q, hq⟩ := of_decide_eq_true (List.mem_filter.1 hr').2
      refine ⟨q, some r', best, ⟨hq, fun b₁ hb₁ q' y' hs b' hb' => ?_⟩, hp, hall b (hmem h hb)⟩
      obtain rfl : best = b₁ := Option.some.inj (hp.symm.trans hb₁)
      exact hall b' (hmem hs hb')

theorem Found.childPriority (h : Found lexer input c i s p e δ y) :
    c.childPriority? δ = splitPriority y := by
  cases h with
  | terminal _ _ _ _ _ _ _ _ => rfl
  | @nonterminal base child o f ho hf _ _ _ _ _ =>
      show c.priority? child = (g.rule f.number).priority
      unfold Chart.priority?
      rw [hf]
      rfl

/-- What was found at a preferred split is preferred. -/
theorem PreferredSplit.mem_preferred (hc : Parsed strategy lexer input c) (hx : c.edge? n = some x)
    (hover : x.item.Over s e) (hd : x.item.dot = d + 1)
    (hp : PreferredSplit lexer input x.item.number d s p e y) (hδ : δ ∈ x.derivations)
    (h : Found lexer input c x.item s p e δ y) :
    δ ∈ preferred c.childPriority? x.derivations := by
  refine ChartParsing.mem_preferred.2 ⟨hδ, fun b hb δ' hδ' b' hb' => ?_⟩
  obtain ⟨q, y', h'⟩ := hc.built.found hc.noGaps hx hδ' hover
  have hsplit := h'.splits_of_dot hc.built hc.noGaps hd
  rw [h.childPriority] at hb
  rw [h'.childPriority] at hb'
  exact hp.greatest b hb q y' hsplit b' hb'

/-- What counts of an edge is preferred among what was found of it. -/
theorem Found.le_of_counts (h : Found lexer input c x.item s p e δ y) (hx : c.edge? n = some x)
    (hδ : δ ∈ c.derivations n) {b : Int} (hb : splitPriority y = some b)
    (h' : Found lexer input c x.item s q e δ' y') (hδ' : δ' ∈ x.derivations) {b' : Int}
    (hb' : splitPriority y' = some b') : b' ≤ b := by
  obtain ⟨-, hmax⟩ := mem_preferred.1 ((counts_iff hx).1 hδ).1
  exact hmax b (h.childPriority.trans hb) δ' hδ' b' (h'.childPriority.trans hb')

/-! ### Top down -/

/-- Top down all that is preferred counts. -/
theorem counts_iff_topDown (hc : Parsed .topDown lexer input c)
    (hx : c.edge? n = some x) (hover : x.item.Over s e) :
    δ ∈ c.derivations n ↔ δ ∈ preferred c.childPriority? x.derivations := by
  rw [counts_iff hx]
  refine ⟨fun h => h.1, fun h => ⟨h, fun other _ => ?_⟩⟩
  have hplace {m : Nat} {j : Item g.rules} (hj : c.item? m = some j) :
      c.isFloating (some m) = false := by
    have hne := hc.built.start_ne_anywhere ⟨m, hj⟩
    exact Bool.eq_false_iff.2 (fun h => hne ((Chart.isFloating_some hj).1 h))
  obtain ⟨p, y, hfound⟩ := hc.built.found hc.noGaps hx (mem_preferred.1 h).1 hover
  cases hfound with
  | terminal ho _ _ _ _ _ _ _ => exact Chart.standsFor_eq_false (hplace ho) rfl
  | nonterminal ho hf _ _ _ _ _ => exact Chart.standsFor_eq_false (hplace ho) (hplace hf)

/-- **Top down something counts for each preferred split.** -/
theorem exists_counts_topDown (hc : Parsed .topDown lexer input c) (hx : c.edge? n = some x)
    (hi : x.item = ⟨r, d + 1, .offset s, .offset e⟩)
    (h : PreferredSplit lexer input r d s p e y) :
    ∃ δ ∈ c.derivations n, Found lexer input c x.item s p e δ y := by
  have hover : x.item.Over s e := .inl (by rw [hi]; exact ⟨rfl, rfl⟩)
  obtain ⟨δ, hδ, hfound⟩ := hc.exists_found_topDown hx hi h.splits
  have hp : PreferredSplit lexer input x.item.number d s p e y := by
    rw [hi]
    exact h
  have hd : x.item.dot = d + 1 := by rw [hi]
  exact ⟨δ, (counts_iff_topDown hc hx hover).2 (hp.mem_preferred hc hx hover hd hδ hfound), hfound⟩

/-- **Top down nothing else counts.** -/
theorem preferredSplit_topDown (hc : Parsed .topDown lexer input c) (hx : c.edge? n = some x)
    (hi : x.item = ⟨r, d + 1, .offset s, .offset e⟩) (hδ : δ ∈ c.derivations n)
    (h : Found lexer input c x.item s p e δ y) : PreferredSplit lexer input r d s p e y := by
  have hd : x.item.dot = d + 1 := by rw [hi]
  have hsplit := h.splits_of_dot hc.built hc.noGaps hd
  rw [hi] at hsplit
  refine ⟨hsplit, fun b hb' q y' hs b' hb'' => ?_⟩
  obtain ⟨δ', hδ', h'⟩ := hc.exists_found_topDown hx hi hs
  exact h.le_of_counts hx hδ hb' h' hδ' hb''

/-! ### Complete edges -/

/-- Something counts of the edge for each preferred split of the stretch. -/
def Complete (lexer : Lexer) (input : Text) (c : Chart g.rules) (n s e : Nat) : Prop :=
  ∀ i, c.item? n = some i → ∀ d p y, i.dot = d + 1 →
    PreferredSplit lexer input i.number d s p e y →
      ∃ δ ∈ c.derivations n, Found lexer input c i s p e δ y

/-- **Of a complete edge nothing else counts.** -/
theorem Complete.preferredSplit (hn : Complete lexer input c n s e)
    (hc : Parsed strategy lexer input c) (hx : c.edge? n = some x)
    (hd : x.item.dot = d + 1) (hδ : δ ∈ c.derivations n)
    (h : Found lexer input c x.item s p e δ y) :
    PreferredSplit lexer input x.item.number d s p e y := by
  have hsplit := h.splits_of_dot hc.built hc.noGaps hd
  refine ⟨hsplit, fun b hb' q y' hs b' hb'' => ?_⟩
  obtain ⟨q₁, y₁, b₁, hpref, hb₁, hle⟩ := exists_preferredSplit hs hb''
  obtain ⟨δ₁, hδ₁, h₁⟩ := hn x.item (Chart.item?_eq_some.2 ⟨x, hx, rfl⟩) d q₁ y₁ hd hpref
  have hmem := (mem_preferred.1 ((counts_iff hx).1 hδ₁).1).1
  have hle' := h.le_of_counts hx hδ hb' h₁ hmem hb₁
  omega

end Parser

end ChartParsing
