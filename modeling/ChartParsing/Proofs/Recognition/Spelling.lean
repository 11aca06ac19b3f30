import ChartParsing.Proofs.Parsing.Termination

/-!
# What rules spell

`Spells` says without any chart which stretches of an input the symbols of a rule take: a terminal moves
on to where the lexer says, and a nonterminal over what a rule of its own spells as a whole, unless the
operators forbid this rule there.  The number of terminals is kept track of, since a row of symbols
without any terminal is what makes an edge that starts anywhere.

Main statement: **`Built.spells`**.  The symbols left of an item's dot spell every stretch of the input
that the item lies over, and without a terminal if the item starts anywhere.
-/

namespace ChartParsing

/-- The item lies over this stretch; one that starts anywhere lies over every empty stretch. -/
def Item.Over {rules : Array Rule} (i : Item rules) (s e : Nat) : Prop :=
  i.start = .offset s ∧ i.stop = .offset e ∨ i.start = .anywhere ∧ i.stop = .anywhere ∧ s = e

section Over

variable {rules : Array Rule} {i : Item rules} {s p q e : Nat}

theorem Item.eq_of_fields {d : Nat} {start stop : Position} (hd : i.dot = d) (hs : i.start = start)
    (he : i.stop = stop) : i = ⟨i.number, d, start, stop⟩ := by
  subst hd hs he
  rfl

/-- An item lies over one stretch only from each offset. -/
theorem Item.Over.stop_unique (h : i.Over s p) (h' : i.Over s q) : p = q := by
  rcases h with ⟨-, hp⟩ | ⟨-, hp, rfl⟩
  · rcases h' with ⟨-, hq⟩ | ⟨-, hq, -⟩
    · exact Position.offset.inj (hp.symm.trans hq)
    · exact absurd (hp.symm.trans hq) (by simp)
  · rcases h' with ⟨-, hq⟩ | ⟨-, -, rfl⟩
    · exact absurd (hp.symm.trans hq) (by simp)
    · rfl

/-- It lies over one stretch only up to each offset. -/
theorem Item.Over.start_unique (h : i.Over p e) (h' : i.Over q e) : p = q := by
  rcases h with ⟨hp, -⟩ | ⟨hp, -, rfl⟩
  · rcases h' with ⟨hq, -⟩ | ⟨hq, -, -⟩
    · exact Position.offset.inj (hp.symm.trans hq)
    · exact absurd (hp.symm.trans hq) (by simp)
  · rcases h' with ⟨hq, -⟩ | ⟨-, -, rfl⟩
    · exact absurd (hp.symm.trans hq) (by simp)
    · rfl

/-- An item over a stretch that is not empty has a place. -/
theorem Item.Over.of_lt (h : i.Over s e) (hlt : s < e) : i.start = .offset s ∧ i.stop = .offset e := by
  rcases h with h | ⟨-, -, rfl⟩
  · exact h
  · exact absurd hlt (Nat.lt_irrefl s)

end Over

namespace Parser

variable {g : Grammar} {strategy : Strategy} {lexer : Lexer} {input : Text}
  {c : Chart g.rules} {i o f : Item g.rules} {r : g.RuleId} {d s p e k l : Nat}

/-- The first `d` symbols of a rule take the input from one offset to another, with `k` terminals among
what they stand for. -/
inductive Spells (lexer : Lexer) (input : Text) : g.RuleId → Nat → Nat → Nat → Nat → Prop
  | start (r : g.RuleId) (s : Nat) : Spells lexer input r 0 s s 0
  | terminal {r : g.RuleId} {d s p k : Nat} {t : Symbol} {m : Match}
      (h : Spells lexer input r d s p k) (ht : (g.rule r).rhs[d]? = some t)
      (hn : t.isNonterminal = false) (hm : lexer t input p = some m) :
      Spells lexer input r (d + 1) s m.stop (k + 1)
  | nonterminal {r r' : g.RuleId} {d s p e k l : Nat} (h : Spells lexer input r d s p k)
      (ht : (g.rule r).rhs[d]? = some (.nonterminal (g.rule r').lhs))
      (hc : Spells lexer input r' (g.rule r').length p e l)
      (hv : (g.rule r).operators.veto? (g.rule r').operators d (g.rule r).length = none) :
      Spells lexer input r (d + 1) s e (k + l)

/-- The rule spells the stretch from one offset to another. -/
def Derives (lexer : Lexer) (input : Text) (r : g.RuleId) (s e : Nat) : Prop :=
  ∃ k, Spells lexer input r (g.rule r).length s e k

/-- What needs no terminal needs no input. -/
theorem Spells.eq_of_zero (h : Spells lexer input r d s e 0) : s = e := by
  generalize hk : 0 = k at h
  induction h with
  | start _ _ => rfl
  | terminal _ _ _ _ _ => simp at hk
  | nonterminal _ _ _ _ ih ih' => exact (ih (by omega)).trans (ih' (by omega))

/-- What needs no terminal is spelled everywhere. -/
theorem Spells.anywhere (h : Spells lexer input r d s e 0) (p : Nat) :
    Spells lexer input r d p p 0 := by
  generalize hk : 0 = k at h
  induction h with
  | start r _ => exact .start r p
  | terminal _ _ _ _ _ => simp at hk
  | @nonterminal r r' d _ _ _ k l _ ht _ hv ih ih' =>
      obtain ⟨rfl, rfl⟩ : k = 0 ∧ l = 0 := by omega
      exact .nonterminal (ih rfl) ht (ih' rfl) hv

/-! ### Soundness -/

theorem not_isNonterminal_of_isScannable {t : Symbol} (h : t.isScannable = true) :
    t.isNonterminal = false := by
  unfold Symbol.isScannable at h
  rw [Bool.and_eq_true] at h
  simpa using h.1

theorem gapAt_ne_ok {a : Gap × String} (hg : g.NoGaps) : gapAt i ≠ .ok a := by
  unfold gapAt
  split
  · simp
  · next gap hgap =>
      obtain ⟨t, ht, hgap⟩ := Option.bind_eq_some_iff.1 hgap
      have hk := hg i.number t (List.mem_of_getElem? ht)
      cases t <;> simp [Symbol.gap?, Symbol.isGap, Symbol.kind] at hgap hk

/-- What is spelled left of the dot of each item. -/
def Spelled (lexer : Lexer) (input : Text) (i : Item g.rules) : Prop :=
  ∀ s e, i.Over s e →
    ∃ k, Spells lexer input i.number i.dot s e k ∧ (i.start = .anywhere → k = 0)

theorem Spelled.initial (lexer : Lexer) (input : Text) (r : g.RuleId) (place : Position) :
    Spelled lexer input (Item.initial r place) := by
  intro s e ho
  obtain rfl : s = e := by
    rcases ho with ⟨hs, he⟩ | ⟨-, -, h⟩
    · exact Position.offset.inj (hs.symm.trans he)
    · exact h
  exact ⟨0, .start r s, fun _ => rfl⟩

theorem Spelled.scanned {t : Symbol} {m : Match} (h : Spelled lexer input i)
    (ht : i.next? = some t) (hn : t.isNonterminal = false) (hp : i.stop = .offset p)
    (hm : lexer t input p = some m) : Spelled lexer input (i.step i.start (.offset m.stop)) := by
  intro s e ho
  rcases ho with ⟨hs, he⟩ | ⟨-, he, -⟩
  · obtain rfl := Position.offset.inj he
    obtain ⟨k, hk, -⟩ := h s p (.inl ⟨hs, hp⟩)
    exact ⟨k + 1, .terminal hk ht hn hm, fun ha => absurd (ha.symm.trans hs) (by simp)⟩
  · exact absurd he (by simp [Item.step])

theorem Spelled.scannedAnywhere {t : Symbol} {m : Match} (h : Spelled lexer input i)
    (ht : i.next? = some t) (hn : t.isNonterminal = false) (hs : i.start = .anywhere)
    (hp : i.stop = .anywhere) (hm : lexer t input p = some m) :
    Spelled lexer input (i.step (.offset p) (.offset m.stop)) := by
  intro s e ho
  rcases ho with ⟨hs', he⟩ | ⟨hs', -, -⟩
  · obtain rfl := Position.offset.inj hs'
    obtain rfl := Position.offset.inj he
    obtain ⟨k, hk, -⟩ := h p p (.inr ⟨hs, hp, rfl⟩)
    exact ⟨k + 1, .terminal hk ht hn hm, by simp [Item.step]⟩
  · exact absurd hs' (by simp [Item.step])

/-- The stretch of a joined item is made up of the two others. -/
theorem over_of_joined (ho : o.start = .anywhere ↔ o.stop = .anywhere)
    (hf : f.start = .anywhere ↔ f.stop = .anywhere)
    (hm : o.stop = f.start ∨ o.stop = .anywhere ∨ f.start = .anywhere)
    (h : (o.joined f).Over s e) : ∃ p, o.Over s p ∧ f.Over p e := by
  unfold Item.Over Item.joined Item.step at h
  unfold Item.Over
  cases hos : o.start <;> cases hoe : o.stop <;> cases hfs : f.start <;> cases hfe : f.stop <;>
    simp_all [Position.orElse]

theorem Spelled.joined (ho : Spelled lexer input o) (hf : Spelled lexer input f)
    (hos : o.start = .anywhere ↔ o.stop = .anywhere)
    (hfs : f.start = .anywhere ↔ f.stop = .anywhere) (hd : f.dot = f.rule.length)
    (ht : o.Takes f) : Spelled lexer input (o.joined f) := by
  intro s e hover
  obtain ⟨p, hop, hfp⟩ := over_of_joined hos hfs ht.meets hover
  obtain ⟨k, hk, hk'⟩ := ho s p hop
  obtain ⟨l, hl, hl'⟩ := hf p e hfp
  have hn : (g.rule o.number).rhs[o.dot]? = some (.nonterminal f.lhs) := next?_of_wanted? ht.wanted
  rw [hd] at hl
  refine ⟨k + l, .nonterminal hk hn hl ht.allowed, fun ha => ?_⟩
  obtain ⟨hos', hfs'⟩ := Item.joined_start_eq_anywhere.1 ha
  rw [hk' hos', hl' hfs']

/-- **The edges of a chart are sound.**  The symbols left of an item's dot spell what the item lies
over. -/
theorem Built.spells (hc : Built strategy lexer input c) (hg : g.NoGaps) (hi : c.Has i) :
    Spelled lexer input i := by
  refine hc.forall_item (P := Spelled lexer input) ?_ hi
  intro c e hb hall ha
  cases ha with
  | predicted h => exact Spelled.initial lexer input _ _
  | @joined _ _ o f ho hf ht =>
      have hd : f.dot = f.rule.length :=
        Nat.le_antisymm (hb.dot_le_length ⟨_, hf⟩) (of_decide_eq_true ht.reduced)
      exact (hall o ⟨_, ho⟩).joined (hall f ⟨_, hf⟩) (hb.start_eq_anywhere_iff ⟨_, ho⟩)
        (hb.start_eq_anywhere_iff ⟨_, hf⟩) hd ht
  | scanned ho hn hs hp hm =>
      exact (hall _ ⟨_, ho⟩).scanned hn (not_isNonterminal_of_isScannable hs) hp hm
  | scannedAnywhere ho hn hs hp hx hm =>
      exact (hall _ ⟨_, ho⟩).scannedAnywhere hn (not_isNonterminal_of_isScannable hs)
        ((hb.start_eq_anywhere_iff ⟨_, ho⟩).2 hp) hp hm
  | filled hs ho hgap hp hf hr hq hlt hle hm => exact absurd hgap (gapAt_ne_ok hg)

/-! ### Putting rules behind dots -/

/-- A finished edge behind an open one was put into it. -/
theorem Saturated.has_joined (h : Saturated strategy lexer input c) {o f : Item g.rules}
    (ho : c.Has o) (hf : c.Has f) (ht : o.Takes f) : c.Has (o.joined f) := by
  obtain ⟨n, hn⟩ := ho
  obtain ⟨m, hm⟩ := hf
  exact (h.joined n m o f hn hm ht).has

/-- The rule as a whole can be put behind a dot in front of its nonterminal. -/
theorem takes_whole {o : Item g.rules} {r' : g.RuleId} {p q : Position}
    (ht : (g.rule o.number).rhs[o.dot]? = some (.nonterminal (g.rule r').lhs))
    (hv : (g.rule o.number).operators.veto? (g.rule r').operators o.dot
      (g.rule o.number).length = none)
    (hm : o.stop = p ∨ o.stop = .anywhere ∨ p = .anywhere) :
    o.Takes ⟨r', (g.rule r').length, p, q⟩ where
  wanted := by
    show (g.rule o.number).rhs[o.dot]?.bind Symbol.nonterminal? = _
    rw [ht]
    rfl
  reduced := decide_eq_true (Nat.le_refl _)
  meets := hm
  allowed := hv

end Parser

end ChartParsing
