import ChartParsing.Proofs.Chart.Links
import ChartParsing.Proofs.Recognition.Splits

/-!
# Cycles of derivations

`Wraps` says that a nonterminal stands for another one and for nothing else over a stretch of the input,
since all other symbols of a rule vanish.  A grammar without such cycles may still be left recursive or
have empty rules.

Links of a chart lead to parts of a stretch, so a cycle of links stays over one stretch.  There every
link leads from a rule to the same rule with one symbol less, or to the whole of another rule: `Inner`.
Only the second kind can close a cycle, and it takes a rule to one that it wraps.

Main statement: **`Built.acyclic`**.  Where no nonterminal wraps itself, no edge of a chart leads back to
itself.
-/

namespace ChartParsing

namespace Parser

open Relation

variable {g : Grammar} {strategy : Strategy} {lexer : Lexer} {input : Text}
  {c : Chart g.rules} {i j : Item g.rules} {r r' : g.RuleId} {d s p e k n m : Nat}
  {a b : g.RuleId × Nat}

/-- The symbol at `d` of the rule is a nonterminal that takes nothing at this offset. -/
def Vanishes (lexer : Lexer) (input : Text) (r : g.RuleId) (d p : Nat) : Prop :=
  ∃ (r' : g.RuleId) (k : Nat), (g.rule r).rhs[d]? = some (.nonterminal (g.rule r').lhs) ∧
    (g.rule r).operators.veto? (g.rule r').operators d (g.rule r).length = none ∧
      Spells lexer input r' (g.rule r').length p p k

/-- The first nonterminal stands for the second one over this stretch of the input: a rule of it has the
second one among its symbols, all others of which take nothing. -/
inductive Wraps (g : Grammar) (lexer : Lexer) (input : Text) (s e : Nat) : String → String → Prop
  | intro {r r' : g.RuleId} {d k : Nat}
      (ht : (g.rule r).rhs[d]? = some (.nonterminal (g.rule r').lhs))
      (hv : (g.rule r).operators.veto? (g.rule r').operators d (g.rule r).length = none)
      (hc : Spells lexer input r' (g.rule r').length s e k)
      (hbefore : ∀ j < d, Vanishes lexer input r j s)
      (hafter : ∀ j, d < j → j < (g.rule r).length → Vanishes lexer input r j e) :
      Wraps g lexer input s e (g.rule r).lhs (g.rule r').lhs

/-- No nonterminal derives itself over the stretch that it takes. -/
def CycleFree (g : Grammar) (lexer : Lexer) (input : Text) : Prop :=
  ∀ s e name, ¬ TransGen (Wraps g lexer input s e) name name

/-- A grammar is free of cycles if its nonterminals can be put in an order. -/
theorem cycleFree_of_rank (rank : String → Nat) (h : ∀ r : g.RuleId,
    ∀ name ∈ (g.rule r).rhs.filterMap Symbol.nonterminal?, rank name < rank (g.rule r).lhs) :
    CycleFree g lexer input := by
  have hwraps {s e : Nat} {x y : String} (hw : Wraps g lexer input s e x y) : rank y < rank x := by
    cases hw with
    | intro ht _ _ _ _ =>
        exact h _ _ (List.mem_filterMap.2 ⟨_, List.mem_of_getElem? ht, rfl⟩)
  have hstep {s e : Nat} {x y : String} (hw : TransGen (Wraps g lexer input s e) x y) :
      rank y < rank x := by
    induction hw with
    | single hw => exact hwraps hw
    | tail _ hw ih => exact Nat.lt_trans (hwraps hw) ih
  exact fun s e name hw => Nat.lt_irrefl _ (hstep hw)

/-- What takes nothing is made up of symbols that vanish. -/
theorem Spells.vanishes (ha : Advances g lexer input) (h : Spells lexer input r d s s k) {j : Nat}
    (hj : j < d) : Vanishes lexer input r j s := by
  generalize he : s = e at h
  have hspan : Spells lexer input r d s e k := by
    rw [he]
    exact he ▸ h
  clear h
  induction hspan with
  | start _ _ => exact absurd hj (Nat.not_lt_zero j)
  | terminal h ht _ hm ih =>
      have hlt := ha _ _ (List.mem_of_getElem? ht) _ _ hm
      have hle := h.le ha
      omega
  | @nonterminal r r' d s p e k l h ht hc hv ih _ =>
      subst he
      have hle := h.le ha
      have hle' := hc.le ha
      obtain rfl : p = s := by omega
      rcases Nat.lt_succ_iff_lt_or_eq.1 hj with hj | rfl
      · exact ih hj rfl
      · exact ⟨r', l, ht, hv, hc⟩

/-! ### Links over one stretch -/

/-- A step down from the first symbols of a rule that keeps the stretch: one symbol less, if that
vanishes, or what the last symbol stands for, if the others do. -/
inductive Inner (lexer : Lexer) (input : Text) (s e : Nat) :
    g.RuleId × Nat → g.RuleId × Nat → Prop
  | base {r r' : g.RuleId} {d : Nat} (h : Splits lexer input r d s e e (some r')) :
      Inner lexer input s e (r, d + 1) (r, d)
  | child {r r' : g.RuleId} {d : Nat} (h : Splits lexer input r d s s e (some r')) :
      Inner lexer input s e (r, d + 1) (r', (g.rule r').length)

theorem Splits.le (ha : Advances g lexer input) {y : Option g.RuleId}
    (h : Splits lexer input r d s p e y) : s ≤ p ∧ p ≤ e ∧ (y = none → p < e) := by
  cases h with
  | terminal h ht _ hm he =>
      have := ha _ _ (List.mem_of_getElem? ht) _ _ hm
      exact ⟨h.le ha, by omega, fun _ => by omega⟩
  | nonterminal h _ hc _ => exact ⟨h.le ha, hc.le ha, by simp⟩

/-- A link leads to a part of the stretch, and to all of it by an inner step only. -/
theorem Built.over_of_links (hb : Built strategy lexer input c) (hg : g.NoGaps)
    (ha : Advances g lexer input) (hl : c.Links n m) (hn : c.item? n = some i) (hover : i.Over s e) :
    ∃ j s' e', c.item? m = some j ∧ j.Over s' e' ∧ s ≤ s' ∧ e' ≤ e ∧
      (s' = s → e' = e → Inner lexer input s e (i.number, i.dot) (j.number, j.dot)) := by
  obtain ⟨x, hx, δ, hδ, hm⟩ := Chart.links_iff.1 hl
  obtain ⟨z, hz, rfl⟩ := Chart.item?_eq_some.1 hn
  obtain rfl : x = z := Option.some.inj (hx.symm.trans hz)
  obtain ⟨p, y, hfound⟩ := hb.found hg hx hδ hover
  obtain ⟨d, hd, hsplit⟩ := hfound.splits hb hg
  obtain ⟨hsp, hpe, hlt⟩ := hsplit.le ha
  cases hfound with
  | @terminal base o t _ ho hn' hd' hop ht hs hm' he =>
      obtain rfl : m = base := by simpa [Derivation.links] using hm
      have hpe' := hlt rfl
      exact ⟨o, s, p, ho, hop, Nat.le_refl _, hpe, fun _ h => by omega⟩
  | @nonterminal base child o f ho hf hi hop hfe hd' ht =>
      have hm' : m = base ∨ m = child := by simpa [Derivation.links] using hm
      have hdot : o.dot = d := by
        rw [hi] at hd
        exact Nat.succ.inj hd
      have hnum : x.item.number = o.number := by
        rw [hi]
        rfl
      rw [hd, hnum]
      rw [hnum] at hsplit
      rcases hm' with rfl | rfl
      · refine ⟨o, s, p, ho, hop, Nat.le_refl _, hpe, fun _ h => ?_⟩
        subst h
        rw [hdot]
        exact .base hsplit
      · refine ⟨f, p, e, hf, hfe, hsp, Nat.le_refl _, fun h _ => ?_⟩
        subst h
        have hlen : f.dot = (g.rule f.number).length := hd'
        rw [hlen]
        exact .child hsplit

/-- The same for chains of links. -/
theorem Built.over_of_chain (hb : Built strategy lexer input c) (hg : g.NoGaps)
    (ha : Advances g lexer input) (hl : TransGen c.Links n m) (hn : c.item? n = some i)
    (hover : i.Over s e) : ∃ j s' e', c.item? m = some j ∧ j.Over s' e' ∧ s ≤ s' ∧ e' ≤ e ∧
      (s' = s → e' = e → TransGen (Inner lexer input s e) (i.number, i.dot) (j.number, j.dot)) := by
  induction hl with
  | single hl =>
      obtain ⟨j, s', e', hj, hover', hs, he, hinner⟩ := hb.over_of_links hg ha hl hn hover
      exact ⟨j, s', e', hj, hover', hs, he, fun h h' => .single (hinner h h')⟩
  | tail _ hl ih =>
      obtain ⟨j, s', e', hj, hover', hs, he, hinner⟩ := ih
      obtain ⟨j', s'', e'', hj', hover'', hs', he', hinner'⟩ := hb.over_of_links hg ha hl hj hover'
      refine ⟨j', s'', e'', hj', hover'', by omega, by omega, fun h h' => ?_⟩
      obtain ⟨rfl, rfl⟩ : s' = s ∧ e' = e := ⟨by omega, by omega⟩
      exact (hinner rfl rfl).tail (hinner' h h')

/-! ### Cycles of inner steps -/

/-- From the whole of a rule inner steps lead to beginnings of this rule or of one that it wraps, whose
other symbols all vanish. -/
structure Wrapped (lexer : Lexer) (input : Text) (s e : Nat) (r : g.RuleId) (b : g.RuleId × Nat) :
    Prop where
  rest : ∀ j, b.2 ≤ j → j < (g.rule b.1).length → Vanishes lexer input b.1 j e
  below : b.1 = r ∧ b.2 < (g.rule r).length ∨
    TransGen (Wraps g lexer input s e) (g.rule r).lhs (g.rule b.1).lhs

theorem vanishes_of_splits (h : Splits lexer input r d s e e (some r')) :
    Vanishes lexer input r d e := by
  cases h with
  | nonterminal _ ht hc hv => exact ⟨r', _, ht, hv, hc⟩

theorem wraps_of_splits (ha : Advances g lexer input) (h : Splits lexer input r d s s e (some r'))
    (hrest : ∀ j, d + 1 ≤ j → j < (g.rule r).length → Vanishes lexer input r j e) :
    Wraps g lexer input s e (g.rule r).lhs (g.rule r').lhs := by
  cases h with
  | nonterminal h ht hc hv => exact .intro ht hv hc (fun j hj => h.vanishes ha hj) hrest

theorem Wrapped.step (ha : Advances g lexer input) {b' : g.RuleId × Nat}
    (hb : Wrapped lexer input s e r b) (h : Inner lexer input s e b b') :
    Wrapped lexer input s e r b' := by
  cases h with
  | base h =>
      refine ⟨fun j hj hlen => ?_, hb.below.imp_left (fun ⟨hr, hlt⟩ => ⟨hr, Nat.lt_of_succ_lt hlt⟩)⟩
      rcases Nat.eq_or_lt_of_le hj with rfl | hlt
      · exact vanishes_of_splits h
      · exact hb.rest j hlt hlen
  | @child q q' d h =>
      have hw := wraps_of_splits ha h hb.rest
      refine ⟨fun j hj hlen => absurd hj (Nat.not_le_of_lt hlen), .inr ?_⟩
      rcases hb.below with ⟨rfl, -⟩ | hb
      · exact .single hw
      · exact hb.tail hw

theorem wrapped_of_inner (ha : Advances g lexer input)
    (h : TransGen (Inner lexer input s e) (r, (g.rule r).length) b) :
    Wrapped lexer input s e r b := by
  induction h with
  | single h =>
      generalize hz : (r, (g.rule r).length) = z at h
      cases h with
      | base h =>
          obtain ⟨rfl, hd⟩ := Prod.mk.inj hz
          refine ⟨fun j hj hlen => ?_, .inl ⟨rfl, by dsimp only; omega⟩⟩
          dsimp only at hj hlen
          obtain rfl : j = _ := Nat.le_antisymm (by omega) hj
          exact vanishes_of_splits h
      | child h =>
          obtain ⟨rfl, hd⟩ := Prod.mk.inj hz
          refine ⟨fun j hj hlen => absurd hj (Nat.not_le_of_lt hlen), .inr (.single ?_)⟩
          exact wraps_of_splits ha h (fun j hj hlen => absurd hlen (by omega))
  | tail _ h ih => exact ih.step ha h

/-- Inner steps shorten the beginning of one rule, or lead through the whole of another one. -/
theorem inner_cases (h : TransGen (Inner lexer input s e) a b) : b.1 = a.1 ∧ b.2 < a.2 ∨
    ∃ r : g.RuleId, TransGen (Inner lexer input s e) a (r, (g.rule r).length) ∧
      ReflTransGen (Inner lexer input s e) (r, (g.rule r).length) b := by
  induction h with
  | single h =>
      cases h with
      | base h => exact .inl ⟨rfl, Nat.lt_succ_self _⟩
      | child h => exact .inr ⟨_, .single (.child h), .refl⟩
  | tail hab h ih =>
      cases h with
      | base h =>
          rcases ih with ⟨hr, hlt⟩ | ⟨r, hr, hr'⟩
          · exact .inl ⟨hr, Nat.lt_of_succ_lt hlt⟩
          · exact .inr ⟨r, hr, hr'.tail (.base h)⟩
      | child h => exact .inr ⟨_, hab.tail (.child h), .refl⟩

/-- **No cycle of inner steps**, where no nonterminal wraps itself. -/
theorem inner_irrefl (ha : Advances g lexer input) (hf : CycleFree g lexer input) :
    ¬ TransGen (Inner lexer input s e) a a := by
  intro h
  rcases inner_cases h with ⟨-, hlt⟩ | ⟨r, har, hra⟩
  · exact Nat.lt_irrefl _ hlt
  · have hcycle : TransGen (Inner lexer input s e) (r, (g.rule r).length) (r, (g.rule r).length) :=
      TransGen.trans_right hra har
    rcases (wrapped_of_inner ha hcycle).below with ⟨-, hlt⟩ | hw
    · exact Nat.lt_irrefl _ hlt
    · exact hf s e _ hw

/-- Every edge lies over a stretch of which it takes no smaller part. -/
theorem Built.exists_over (hb : Built strategy lexer input c) (hi : c.Has i) :
    ∃ s e, i.Over s e ∧ ∀ s' e', i.Over s' e' → s ≤ s' → e' ≤ e → s' = s ∧ e' = e := by
  have hspan := hb.start_eq_anywhere_iff hi
  cases hs : i.start with
  | anywhere =>
      -- an edge without a place is looked at over an empty stretch
      refine ⟨0, 0, .inr ⟨hs, hspan.1 hs, rfl⟩, fun s' e' h _ he => ?_⟩
      rcases h with ⟨h, -⟩ | ⟨-, -, rfl⟩
      · exact absurd (hs.symm.trans h) (by simp)
      · omega
  | offset s =>
      cases he : i.stop with
      | anywhere => exact absurd (hs.symm.trans (hspan.2 he)) (by simp)
      | offset e => exact ⟨s, e, .inl ⟨hs, he⟩, fun s' e' h _ _ => (over_offset hs he).1 h⟩

/-- **No edge leads back to itself**, where no nonterminal wraps itself. -/
theorem Built.acyclic (hb : Built strategy lexer input c) (hg : g.NoGaps)
    (ha : Advances g lexer input) (hf : CycleFree g lexer input) : ¬ TransGen c.Links n n := by
  intro h
  obtain ⟨m, hm, -⟩ := TransGen.head'_iff.1 h
  obtain ⟨x, hx, -⟩ := Chart.links_iff.1 hm
  have hn : c.item? n = some x.item := Chart.item?_eq_some.2 ⟨x, hx, rfl⟩
  obtain ⟨s, e, hover, hpart⟩ := hb.exists_over ⟨n, hn⟩
  obtain ⟨j, s', e', hj, hover', hs, he, hinner⟩ := hb.over_of_chain hg ha h hn hover
  obtain rfl : x.item = j := Option.some.inj (hn.symm.trans hj)
  obtain ⟨hs', he'⟩ := hpart s' e' hover' hs he
  exact inner_irrefl ha hf (hinner hs' he')

end Parser

end ChartParsing
