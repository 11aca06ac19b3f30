import ChartParsing.Proofs.Recognition.BottomUp
import ChartParsing.Proofs.Recognition.TopDown

/-!
# Splitting what a rule spells

What the symbols left of a dot spell can be split in front of the last one of them: `Splits` says where,
and which rule the last symbol stands for if it is a nonterminal.  `Found` says the same of a derivation
of an edge.  An edge without a place has a stretch only where it is used, so both speak of an edge over a
stretch.

* **`Built.found`** and **`Found.splits`**: every derivation of a chart without gaps is found at a split.
* **`Parsed.exists_found_topDown`**: top down there is a derivation for each split.
* **`Parsed.exists_found_bottomUp`**: bottom up there is one for each split of a stretch that is not
  empty in front of a nonterminal.
-/

namespace ChartParsing

namespace Parser

variable {g : Grammar} {strategy : Strategy} {lexer : Lexer} {input : Text}
  {c : Chart g.rules} {i o f : Item g.rules} {r : g.RuleId} {d s p q e k l n : Nat}
  {δ : Derivation} {y y' : Option g.RuleId} {x : Edge g.rules}

/-! ### Terminals that take something -/

/-- Whatever the lexer accepts for a terminal of the grammar takes some of the input. -/
def Advances (g : Grammar) (lexer : Lexer) (input : Text) : Prop :=
  ∀ r : g.RuleId, ∀ t ∈ (g.rule r).rhs, ∀ p m, lexer t input p = some m → p < m.stop

theorem NoEmptyMatches.advances (h : NoEmptyMatches g input) :
    Advances g .skippingBlanks input := by
  intro r t ht p m hm
  obtain ⟨m₀, hm₀, hle⟩ := Lexer.skippingBlanks_eq_some hm
  have hne := h r t ht p m₀ hm₀
  have hstop := (Symbol.stop_of_matchAt? hm₀).1
  omega

/-- What a rule spells ends behind its start, if there is a terminal in it, and else where it starts. -/
theorem Spells.le_and_lt (hg : Advances g lexer input) (h : Spells lexer input r d s e k) :
    s ≤ e ∧ (0 < k → s < e) := by
  induction h with
  | start r s => exact ⟨Nat.le_refl _, fun h => absurd h (Nat.lt_irrefl 0)⟩
  | terminal _ ht _ hm ih =>
      have hlt := hg _ _ (List.mem_of_getElem? ht) _ _ hm
      have hle := ih.1
      exact ⟨by omega, fun _ => by omega⟩
  | @nonterminal _ _ _ _ _ _ k l _ _ _ _ ih ih' =>
      obtain ⟨h₁, h₁'⟩ := ih
      obtain ⟨h₂, h₂'⟩ := ih'
      refine ⟨by omega, fun hk => ?_⟩
      rcases Nat.eq_zero_or_pos k with rfl | hpos
      · have := h₂' (by omega)
        omega
      · have := h₁' hpos
        omega

theorem Spells.le (hg : Advances g lexer input) (h : Spells lexer input r d s e k) : s ≤ e :=
  (h.le_and_lt hg).1

/-- What takes nothing needs no terminal. -/
theorem Spells.eq_zero (hg : Advances g lexer input) (h : Spells lexer input r d s s k) : k = 0 := by
  have hlt := (h.le_and_lt hg).2
  by_contra hk
  exact Nat.lt_irrefl s (hlt (Nat.pos_of_ne_zero hk))

theorem Spells.pos (h : Spells lexer input r d s e k) (hlt : s < e) : 0 < k := by
  rcases Nat.eq_zero_or_pos k with rfl | hk
  · exact absurd h.eq_of_zero (Nat.ne_of_lt hlt)
  · exact hk

/-! ### Splits -/

/-- The first `d + 1` symbols of the rule spell a stretch so that the last of them starts at `p`.  It is
a terminal, or a nonterminal for which the given rule stands. -/
inductive Splits (lexer : Lexer) (input : Text) (r : g.RuleId) (d s p e : Nat) :
    Option g.RuleId → Prop
  | terminal {k : Nat} {t : Symbol} {m : Match} (h : Spells lexer input r d s p k)
      (ht : (g.rule r).rhs[d]? = some t) (hn : t.isNonterminal = false)
      (hm : lexer t input p = some m) (he : m.stop = e) : Splits lexer input r d s p e none
  | nonterminal {k l : Nat} {r' : g.RuleId} (h : Spells lexer input r d s p k)
      (ht : (g.rule r).rhs[d]? = some (.nonterminal (g.rule r').lhs))
      (hc : Spells lexer input r' (g.rule r').length p e l)
      (hv : (g.rule r).operators.veto? (g.rule r').operators d (g.rule r).length = none) :
      Splits lexer input r d s p e (some r')

/-- The derivation of an edge with this item was found at a split of the stretch that the item lies
over. -/
inductive Found (lexer : Lexer) (input : Text) (c : Chart g.rules) (i : Item g.rules) (s p e : Nat) :
    Derivation → Option g.RuleId → Prop
  | terminal {base : Nat} {o : Item g.rules} {t : Symbol} {m : Match} (ho : c.item? base = some o)
      (hn : o.number = i.number) (hd : o.dot + 1 = i.dot) (hover : o.Over s p)
      (ht : o.next? = some t) (hs : t.isNonterminal = false) (hm : lexer t input p = some m)
      (he : m.stop = e) : Found lexer input c i s p e ⟨some base, none, some m.texts⟩ none
  | nonterminal {base child : Nat} {o f : Item g.rules} (ho : c.item? base = some o)
      (hf : c.item? child = some f) (hi : i = o.joined f) (hover : o.Over s p) (hover' : f.Over p e)
      (hd : f.dot = f.rule.length) (ht : o.Takes f) :
      Found lexer input c i s p e ⟨some base, some child, none⟩ (some f.number)

theorem over_offset {p q : Nat} (hs : i.start = .offset p) (he : i.stop = .offset q) :
    i.Over s e ↔ s = p ∧ e = q := by
  unfold Item.Over
  rw [hs, he]
  simp only [Position.offset.injEq, reduceCtorEq, false_and, or_false]
  constructor
  · rintro ⟨rfl, rfl⟩
    exact ⟨rfl, rfl⟩
  · rintro ⟨rfl, rfl⟩
    exact ⟨rfl, rfl⟩

/-- **Every derivation is found at a split** of each stretch that its edge lies over. -/
theorem Built.found (hc : Built strategy lexer input c) (hg : g.NoGaps) (hx : c.edge? n = some x)
    (hδ : δ ∈ x.derivations) (hover : x.item.Over s e) :
    ∃ p y, Found lexer input c x.item s p e δ y := by
  have ha := hc.addition hx hδ
  generalize hz : (⟨x.item, [δ]⟩ : Edge g.rules) = z at ha
  have hi : x.item = z.item := by rw [← hz]
  have hd : [δ] = z.derivations := by rw [← hz]
  rw [hi] at hover ⊢
  cases ha with
  | predicted _ => exact absurd hd (by simp)
  | @joined base child o f ho hf ht =>
      obtain rfl : δ = ⟨some base, some child, none⟩ := by simpa using hd
      obtain ⟨p, hop, hfp⟩ := over_of_joined (hc.start_eq_anywhere_iff ⟨_, ho⟩)
        (hc.start_eq_anywhere_iff ⟨_, hf⟩) ht.meets hover
      have hwhole : f.dot = f.rule.length :=
        Nat.le_antisymm (hc.dot_le_length ⟨_, hf⟩) (of_decide_eq_true ht.reduced)
      exact ⟨p, _, .nonterminal ho hf rfl hop hfp hwhole ht⟩
  | @scanned base o t p m ho hn hs hp hm =>
      obtain rfl : δ = ⟨some base, none, some m.texts⟩ := by simpa using hd
      have hsp : o.start = .offset s ∧ m.stop = e := by
        rcases hover with ⟨h, h'⟩ | ⟨-, h', -⟩
        · exact ⟨h, Position.offset.inj h'⟩
        · exact absurd h' (by simp [Item.step])
      exact ⟨p, none, .terminal ho rfl rfl (.inl ⟨hsp.1, hp⟩) hn
        (not_isNonterminal_of_isScannable hs) hm hsp.2⟩
  | @scannedAnywhere base o t w m ho hn hs hp hw hm =>
      obtain rfl : δ = ⟨some base, none, some m.texts⟩ := by simpa using hd
      obtain ⟨rfl, rfl⟩ : s = w.start ∧ e = m.stop := (over_offset rfl rfl).1 hover
      have hfloat := (hc.start_eq_anywhere_iff ⟨_, ho⟩).2 hp
      exact ⟨w.start, none, .terminal ho rfl rfl (.inr ⟨hfloat, hp, rfl⟩) hn
        (not_isNonterminal_of_isScannable hs) hm rfl⟩
  | filled _ _ hgap _ _ _ _ _ _ _ => exact absurd hgap (gapAt_ne_ok hg)

/-- **What a derivation was found at is a split.** -/
theorem Found.splits (h : Found lexer input c i s p e δ y) (hc : Built strategy lexer input c)
    (hg : g.NoGaps) : ∃ d, i.dot = d + 1 ∧ Splits lexer input i.number d s p e y := by
  cases h with
  | @terminal base o t m ho hn hd hover ht hs hm he =>
      obtain ⟨k, hk, -⟩ := hc.spells hg ⟨_, ho⟩ s p hover
      rw [hn] at hk
      have ht' : (g.rule i.number).rhs[o.dot]? = some t := by
        rw [← hn]
        exact ht
      exact ⟨o.dot, hd.symm, .terminal hk ht' hs hm he⟩
  | @nonterminal base child o f ho hf hi hover hover' hd ht =>
      subst hi
      obtain ⟨k, hk, -⟩ := hc.spells hg ⟨_, ho⟩ s p hover
      obtain ⟨l, hl, -⟩ := hc.spells hg ⟨_, hf⟩ p e hover'
      rw [hd] at hl
      exact ⟨o.dot, rfl, .nonterminal hk (next?_of_wanted? ht.wanted) hl ht.allowed⟩

theorem Found.splits_of_dot (h : Found lexer input c i s p e δ y) (hc : Built strategy lexer input c)
    (hg : g.NoGaps) (hd : i.dot = d + 1) : Splits lexer input i.number d s p e y := by
  obtain ⟨d', hd', hsplit⟩ := h.splits hc hg
  obtain rfl : d = d' := Nat.succ.inj (hd.symm.trans hd')
  exact hsplit

/-- A derivation is found at one split only. -/
theorem Found.unique (h : Found lexer input c i s p e δ y) (h' : Found lexer input c i s q e δ y') :
    p = q ∧ y = y' := by
  generalize hz : δ = z at h'
  cases h with
  | terminal ho hn hd hover ht hs hm he =>
      cases h' with
      | terminal ho' hn' hd' hover' ht' hs' hm' he' =>
          obtain rfl := Option.some.inj (Derivation.mk.inj hz).1
          obtain rfl := Option.some.inj (ho.symm.trans ho')
          exact ⟨hover.stop_unique hover', rfl⟩
      | nonterminal _ _ _ _ _ _ _ => exact absurd hz (by simp)
  | nonterminal ho hf hi hover hc hd ht =>
      cases h' with
      | terminal _ _ _ _ _ _ _ _ => exact absurd hz (by simp)
      | nonterminal ho' hf' hi' hover' hc' hd' ht' =>
          obtain ⟨hbase, hchild, -⟩ := Derivation.mk.inj hz
          obtain rfl := Option.some.inj hbase
          obtain rfl := Option.some.inj hchild
          obtain rfl := Option.some.inj (ho.symm.trans ho')
          obtain rfl := Option.some.inj (hf.symm.trans hf')
          exact ⟨hover.stop_unique hover', rfl⟩

/-! ### Derivations for splits -/

/-- The number of an edge and its derivations are those of its item. -/
theorem exists_of_records (hw : c.WellFormed) (hx : c.edge? n = some x) {base : Nat}
    {child : Option Nat} (h : c.Records x.item base child) :
    ∃ δ ∈ x.derivations, δ.base = some base ∧ δ.child = child := by
  obtain ⟨m, z, hz, hi, δ, hδ, hb, hc⟩ := h
  obtain rfl : m = n := hw.unique m n x.item (Chart.item?_eq_some.2 ⟨z, hz, hi⟩)
    (Chart.item?_eq_some.2 ⟨x, hx, rfl⟩)
  obtain rfl : z = x := Option.some.inj (hz.symm.trans hx)
  exact ⟨δ, hδ, hb, hc⟩

/-- A finished edge that lies behind an open one, with the edge that comes of them. -/
theorem Parsed.exists_found_of_takes (hc : Parsed strategy lexer input c) (hx : c.edge? n = some x)
    (ho : c.Has o) (hf : c.Has f) (ht : o.Takes f) (hi : x.item = o.joined f) (hop : o.Over s p)
    (hfe : f.Over p e) (hover : x.item.Over s e) :
    ∃ δ ∈ x.derivations, Found lexer input c x.item s p e δ (some f.number) := by
  obtain ⟨a, ha⟩ := ho
  obtain ⟨b, hb'⟩ := hf
  have hrec := hc.joined a b o f ha hb' ht
  rw [← hi] at hrec
  obtain ⟨δ, hδ, hδa, hδb⟩ := exists_of_records hc.wellFormed hx hrec
  obtain ⟨q, y, hfound⟩ := hc.built.found hc.noGaps hx hδ hover
  have hwhole : f.dot = f.rule.length :=
    Nat.le_antisymm (hc.built.dot_le_length ⟨_, hb'⟩) (of_decide_eq_true ht.reduced)
  have hsame : Found lexer input c x.item s p e ⟨some a, some b, none⟩ (some f.number) :=
    .nonterminal ha hb' hi hop hfe hwhole ht
  refine ⟨δ, hδ, ?_⟩
  cases hfound with
  | terminal _ _ _ _ _ _ _ _ => exact absurd hδb (by simp)
  | nonterminal _ _ _ _ _ _ _ =>
      obtain rfl := Option.some.inj hδa
      obtain rfl := Option.some.inj hδb
      exact hsame

/-- What was recorded of an edge in front of a terminal was found where this edge ends. -/
theorem Parsed.exists_found_of_scanned (hc : Parsed strategy lexer input c) (hx : c.edge? n = some x)
    {a : Nat} (ha : c.item? a = some o) (hop : o.Over s p) (hover : x.item.Over s e)
    (hrec : c.Records x.item a none) :
    ∃ δ ∈ x.derivations, δ.base = some a ∧ δ.child = none ∧
      Found lexer input c x.item s p e δ none := by
  obtain ⟨δ, hδ, hδa, hδb⟩ := exists_of_records hc.wellFormed hx hrec
  obtain ⟨q, y, hfound⟩ := hc.built.found hc.noGaps hx hδ hover
  refine ⟨δ, hδ, hδa, hδb, ?_⟩
  have hsame := hfound
  cases hfound with
  | @terminal base o' t' m' ho hn' hd hop' ht' hs' hm' he' =>
      obtain rfl := Option.some.inj hδa
      obtain rfl := Option.some.inj (ha.symm.trans ho)
      obtain rfl := hop.stop_unique hop'
      exact hsame
  | nonterminal _ _ _ _ _ _ _ => exact absurd hδb (by simp)

/-- **Top down there is a derivation for each split.** -/
theorem Parsed.exists_found_topDown (hc : Parsed .topDown lexer input c) (hx : c.edge? n = some x)
    (hi : x.item = ⟨r, d + 1, .offset s, .offset e⟩) (h : Splits lexer input r d s p e y) :
    ∃ δ ∈ x.derivations, Found lexer input c x.item s p e δ y := by
  have hinit : c.Has (.initial r (.offset s)) := by
    have := hc.built.has_initial ⟨n, Chart.item?_eq_some.2 ⟨x, hx, rfl⟩⟩
    rwa [hi] at this
  have hover : x.item.Over s e := .inl (by rw [hi]; exact ⟨rfl, rfl⟩)
  cases h with
  | @terminal k t m h ht hn hm he =>
      subst he
      obtain ⟨a, ha⟩ := hc.has_of_spells hc.noGaps rfl h hinit
      have hrec := (hc.handled a _ ha).scanned t ht (hc.noGaps.isScannable ht hn) p rfl m hm
      have hrec' : c.Records x.item a none := by
        rw [hi]
        exact hrec
      obtain ⟨δ, hδ, -, -, hfound⟩ := hc.exists_found_of_scanned hx ha (.inl ⟨rfl, rfl⟩) hover hrec'
      exact ⟨δ, hδ, hfound⟩
  | @nonterminal k l r' h ht hs hv =>
      have ho := hc.has_of_spells hc.noGaps rfl h hinit
      have htakes : Item.Takes ⟨r, d, .offset s, .offset p⟩
          ⟨r', (g.rule r').length, .offset p, .offset e⟩ := takes_whole ht hv (.inl rfl)
      obtain ⟨a, ha⟩ := ho
      have hinit' : c.Has (.initial r' (.offset p)) :=
        (hc.handled a _ ha).wanted rfl _ htakes.wanted r' (Grammar.mem_rulesFor.2 rfl)
      have hf := hc.has_of_spells hc.noGaps rfl hs hinit'
      exact hc.exists_found_of_takes hx ⟨a, ha⟩ hf htakes hi (.inl ⟨rfl, rfl⟩)
        (.inl ⟨rfl, rfl⟩) hover

/-- **Bottom up there is a derivation for each split** of a stretch that is not empty in front of a
nonterminal. -/
theorem Parsed.exists_found_bottomUp (hc : Parsed strategy .skippingBlanks input c)
    (hu : strategy.isBottomUp = true) (he : NoEmptyMatches g input)
    (hx : c.edge? n = some x) (hi : x.item = ⟨r, d + 1, .offset s, .offset e⟩) (hlt : s < e)
    {r' : g.RuleId} (h : Splits .skippingBlanks input r d s p e (some r')) :
    ∃ δ ∈ x.derivations, Found .skippingBlanks input c x.item s p e δ (some r') := by
  have hover : x.item.Over s e := .inl (by rw [hi]; exact ⟨rfl, rfl⟩)
  cases h with
  | @nonterminal k l _ h ht hs hv =>
      have hbase := hc.has_of_spells_bottomUp hu hc.noGaps he h
      have hchild := hc.has_of_spells_bottomUp hu hc.noGaps he hs
      rcases Nat.eq_zero_or_pos l with rfl | hl
      · have hf := hchild.floating rfl List.eq_nil_of_length_eq_zero
        obtain rfl := hs.eq_of_zero
        have ho := hbase.anchored (h.pos hlt)
        exact hc.exists_found_of_takes hx ho hf (takes_whole ht hv (.inr (.inr rfl))) hi
          (.inl ⟨rfl, rfl⟩) (.inr ⟨rfl, rfl, rfl⟩) hover
      · have hf := hchild.anchored hl
        rcases Nat.eq_zero_or_pos k with rfl | hk
        · obtain rfl := h.eq_of_zero
          rcases Nat.eq_zero_or_pos d with rfl | hd
          · exact hc.exists_found_of_takes hx (hc.has_initial hu ht hf) hf
              (takes_whole ht hv (.inl rfl)) hi (.inl ⟨rfl, rfl⟩) (.inl ⟨rfl, rfl⟩) hover
          · exact hc.exists_found_of_takes hx
              (hbase.floating rfl (fun h => absurd h (Nat.ne_of_gt hd))) hf
              (takes_whole ht hv (.inr (.inl rfl))) hi (.inr ⟨rfl, rfl, rfl⟩) (.inl ⟨rfl, rfl⟩) hover
        · exact hc.exists_found_of_takes hx (hbase.anchored hk) hf
            (takes_whole ht hv (.inl rfl)) hi (.inl ⟨rfl, rfl⟩) (.inl ⟨rfl, rfl⟩) hover

end Parser

end ChartParsing
