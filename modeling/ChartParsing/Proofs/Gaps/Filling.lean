import ChartParsing.Proofs.Parsing.Justification

/-!
# Filling gaps

A gap edge is one in front of a gap.  Its gap is to be filled up to each of its targets: the places within
reach where finished edges start for the nonterminal behind the gap.

* **`process_adds`**: the turn of another edge moves no gap edge.
* **`fillGap_records`**: filling moves a gap edge to its targets where the gap accepts the text between,
  and nowhere else.
* **`fillGaps_records`**: filling the gaps of several edges does this for each of them.  The targets are
  those from before: no edge that comes of a gap is finished, since a nonterminal follows.
-/

namespace ChartParsing

variable {rules : Array Rule}

namespace Chart

variable {P Q : Nat → Item rules → Item rules → Prop} {c c' c'' : Chart rules} {n : Nat}
  {i : Item rules} {child : Option Nat}

/-! ### Derivations by what they are based on -/

/-- The second chart has all of the first one, and every derivation that it has beyond that leads from an
edge to an item as `P` says. -/
structure Adds (P : Nat → Item rules → Item rules → Prop) (c c' : Chart rules) : Prop where
  grown : c.Extends c'
  based : ∀ m e', c'.edge? m = some e' → ∀ d ∈ e'.derivations,
    (∃ e, c.edge? m = some e ∧ d ∈ e.derivations) ∨
      ∃ b o, d.base = some b ∧ c'.item? b = some o ∧ P b o e'.item

/-- No derivation is based on the edge. -/
def Unmoved (c : Chart rules) (n : Nat) : Prop :=
  ∀ m e, c.edge? m = some e → ∀ d ∈ e.derivations, d.base ≠ some n

theorem Adds.refl (c : Chart rules) : Adds P c c where
  grown := .refl c
  based _ e he _ hd := .inl ⟨e, he, hd⟩

theorem Adds.of_edges (h : c'.edges = c.edges) : Adds P c c' where
  grown := .of_edges h
  based m e he _ hd := .inl ⟨e, by rw [← he, edge?, edge?, h], hd⟩

theorem Adds.trans (h : Adds P c c') (h' : Adds P c' c'') : Adds P c c'' where
  grown := h.grown.trans h'.grown
  based := by
    intro m e'' he'' d hd
    rcases h'.based m e'' he'' d hd with ⟨e', he', hd'⟩ | hnew
    · rcases h.based m e' he' d hd' with hold | ⟨b, o, hb, ho, hP⟩
      · exact .inl hold
      · obtain ⟨x, hx, hi, -⟩ := h'.grown m e' he'
        obtain rfl := Option.some.inj (hx.symm.trans he'')
        exact .inr ⟨b, o, hb, h'.grown.item ho, hi ▸ hP⟩
    · exact .inr hnew

theorem Adds.mono (h : Adds P c c') (hPQ : ∀ b o i, P b o i → Q b o i) : Adds Q c c' where
  grown := h.grown
  based := by
    intro m e' he' d hd
    rcases h.based m e' he' d hd with hold | ⟨b, o, hb, ho, hP⟩
    · exact .inl hold
    · exact .inr ⟨b, o, hb, ho, hPQ b o _ hP⟩

theorem Adds.add {e : Edge rules} (place : Destination)
    (h : ∀ d ∈ e.derivations, ∃ b o, d.base = some b ∧ c.item? b = some o ∧ P b o e.item) :
    Adds P c (c.add e place).1 where
  grown := extends_add c e place
  based := by
    have hnew (d : Derivation) (hd : d ∈ e.derivations) :
        ∃ b o, d.base = some b ∧ (c.add e place).1.item? b = some o ∧ P b o e.item := by
      obtain ⟨b, o, hb, ho, hP⟩ := h d hd
      exact ⟨b, o, hb, (extends_add c e place).item ho, hP⟩
    intro m e' he' d hd
    rcases edge?_add he' with hold | rfl | ⟨old, ho, hi, rfl⟩
    · exact .inl ⟨e', hold, hd⟩
    · exact .inr (hnew d hd)
    · rcases Edge.mem_learnAll hd with hd | hd
      · exact .inl ⟨old, ho, hd⟩
      · rw [Edge.learnAll_item, hi]
        exact .inr (hnew d hd)

theorem Adds.foldl {α : Type} {step : Chart rules → α → Chart rules} {list : List α}
    (h : ∀ c'' a, a ∈ list → c.Extends c'' → Adds P c'' (step c'' a)) :
    Adds P c (list.foldl step c) := by
  refine (foldl_spec (Adds P c) (fun _ _ => True) (fun c'' a ha hc => ?_) (by simp) (.refl c)).1
  have hstep := h c'' a ha hc.grown
  exact ⟨hc.trans hstep, hstep.grown, trivial⟩

theorem scan_adds {stop : Position} {texts : List String} {start : Option Position} {o : Item rules}
    (ho : c.item? n = some o) (hP : P n o (o.step (start.getD o.start) stop)) :
    Adds P c (c.scan n stop texts start).1 := by
  rw [scan_of_item ho]
  refine .add .agenda (fun d hd => ?_)
  obtain rfl := List.mem_singleton.1 hd
  exact ⟨n, o, rfl, ho, hP⟩

/-- An edge on which nothing new is based stays unmoved. -/
theorem Adds.unmoved (h : Adds P c c') (hn : ∀ o i, c'.item? n = some o → ¬ P n o i)
    (hc : c.Unmoved n) : c'.Unmoved n := by
  intro m e' he' d hd hb
  rcases h.based m e' he' d hd with ⟨e, he, hd'⟩ | ⟨b, o, hb', ho, hP⟩
  · exact hc m e he d hd' hb
  · obtain rfl := Option.some.inj (hb'.symm.trans hb)
    exact hn o _ ho hP

/-- Where an edge was moved to stays the same, if nothing new is based on it. -/
theorem Adds.records_iff (h : Adds P c c') (hn : ∀ o i, c'.item? n = some o → ¬ P n o i) :
    c'.Records i n child ↔ c.Records i n child := by
  refine ⟨?_, h.grown.records⟩
  rintro ⟨m, e', he', hi, d, hd, hb, hch⟩
  rcases h.based m e' he' d hd with ⟨e, he, hd'⟩ | ⟨b, o, hb', ho, hP⟩
  · obtain ⟨x, hx, hitem, -⟩ := h.grown m e he
    obtain rfl := Option.some.inj (hx.symm.trans he')
    exact ⟨m, e, he, hitem ▸ hi, d, hd', hb, hch⟩
  · obtain rfl := Option.some.inj (hb'.symm.trans hb)
    exact absurd hP (hn o _ ho)

end Chart

namespace Parser

variable {g : Grammar} {strategy : Strategy} {lexer : Lexer} {input : Text}
  {c c' : Chart g.rules} {i o : Item g.rules} {n : Nat} {gap : Gap} {name : String} {p q s : Nat}

/-! ### The turns of other edges -/

theorem not_isAtGap_of_wanted? (h : o.wanted? = some name) : o.isAtGap = false := by
  simp [Item.isAtGap, next?_of_wanted? h, Symbol.isGap, Symbol.kind]

theorem not_isAtGap_of_isScannable {s : Symbol} (hn : o.next? = some s)
    (hs : s.isScannable = true) : o.isAtGap = false := by
  rw [Symbol.isScannable, Bool.and_eq_true] at hs
  have hgap : s.isGap = false := by simpa using hs.2
  simp [Item.isAtGap, hn, hgap]

/-- The base is not in front of a gap. -/
def NotAtGap (_ : Nat) (o _ : Item g.rules) : Prop := o.isAtGap = false

theorem predictAll_adds {P : Nat → Item g.rules → Item g.rules → Prop} (place : Position)
    (numbers : List g.RuleId) : Chart.Adds P c (predictAll place c numbers) :=
  .foldl (fun _ _ _ _ => .add .agenda (by simp))

theorem advance_adds {base child : Nat} (ho : c.item? base = some o) (hg : o.isAtGap = false) :
    Chart.Adds NotAtGap c (c.advance base child).1 := by
  cases hf : c.item? child with
  | none =>
      have : (c.advance base child).1 = c := by simp [Chart.advance, ho, hf]
      rw [this]
      exact .refl c
  | some f =>
      by_cases hv : Chart.veto? o f = none
      · rw [Chart.advance_of_allowed ho hf hv]
        refine .add .agenda (fun d hd => ?_)
        obtain rfl := List.mem_singleton.1 hd
        exact ⟨base, o, rfl, ho, hg⟩
      · rw [Chart.advance_of_vetoed ho hf hv]
        exact .refl c

theorem complete_adds (strategy : Strategy) (c : Chart g.rules) (n : Nat) :
    Chart.Adds NotAtGap c (complete strategy c n) := by
  unfold complete
  split
  · exact .refl c
  · next i hi =>
      have h₁ : Chart.Adds NotAtGap c (if strategy.isBottomUp then
          predictAll i.start c (g.rulesStartingWith i.lhs) else c) := by
        split
        · exact predictAll_adds _ _
        · exact .refl c
      refine h₁.trans (.foldl (fun c'' base hb hext => ?_))
      obtain ⟨o, ho, hw, -⟩ := mem_waitingFor.1 hb
      exact advance_adds (hext.item ho) (not_isAtGap_of_wanted? hw)

theorem predict_adds (strategy : Strategy) (hi : c.item? n = some i) :
    Chart.Adds NotAtGap c (predict strategy c n) := by
  unfold predict
  rw [hi]
  dsimp only
  split
  · exact .refl c
  · next name hw =>
      have hpredict (b : Bool) (c : Chart g.rules) (numbers : List g.RuleId) :
          Chart.Adds NotAtGap c (if b then predictAll i.stop c numbers else c) := by
        cases b with
        | false => exact .refl c
        | true => exact predictAll_adds _ _
      have h₁ := hpredict strategy.predictsWanted c (g.rulesFor name)
      have h₂ := h₁.trans (hpredict strategy.isBottomUp _ (g.emptyRulesFor name))
      refine h₂.trans (.foldl (fun c'' child _ hext => ?_))
      exact advance_adds (hext.item (h₂.grown.item hi)) (not_isAtGap_of_wanted? hw)

theorem scan_adds (lexer : Lexer) (input : Text) (hi : c.item? n = some i)
    (hg : i.isAtGap = false) : Chart.Adds NotAtGap c (scan lexer input c n) := by
  unfold scan
  rw [hi]
  dsimp only
  split
  · exact .refl c
  · next s hs =>
      split
      · next p hp =>
          split
          · exact Chart.scan_adds hi hg
          · exact .refl c
      · refine .foldl (fun c'' x _ hext => ?_)
        split
        · exact Chart.scan_adds (hext.item hi) hg
        · exact .refl c''

/-- **The turn of another edge moves no gap edge.** -/
theorem process_adds (strategy : Strategy) (lexer : Lexer) (input : Text)
    (hi : c.item? n = some i) (hg : i.isAtGap = false) :
    Chart.Adds NotAtGap c (process strategy lexer input c n) := by
  unfold process
  rw [hi]
  dsimp only
  split
  · exact complete_adds strategy c n
  · split
    · exact scan_adds lexer input hi hg
    · exact predict_adds strategy hi

/-! ### Filling the gap of one edge -/

/-- The edge is in front of this gap, with this nonterminal behind that, and it stops at `p`. -/
structure GapEdge (c : Chart g.rules) (n : Nat) (o : Item g.rules) (gap : Gap) (name : String)
    (p : Nat) : Prop where
  item : c.item? n = some o
  next : o.next? = some (.gap gap)
  following : o.following? = some (.nonterminal name)
  stop : o.stop = .offset p

theorem GapEdge.mono (hc : c.Extends c') (h : GapEdge c n o gap name p) :
    GapEdge c' n o gap name p where
  item := hc.item h.item
  next := h.next
  following := h.following
  stop := h.stop

theorem GapEdge.isAtGap (h : GapEdge c n o gap name p) : o.isAtGap = true := by
  simp [Item.isAtGap, h.next, Symbol.isGap, Symbol.kind]

/-- Moves an edge over a gap up to `stop`, if the gap accepts the text between. -/
def fillUpTo (input : Text) (gap : Gap) (p n : Nat) (c : Chart g.rules) (stop : Nat) :
    Chart g.rules :=
  match gap.matchSpan? input p stop with
  | some m => (c.scan n (.offset m.stop) m.texts none).1
  | none => c

theorem fillUpTo_adds {P : Nat → Item g.rules → Item g.rules → Prop} (ho : c.item? n = some o)
    (hP : (gap.matchSpan? input p s).isSome = true → P n o (o.step o.start (.offset s))) :
    Chart.Adds P c (fillUpTo input gap p n c s) := by
  unfold fillUpTo
  cases hm : gap.matchSpan? input p s with
  | none => exact .refl c
  | some m =>
      obtain ⟨text, -, -, rfl⟩ := Gap.matchSpan?_eq_some.1 hm
      exact Chart.scan_adds ho (hP (by rw [hm]; rfl))

theorem extends_fillUpTo (ho : c.item? n = some o) :
    c.Extends (fillUpTo input gap p n c s) := by
  have h : Chart.Adds (fun _ _ _ => True) c (fillUpTo input gap p n c s) :=
    fillUpTo_adds ho (fun _ => trivial)
  exact h.grown

theorem fillUpTo_records (ho : c.item? n = some o)
    (hm : (gap.matchSpan? input p s).isSome = true) :
    (fillUpTo input gap p n c s).Records (o.step o.start (.offset s)) n none := by
  obtain ⟨m, hm⟩ := Option.isSome_iff_exists.1 hm
  obtain ⟨text, -, -, rfl⟩ := Gap.matchSpan?_eq_some.1 hm
  unfold fillUpTo
  rw [hm]
  dsimp only
  rw [Chart.scan_of_item ho]
  exact Chart.records_add_one c _ .agenda n none _

/-- An item that comes of filling has something left of its dot.  It is not finished, since a nonterminal comes
next. -/
theorem has_fillUpTo (h : GapEdge c n o gap name p) (hi : (fillUpTo input gap p n c s).Has i) :
    c.Has i ∨ 0 < i.dot ∧ i.isReduced = false := by
  unfold fillUpTo at hi
  split at hi
  · next m _ =>
      rw [Chart.scan_of_item h.item] at hi
      refine (Chart.has_add_iff.1 hi).imp_right ?_
      rintro rfl
      exact ⟨Nat.succ_pos _, not_isReduced_of_next? (i := o.step _ (.offset m.stop)) h.following⟩
  · exact .inl hi

theorem has_foldl_fillUpTo (h : GapEdge c n o gap name p) (stops : List Nat)
    (hi : (stops.foldl (fillUpTo input gap p n) c).Has i) :
    c.Has i ∨ 0 < i.dot ∧ i.isReduced = false := by
  induction stops generalizing c with
  | nil => exact .inl hi
  | cons s stops ih =>
      have hext : c.Extends (fillUpTo input gap p n c s) := extends_fillUpTo h.item
      rcases ih (h.mono hext) hi with hi | hnew
      · exact has_fillUpTo h hi
      · exact .inr hnew

theorem fillGap_of_gapEdge (h : GapEdge c n o gap name p) :
    fillGap input c n = .ok ((gapEnds c gap name p).foldl (fillUpTo input gap p n) c) := by
  unfold fillGap
  simp only [h.item, gapAt_eq_ok.2 ⟨h.next, h.following⟩, h.stop]
  rfl

/-- Filling does nothing, or it moves a gap edge to one end after the other. -/
theorem fillGap_cases (h : fillGap input c n = .ok c') :
    c' = c ∨ ∃ o gap name p, GapEdge c n o gap name p ∧
      c' = (gapEnds c gap name p).foldl (fillUpTo input gap p n) c := by
  unfold fillGap at h
  split at h
  · exact .inl (Except.ok.inj h).symm
  · next i hi =>
      split at h
      · exact absurd h (by simp)
      · exact .inl (Except.ok.inj h).symm
      · next gap name p hgap hp =>
          obtain ⟨hn, hfol⟩ := gapAt_eq_ok.1 hgap
          exact .inr ⟨i, gap, name, p, ⟨hi, hn, hfol, hp⟩, (Except.ok.inj h).symm⟩

/-- What a derivation that comes of filling leads to. -/
def Fills (input : Text) (c : Chart g.rules) (gap : Gap) (name : String) (p n : Nat) (b : Nat)
    (o i : Item g.rules) : Prop :=
  b = n ∧ ∃ s, Target c gap name p s ∧ (gap.matchSpan? input p s).isSome = true ∧
    i = o.step o.start (.offset s)

theorem foldl_fillUpTo_adds (h : GapEdge c n o gap name p) :
    Chart.Adds (Fills input c gap name p n) c
      ((gapEnds c gap name p).foldl (fillUpTo input gap p n) c) := by
  refine .foldl (fun c'' s hs hext => fillUpTo_adds (hext.item h.item) (fun hm => ?_))
  exact ⟨rfl, s, mem_gapEnds.1 hs, hm, rfl⟩

/-- Filling the gap of an edge moves this edge only. -/
theorem fillGap_adds (h : fillGap input c n = .ok c') : Chart.Adds (fun b _ _ => b = n) c c' := by
  rcases fillGap_cases h with rfl | ⟨o, gap, name, p, ho, rfl⟩
  · exact .refl _
  · exact (foldl_fillUpTo_adds ho).mono (fun _ _ _ hf => hf.1)

theorem fillGap_has (h : fillGap input c n = .ok c') (hi : c'.Has i) :
    c.Has i ∨ 0 < i.dot ∧ i.isReduced = false := by
  rcases fillGap_cases h with rfl | ⟨o, gap, name, p, ho, rfl⟩
  · exact .inl hi
  · exact has_foldl_fillUpTo ho _ hi

/-- Filling the gap of an edge finishes nothing. -/
theorem fillGap_starts (h : fillGap input c n = .ok c') :
    Starts c' gap name p s ↔ Starts c gap name p s := by
  refine ⟨?_, Starts.mono (fillGap_adds h).grown⟩
  rintro ⟨f, hf, hr, hrest⟩
  exact ⟨f, (fillGap_has h hf).resolve_right (by simp [hr]), hr, hrest⟩

/-- **Filling the gap of one edge** moves it to its targets where the gap accepts the text between, and
nowhere else. -/
theorem fillGap_records (h : GapEdge c n o gap name p) (hc : c.Unmoved n)
    (hfill : fillGap input c n = .ok c') :
    c'.Records (o.step o.start (.offset s)) n none ↔
      Target c gap name p s ∧ (gap.matchSpan? input p s).isSome = true := by
  obtain rfl := Except.ok.inj ((fillGap_of_gapEdge h).symm.trans hfill)
  have hadds : Chart.Adds (Fills input c gap name p n) c _ := foldl_fillUpTo_adds h
  constructor
  · rintro ⟨m, e, he, hi, d, hd, hb, -⟩
    rcases hadds.based m e he d hd with ⟨x, hx, hdx⟩ | ⟨b, o', hb', ho', hf⟩
    · exact absurd hb (hc m x hx d hdx)
    · obtain ⟨rfl, s', hs', hm', hi'⟩ := hf
      obtain rfl : s = s' := by
        have hstop := congrArg Item.stop (hi.symm.trans hi')
        simpa [Item.step] using hstop
      exact ⟨hs', hm'⟩
  · rintro ⟨ht, hm⟩
    refine (Chart.foldl_spec (fun c'' => c.Extends c'')
      (fun s c'' => (gap.matchSpan? input p s).isSome = true →
        c''.Records (o.step o.start (.offset s)) n none) (fun c'' s _ hext => ?_)
      (fun _ _ _ hext hrec hm => hext.records (hrec hm)) (.refl c)).2.2 s (mem_gapEnds.2 ht) hm
    have hs : c''.Extends (fillUpTo input gap p n c'' s) := extends_fillUpTo (hext.item h.item)
    exact ⟨hext.trans hs, hs, fillUpTo_records (hext.item h.item)⟩

/-- Filling fails for an item in front of a gap without a nonterminal behind it, and for no other. -/
theorem fillGap_isOk_iff (hi : c.item? n = some i) :
    (∃ c', fillGap input c n = .ok c') ↔ ∃ x, gapAt i = .ok x := by
  unfold fillGap
  rw [hi]
  dsimp only
  cases gapAt i with
  | error e => simp
  | ok x => cases i.stop <;> simp

/-! ### Filling the gaps of several edges -/

/-- Filling the gaps of several edges moves these only. -/
theorem fillGaps_adds {numbers : List Nat} (h : fillGaps input c numbers = (c', none)) :
    Chart.Adds (fun b _ _ => b ∈ numbers) c c' := by
  induction numbers generalizing c with
  | nil =>
      obtain rfl : c = c' := congrArg Prod.fst h
      exact .refl c
  | cons n rest ih =>
      unfold fillGaps at h
      split at h
      · next c₁ hfill =>
          have h₁ := (fillGap_adds hfill).mono (Q := fun b _ _ => b ∈ n :: rest)
            (fun b _ _ hb => by simp [hb])
          exact h₁.trans ((ih h).mono (fun b _ _ hb => List.mem_cons_of_mem n hb))
      · exact absurd (congrArg Prod.snd h) (by simp)

theorem fillGaps_has {numbers : List Nat} (hi : (fillGaps input c numbers).1.Has i) :
    c.Has i ∨ 0 < i.dot := by
  induction numbers generalizing c with
  | nil => exact .inl hi
  | cons n rest ih =>
      unfold fillGaps at hi
      split at hi
      · next c₁ hfill =>
          rcases ih hi with hi | hdot
          · exact (fillGap_has hfill hi).imp_right And.left
          · exact .inr hdot
      · exact .inl hi

/-- Filling succeeds exactly if every one of the edges has a gap that can be filled. -/
theorem fillGaps_eq_none_iff {numbers : List Nat} (hlt : ∀ n ∈ numbers, n < c.size) :
    (fillGaps input c numbers).2 = none ↔
      ∀ n ∈ numbers, ∀ i, c.item? n = some i → ∃ x, gapAt i = .ok x := by
  induction numbers generalizing c with
  | nil => simp [fillGaps]
  | cons n rest ih =>
      obtain ⟨i, hi⟩ := Chart.exists_item_of_lt_size (hlt n (by simp))
      have hhead : (∀ j, c.item? n = some j → ∃ x, gapAt j = .ok x) ↔
          ∃ c₁, fillGap input c n = .ok c₁ := by
        rw [fillGap_isOk_iff hi, hi]
        simp
      rw [List.forall_mem_cons, hhead]
      unfold fillGaps
      cases hfill : fillGap input c n with
      | error e => simp
      | ok c₁ =>
          have hext := (fillGap_adds hfill).grown
          have hitem (m : Nat) (hm : m ∈ rest) : c₁.item? m = c.item? m := by
            obtain ⟨j, hj⟩ := Chart.exists_item_of_lt_size (hlt m (by simp [hm]))
            rw [hj, hext.item hj]
          dsimp only
          rw [ih (fun m hm => Nat.lt_of_lt_of_le (hlt m (by simp [hm])) hext.size_le)]
          constructor
          · intro hall
            exact ⟨⟨c₁, rfl⟩, fun m hm j hj => hall m hm j ((hitem m hm).trans hj)⟩
          · intro hall m hm j hj
            exact hall.2 m hm j ((hitem m hm).symm.trans hj)

/-- **Filling the gaps of several edges** moves each of them to its targets, as they were before. -/
theorem fillGaps_records {numbers : List Nat} (h : fillGaps input c numbers = (c', none))
    (hnodup : numbers.Nodup) (hc : ∀ m ∈ numbers, c.Unmoved m) (hn : n ∈ numbers)
    (ho : GapEdge c n o gap name p) :
    c'.Records (o.step o.start (.offset s)) n none ↔
      Target c gap name p s ∧ (gap.matchSpan? input p s).isSome = true := by
  induction numbers generalizing c with
  | nil => simp at hn
  | cons m rest ih =>
      obtain ⟨hm, hrest⟩ := List.nodup_cons.1 hnodup
      unfold fillGaps at h
      split at h
      · next c₁ hfill =>
          have h₁ := fillGap_adds hfill
          rcases List.mem_cons.1 hn with rfl | hn
          · rw [(fillGaps_adds h).records_iff (fun _ _ _ => hm)]
            exact fillGap_records ho (hc n (by simp)) hfill
          · have hc₁ : ∀ k ∈ rest, c₁.Unmoved k := by
              intro k hk
              refine h₁.unmoved (fun _ _ _ hkm => ?_) (hc k (List.mem_cons_of_mem m hk))
              exact hm (hkm ▸ hk)
            rw [ih h hrest hc₁ hn (ho.mono h₁.grown), Target.congr (fun s => fillGap_starts hfill)]
      · exact absurd (congrArg Prod.snd h) (by simp)

end Parser

end ChartParsing
