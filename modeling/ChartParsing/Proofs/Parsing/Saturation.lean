import ChartParsing.Proofs.Gaps.Targets
import ChartParsing.Proofs.Parsing.Invariants

/-!
# Saturated charts

`Running` is what holds of a chart between two turns of a parse: the processed edges are handled, and
joined with each other.  It is set up by `begin` and kept by every turn of `drain`, whatever the order of
work is.  Edges in front of gaps count as processed once they were taken, although nothing that
`Handled` and `Joined` ask for is done with them: there is nothing to be done, since what they want is a
gap.  The same goes for staged edges, which the seeding has moved over their terminals already.

`parse` may take as many turns as there are items within the input, which is enough for a lexer that stays
within it.  `parseWithin` is told how many it may take, so that the other lexers are covered as well.

Main statement: **`parse_closed`**.  When a parse succeeds, after however many turns, no edge is left to be
processed, so the chart is closed under all steps: every finished edge is in every open edge that can take
it, with this pair among the derivations of the result.
-/

namespace ChartParsing

namespace Grammar

variable {g : Grammar}

theorem mem_select {p : Rule → Bool} {r : g.RuleId} : r ∈ g.select p ↔ p (g.rule r) = true := by
  simp [select]

theorem mem_terminalRules {r : g.RuleId} :
    r ∈ g.terminalRules ↔ ∃ s, (g.rule r).first? = some s ∧ s.isScannable = true := by
  simp [terminalRules, mem_select, Rule.startsWithTerminal, Option.any_eq_true]

theorem mem_rulesFor {name : String} {r : g.RuleId} :
    r ∈ g.rulesFor name ↔ (g.rule r).lhs = name := by
  simp [rulesFor, mem_select]

theorem startsWith_nonterminal {r : Rule} {name : String} :
    r.startsWith (some (.nonterminal name)) = true ↔ r.first? = some (.nonterminal name) := by
  unfold Rule.startsWith
  cases hf : r.first? with
  | none => simp
  | some s =>
      cases s <;> simp [Symbol.same, Symbol.kind, Symbol.identity, Symbol.name, eq_comm]

theorem mem_rulesStartingWith {name : String} {r : g.RuleId} :
    r ∈ g.rulesStartingWith name ↔ (g.rule r).first? = some (.nonterminal name) := by
  simp [rulesStartingWith, rulesStarting, mem_select, startsWith_nonterminal]

theorem mem_emptyRules {r : g.RuleId} : r ∈ g.emptyRules ↔ (g.rule r).rhs = [] := by
  rw [emptyRules, rulesStarting, mem_select]
  cases hr : (g.rule r).rhs <;> simp [Rule.startsWith, Rule.first?, hr]

theorem mem_emptyRulesFor {name : String} {r : g.RuleId} :
    r ∈ g.emptyRulesFor name ↔ (g.rule r).lhs = name ∧ (g.rule r).rhs = [] := by
  simp [emptyRulesFor, mem_rulesFor, Rule.isEmpty]

end Grammar

namespace Parser

variable {g : Grammar} {strategy : Strategy} {lexer : Lexer} {input : Text}
  {c c' : Chart g.rules} {i : Item g.rules} {n : Nat}

/-! ### Setting up a chart -/

/-- What a parse starts from is in the chart. -/
structure Begun (strategy : Strategy) (lexer : Lexer) (input : Text) (c : Chart g.rules) : Prop where
  /-- Top down, the rules of entities are there at the start of the input. -/
  entities : strategy = .topDown → ∀ r ∈ g.entityRules, c.Has (.initial r (.offset 0))
  /-- Bottom up, a rule is there wherever its first terminal stands and the lexer accepts it. -/
  seeds : strategy.isBottomUp = true → ∀ r ∈ g.terminalRules, ∀ s, (g.rule r).first? = some s →
    ∀ x ∈ s.occurrences input, ∀ m, lexer s input x.start = some m →
      c.Has (.initial r (.offset x.start))
  /-- Bottom up, the empty rules are there without a place. -/
  empties : strategy.isBottomUp = true → ∀ r ∈ g.emptyRules, c.Has (.initial r .anywhere)

theorem Begun.mono (hc : c.Extends c') (h : Begun strategy lexer input c) :
    Begun strategy lexer input c' where
  entities hs r hr := hc.has (h.entities hs r hr)
  seeds hs r hr s hf x hx m hm := hc.has (h.seeds hs r hr s hf x hx m hm)
  empties hs r hr := hc.has (h.empties hs r hr)

/-- What holds between two turns of a parse. -/
structure Running (strategy : Strategy) (lexer : Lexer) (input : Text) (c : Chart g.rules) :
    Prop where
  built : Built strategy lexer input c
  wellFormed : c.WellFormed
  staged : c.staged = []
  handled : ∀ n ∈ c.processed, ∀ i, c.item? n = some i → Handled strategy lexer input c i n
  joined : ∀ n ∈ c.processed, ∀ m ∈ c.processed, Joined c n m

/-- What holds while rules are started at their first terminals. -/
structure Seeding (strategy : Strategy) (lexer : Lexer) (input : Text) (c : Chart g.rules) :
    Prop where
  built : Built strategy lexer input c
  wellFormed : c.WellFormed
  processed : c.processed = []
  terminal : ∀ n ∈ c.staged, ∀ i, c.item? n = some i →
    ∃ s, i.next? = some s ∧ s.isScannable = true
  handled : ∀ n ∈ c.staged, ∀ i, c.item? n = some i → Handled strategy lexer input c i n

/-- An edge in front of a terminal is handled once it was moved over that. -/
theorem handled_of_scanned {s : Symbol} {p : Nat} {m : Match} (hn : i.next? = some s)
    (hs : s.isScannable = true) (hp : i.stop = .offset p) (hm : lexer s input p = some m)
    (hr : c.Records (i.step i.start (.offset m.stop)) n none) :
    Handled strategy lexer input c i n where
  started := by simp [not_isReduced_of_next? hn]
  wanted := by simp [wanted?_eq_none_of_isScannable hn hs]
  emptyWanted := by simp [wanted?_eq_none_of_isScannable hn hs]
  scanned := by
    intro s' hn' _ p' hp' m' hm'
    obtain rfl := Option.some.inj (hn.symm.trans hn')
    obtain rfl := Position.offset.inj (hp.symm.trans hp')
    obtain rfl := Option.some.inj (hm.symm.trans hm')
    exact hr
  scannedAnywhere := by simp [hp]

/-- Nothing is to be found for an edge in front of a gap. -/
theorem handled_of_isAtGap (hg : i.isAtGap = true) : Handled strategy lexer input c i n := by
  obtain ⟨s, hn, hs⟩ := (Option.any_eq_true _ _).1 hg
  have hw : i.wanted? = none := by
    cases s <;> simp_all [Item.wanted?, Symbol.nonterminal?, Symbol.isGap, Symbol.kind]
  have hsc : s.isScannable = false := by simp [Symbol.isScannable, hs]
  refine ⟨?_, by simp [hw], by simp [hw], ?_, ?_⟩
  · simp [not_isReduced_of_next? hn]
  · simp [hn, hsc]
  · simp [hn, hsc]

theorem joined_of_isAtGap {m : Nat} (hi : c.item? n = some i) (hg : i.isAtGap = true) :
    Joined c n m ∧ Joined c m n := by
  obtain ⟨s, hn, hs⟩ := (Option.any_eq_true _ _).1 hg
  refine ⟨fun o f ho _ ht => ?_, fun o f _ hf ht => ?_⟩
  · obtain rfl := Option.some.inj (hi.symm.trans ho)
    obtain rfl := Option.some.inj ((next?_of_wanted? ht.wanted).symm.trans hn)
    simp [Symbol.isGap, Symbol.kind] at hs
  · obtain rfl := Option.some.inj (hi.symm.trans hf)
    exact absurd ht.reduced (by simp [not_isReduced_of_next? hn])

theorem mem_staged_add {c : Chart g.rules} {e : Edge g.rules}
    (h : n ∈ (c.add e .staged).1.staged) : n ∈ c.staged ∨ n = (c.add e .staged).2 := by
  cases hf : c.find? e.item with
  | none =>
      rw [Chart.add_of_find?_eq_none hf] at h ⊢
      rcases Chart.push_lists c e .staged with ⟨-, -, hs, -⟩ | ⟨-, hp, -⟩ | ⟨-, -, -, hs, -⟩
      · exact .inl (hs ▸ h)
      · exact absurd hp (by decide)
      · simpa [hs] using h
  | some k =>
      rw [Chart.add_of_find? hf] at h
      exact .inl h

theorem seeding_seed {r : g.RuleId} {s : Symbol} {x : Occurrence} {m : Match}
    (hb : strategy.isBottomUp = true) (hr : r ∈ g.terminalRules)
    (hf : (g.rule r).first? = some s) (hx : x ∈ s.occurrences input)
    (hm : lexer s input x.start = some m) (h : Seeding strategy lexer input c) :
    Seeding strategy lexer input (c.seed r x.start m.stop m.texts).1 ∧
      c.Extends (c.seed r x.start m.stop m.texts).1 ∧
      (c.seed r x.start m.stop m.texts).1.Has (.initial r (.offset x.start)) := by
  have hs : s.isScannable = true := by
    obtain ⟨s', hf', hs'⟩ := Grammar.mem_terminalRules.1 hr
    rwa [Option.some.inj (hf.symm.trans hf')]
  have hn : (Item.initial r (.offset x.start)).next? = some s := by
    show (g.rule r).rhs[0]? = some s
    rw [← List.head?_eq_getElem?]
    exact hf
  let e : Edge g.rules := ⟨.initial r (.offset x.start), []⟩
  let c₁ := (c.add e .staged).1
  let base := (c.add e .staged).2
  have hi₁ : c₁.item? base = some e.item := Chart.item?_add c e .staged
  have ha : Addition strategy lexer input c e := .predicted (.seed hb hr hf hx hm)
  have ha₁ : Addition strategy lexer input c₁ _ := .scanned hi₁ hn hs rfl hm
  have hseed : (c.seed r x.start m.stop m.texts).1 =
      (c₁.add ⟨e.item.step e.item.start (.offset m.stop), [⟨some base, none, some m.texts⟩]⟩
        .agenda).1 := Chart.scan_of_item hi₁
  have he₁ := Chart.extends_add c e .staged
  have he₂ := Chart.extends_add c₁
    ⟨e.item.step e.item.start (.offset m.stop), [⟨some base, none, some m.texts⟩]⟩ .agenda
  have hold : ∀ k ∈ (c.seed r x.start m.stop m.texts).1.staged, ∀ i,
      (c.seed r x.start m.stop m.texts).1.item? k = some i →
        (k ∈ c.staged ∧ c.item? k = some i) ∨ (k = base ∧ i = e.item) := by
    rw [hseed]
    intro k hk i hi
    rw [staged_add_agenda] at hk
    rcases mem_staged_add hk with hk | rfl
    · obtain ⟨i', hi'⟩ := Chart.exists_item_of_lt_size (h.wellFormed.lt_size (n := k) (by simp [hk]))
      exact .inl ⟨hk, hi'.trans ((he₁.trans he₂).item hi' ▸ hi)⟩
    · exact .inr ⟨rfl, Option.some.inj (hi.symm.trans (he₂.item hi₁))⟩
  rw [hseed] at hold ⊢
  refine ⟨⟨.add (.add h.built ha .staged) ha₁ .agenda,
    (h.wellFormed.add ha.distinct .staged).add ha₁.distinct .agenda, ?_, ?_, ?_⟩,
    he₁.trans he₂, he₂.has ⟨base, hi₁⟩⟩
  · rw [Chart.processed_add, Chart.processed_add, h.processed]
  · intro k hk i hi
    rcases hold k hk i hi with ⟨hk, hi⟩ | ⟨rfl, rfl⟩
    · exact h.terminal k hk i hi
    · exact ⟨s, hn, hs⟩
  · intro k hk i hi
    rcases hold k hk i hi with ⟨hk, hi⟩ | ⟨rfl, rfl⟩
    · exact (h.handled k hk i hi).mono (he₁.trans he₂)
    · exact handled_of_scanned hn hs rfl hm (Chart.records_add_one c₁ _ .agenda base none _)

theorem seeding_seedRule {r : g.RuleId} (hb : strategy.isBottomUp = true)
    (hr : r ∈ g.terminalRules) (h : Seeding strategy lexer input c) :
    Seeding strategy lexer input (seedRule lexer input c r) ∧
      c.Extends (seedRule lexer input c r) ∧
      ∀ s, (g.rule r).first? = some s → ∀ x ∈ s.occurrences input, ∀ m,
        lexer s input x.start = some m →
          (seedRule lexer input c r).Has (.initial r (.offset x.start)) := by
  obtain ⟨s, hf, -⟩ := Grammar.mem_terminalRules.1 hr
  unfold seedRule
  rw [hf]
  dsimp only
  refine And.imp_right (And.imp_right ?_) (Chart.foldl_spec (Seeding strategy lexer input)
    (fun (x : Occurrence) c' => ∀ m, lexer s input x.start = some m →
      c'.Has (.initial r (.offset x.start))) ?_ ?_ h)
  · intro hall s' hf'
    obtain rfl := Option.some.inj hf'
    exact hall
  · intro c'' x hx hk
    cases hm : lexer s input x.start with
    | none => exact ⟨hk, .refl _, by simp⟩
    | some m =>
        obtain ⟨hs, he, hh⟩ := seeding_seed hb hr hf hx hm hk
        exact ⟨hs, he, fun _ _ => hh⟩
  · exact fun x c₁ c₂ hc hh m hm => hc.has (hh m hm)

theorem seeding_empty : Seeding strategy lexer input (.empty : Chart g.rules) :=
  ⟨.empty, Chart.wellFormed_empty, rfl, by simp [Chart.empty], by simp [Chart.empty]⟩

/-- The staged edges of a seeded chart are its only processed ones.  They want no nonterminal. -/
theorem Seeding.settle (h : Seeding strategy lexer input c) :
    Running strategy lexer input c.settle where
  built := .requeue h.built rfl
  wellFormed := h.wellFormed.settle
  staged := rfl
  handled := by
    intro n hn i hi
    have hn' : n ∈ c.staged := by simpa [Chart.settle, h.processed] using hn
    exact (h.handled n hn' i hi).mono (.of_edges (c := c) rfl)
  joined := by
    intro n hn m hm o f ho hf ht
    have hn' : n ∈ c.staged := by simpa [Chart.settle, h.processed] using hn
    obtain ⟨s, hs, hsc⟩ := h.terminal n hn' o ho
    exact absurd hsc (by simp [not_isScannable_of_wanted? ht.wanted hs])

/-- Growth of a chart that is being set up; what is on its agenda makes no difference. -/
theorem Seeding.grows (h : Seeding strategy lexer input c)
    (hg : Grows strategy lexer input c c') : Seeding strategy lexer input c' where
  built := hg.built h.built
  wellFormed := hg.wellFormed h.wellFormed
  processed := by rw [hg.processed, h.processed]
  terminal := by
    intro n hn i hi
    rw [hg.staged] at hn
    obtain ⟨i', hi'⟩ := Chart.exists_item_of_lt_size (h.wellFormed.lt_size (n := n) (by simp [hn]))
    obtain rfl := Option.some.inj ((hg.extends.item hi').symm.trans hi)
    exact h.terminal n hn i' hi'
  handled := by
    intro n hn i hi
    rw [hg.staged] at hn
    obtain ⟨i', hi'⟩ := Chart.exists_item_of_lt_size (h.wellFormed.lt_size (n := n) (by simp [hn]))
    obtain rfl := Option.some.inj ((hg.extends.item hi').symm.trans hi)
    exact (h.handled n hn i' hi').mono hg.extends

theorem beginTopDown_spec (lexer : Lexer) (input : Text) :
    Seeding .topDown lexer input (beginTopDown (.empty : Chart g.rules)) ∧
      Begun .topDown lexer input (beginTopDown (.empty : Chart g.rules)) := by
  have h : Grows .topDown lexer input (.empty : Chart g.rules) _ ∧ _ :=
    predictAll_spec (fun r hr => .entity rfl hr)
  refine ⟨seeding_empty.grows h.1, fun _ => h.2, ?_, ?_⟩
  · simp [Strategy.isBottomUp]
  · simp [Strategy.isBottomUp]

theorem beginBottomUp_spec (strategy : Strategy) (lexer : Lexer) (input : Text)
    (hb : strategy.isBottomUp = true) :
    Seeding strategy lexer input (beginBottomUp lexer input (.empty : Chart g.rules)) ∧
      Begun strategy lexer input (beginBottomUp lexer input (.empty : Chart g.rules)) := by
  have hseed : Seeding strategy lexer input
      (g.terminalRules.foldl (seedRule lexer input) .empty) ∧ _ :=
    Chart.foldl_spec (Seeding strategy lexer input)
      (fun r c' => ∀ s, (g.rule r).first? = some s → ∀ x ∈ s.occurrences input, ∀ m,
        lexer s input x.start = some m → c'.Has (.initial r (.offset x.start)))
      (fun c r hr hk => seeding_seedRule hb hr hk)
      (fun r c₁ c₂ hc hh s hf x hx m hm => hc.has (hh s hf x hx m hm)) seeding_empty
  have h : Grows strategy lexer input (g.terminalRules.foldl (seedRule lexer input) .empty) _ ∧ _ :=
    predictAll_spec (fun r hr => .empty hb hr)
  refine ⟨hseed.1.grows h.1, ?_, ?_, fun _ => h.2⟩
  · rintro rfl
    simp [Strategy.isBottomUp] at hb
  · exact fun _ r hr s hf x hx m hm => h.1.extends.has (hseed.2.2 r hr s hf x hx m hm)

theorem begin_spec (strategy : Strategy) (lexer : Lexer) (input : Text) :
    Running strategy lexer input (begin strategy lexer input : Chart g.rules) ∧
      Begun strategy lexer input (begin strategy lexer input : Chart g.rules) := by
  cases strategy with
  | topDown =>
      obtain ⟨hs, hb⟩ := beginTopDown_spec (g := g) lexer input
      exact ⟨hs.settle, hb.mono (Chart.extends_settle _)⟩
  | bottomUp =>
      obtain ⟨hs, hb⟩ := beginBottomUp_spec (g := g) .bottomUp lexer input rfl
      exact ⟨hs.settle, hb.mono (Chart.extends_settle _)⟩
  | bottomUpWithGaps =>
      obtain ⟨hs, hb⟩ := beginBottomUp_spec (g := g) .bottomUpWithGaps lexer input rfl
      exact ⟨hs.settle, hb.mono (Chart.extends_settle _)⟩

/-! ### Filling gaps -/

theorem fillGap_grows (h : fillGap input c n = .ok c') :
    Grows .bottomUpWithGaps lexer input c c' := by
  unfold fillGap at h
  cases hi : c.item? n with
  | none =>
      rw [hi] at h
      obtain rfl := Except.ok.inj h
      exact .refl
  | some i =>
      rw [hi] at h
      dsimp only at h
      split at h
      · exact absurd h (by simp)
      · obtain rfl := Except.ok.inj h
        exact .refl
      · next gap name p hgap hp =>
          obtain rfl := Except.ok.inj h
          refine (Grows.foldl (fun _ _ => True) (fun c'' q hq hg => ?_) (by simp)).1
          obtain ⟨⟨f, ⟨k, hf⟩, hr, rfl, hs, hlt, hle⟩, -⟩ := mem_gapEnds.1 hq
          cases hm : gap.matchSpan? input p q with
          | none => exact ⟨.refl, trivial⟩
          | some m =>
              dsimp only
              have hi' := hg.extends.item hi
              rw [Chart.scan_of_item hi']
              exact ⟨.one (.filled rfl hi' hgap hp (hg.extends.item hf) hr hs hlt (by omega) hm), trivial⟩

theorem fillGaps_grows (lexer : Lexer) (input : Text) (c : Chart g.rules) (numbers : List Nat) :
    Grows .bottomUpWithGaps lexer input c (fillGaps input c numbers).1 := by
  induction numbers generalizing c with
  | nil => exact .refl
  | cons n rest ih =>
      unfold fillGaps
      split
      · next c' h => exact (fillGap_grows h).trans (ih c')
      · exact .refl

/-! ### Turns -/

theorem Running.grows (h : Running strategy lexer input c)
    (hg : Grows strategy lexer input c c') : Running strategy lexer input c' where
  built := hg.built h.built
  wellFormed := hg.wellFormed h.wellFormed
  staged := by rw [hg.staged, h.staged]
  handled := by
    intro n hn i hi
    rw [hg.processed] at hn
    obtain ⟨i', hi'⟩ := Chart.exists_item_of_lt_size (h.wellFormed.lt_size (n := n) (by simp [hn]))
    obtain rfl := Option.some.inj ((hg.extends.item hi').symm.trans hi)
    exact (h.handled n hn i' hi').mono hg.extends
  joined := by
    intro n hn m hm
    rw [hg.processed] at hn hm
    exact (h.joined n hn m hm).mono hg.extends (h.wellFormed.lt_size (by simp [hn]))
      (h.wellFormed.lt_size (by simp [hm]))

/-- The edge whose turn comes next is in the chart, and it is not in front of a gap. -/
theorem Running.exists_next (h : Running strategy lexer input c) (hn : c.next? = some (n, c')) :
    ∃ i, c'.item? n = some i ∧ i.isAtGap = false := by
  obtain ⟨ha, hc'⟩ := Chart.next?_eq_some hn
  have hlt : n < c.size := h.wellFormed.lt_size (by simp [ha])
  obtain ⟨i, hi⟩ := Chart.exists_item_of_lt_size hlt
  refine ⟨i, by rw [hc', ← hi]; rfl, h.wellFormed.waiting n (by simp [ha]) i hi⟩

/-- **The turn of an edge.**  It is joined with all edges that are there when its turn comes, so with
all that were processed before it. -/
theorem Running.turn (h : Running strategy lexer input c) (hn : c.next? = some (n, c')) :
    Running strategy lexer input (process strategy lexer input c' n) ∧
      c.Extends (process strategy lexer input c' n) := by
  have hw := h.wellFormed.next? hn
  obtain ⟨ha, hc'⟩ := Chart.next?_eq_some hn
  have hitem : ∀ k, c'.item? k = c.item? k := fun k => by rw [hc']; rfl
  have hproc : c'.processed = c.processed ++ [n] := by rw [hc']
  have hext : c.Extends c' := .of_edges (by rw [hc'])
  have hlt : ∀ k ∈ c.processed ++ [n], k < c'.size :=
    fun k hk => hw.lt_size (by
      rw [hproc]
      exact List.mem_append_left _ (List.mem_append_left _ (List.mem_append_left _ hk)))
  obtain ⟨i, hi, hgap⟩ := h.exists_next hn
  have hg : Grows strategy lexer input c' _ := process_grows strategy lexer input hi hgap
  refine ⟨⟨hg.built (.requeue h.built (by rw [hc'])), hg.wellFormed hw, ?_, ?_, ?_⟩,
    hext.trans hg.extends⟩
  · rw [hg.staged, hc']
    exact h.staged
  · intro k hk j hj
    rw [hg.processed, hproc] at hk
    obtain ⟨j', hj'⟩ := Chart.exists_item_of_lt_size (hlt k hk)
    obtain rfl := Option.some.inj ((hg.extends.item hj').symm.trans hj)
    rcases List.mem_append.1 hk with hk | hk
    · exact (h.handled k hk j' ((hitem k).symm.trans hj')).mono (hext.trans hg.extends)
    · obtain rfl := List.mem_singleton.1 hk
      obtain rfl := Option.some.inj (hi.symm.trans hj')
      exact process_handled strategy lexer input hi hgap
  · intro k hk m hm
    rw [hg.processed, hproc] at hk hm
    rcases List.mem_append.1 hk with hk' | hk'
    · rcases List.mem_append.1 hm with hm' | hm'
      · exact (h.joined k hk' m hm').mono (hext.trans hg.extends)
          (h.wellFormed.lt_size (by simp [hk'])) (h.wellFormed.lt_size (by simp [hm']))
      · obtain rfl := List.mem_singleton.1 hm'
        exact (process_joined strategy lexer input hi hgap (hlt k hk)).2
    · obtain rfl := List.mem_singleton.1 hk'
      exact (process_joined strategy lexer input hi hgap (hlt m hm)).1

/-- Taking the deferred edges. -/
theorem Running.takeDeferred (h : Running strategy lexer input c) :
    Running strategy lexer input c.takeDeferred.2 where
  built := .requeue h.built rfl
  wellFormed := h.wellFormed.takeDeferred
  staged := h.staged
  handled := by
    intro n hn i hi
    rcases List.mem_append.1 hn with hn | hn
    · exact (h.handled n hn i hi).mono (.of_edges (c := c) rfl)
    · exact handled_of_isAtGap (h.wellFormed.deferred n hn i hi)
  joined := by
    intro n hn m hm o f ho hf ht
    rcases List.mem_append.1 hn with hn | hn
    · rcases List.mem_append.1 hm with hm | hm
      · exact h.joined n hn m hm o f ho hf ht
      · exact (joined_of_isAtGap hf (h.wellFormed.deferred m hm f hf)).2 o f ho hf ht
    · exact (joined_of_isAtGap ho (h.wellFormed.deferred n hn o ho)).1 o f ho hf ht

/-- **The run.**  What holds between turns holds at the end, and if nothing went wrong there is nothing
left to do. -/
theorem drain_spec (fuel : Nat) (h : Running strategy lexer input c) :
    Running strategy lexer input (drain strategy lexer input fuel c).1 ∧
      c.Extends (drain strategy lexer input fuel c).1 ∧
      ((drain strategy lexer input fuel c).2 = none →
        (drain strategy lexer input fuel c).1.agenda = [] ∧
          (drain strategy lexer input fuel c).1.deferred = []) := by
  induction fuel generalizing c with
  | zero => exact ⟨h, .refl c, by simp [drain]⟩
  | succ fuel ih =>
      unfold drain
      split
      · next n c' hn =>
          obtain ⟨hr, he⟩ := h.turn hn
          obtain ⟨hr', he', hd⟩ := ih hr
          exact ⟨hr', he.trans he', hd⟩
      · next hn =>
          have ht := h.takeDeferred
          have he : c.Extends c.takeDeferred.2 := .of_edges rfl
          split
          · next hd =>
              refine ⟨h, .refl c, fun _ => ⟨Chart.next?_eq_none hn, ?_⟩⟩
              simpa [Chart.hasDeferred] using hd
          · dsimp only
            split
            · next hs =>
                subst hs
                have hg := fillGaps_grows lexer input c.takeDeferred.2 c.takeDeferred.1
                split
                · next c' hf =>
                    rw [hf] at hg
                    obtain ⟨hr', he', hd⟩ := ih (ht.grows hg)
                    exact ⟨hr', (he.trans hg.extends).trans he', hd⟩
                · next c' x hf =>
                    rw [hf] at hg
                    exact ⟨ht.grows hg, he.trans hg.extends, by simp⟩
            · obtain ⟨hr', he', hd⟩ := ih ht
              exact ⟨hr', he.trans he', hd⟩

/-! ### The whole parse -/

/-- Everything that the steps of a parser can find is in the chart. -/
structure Saturated (strategy : Strategy) (lexer : Lexer) (input : Text) (c : Chart g.rules) :
    Prop extends Begun strategy lexer input c where
  /-- Each edge is handled. -/
  handled : ∀ n i, c.item? n = some i → Handled strategy lexer input c i n
  /-- Each finished edge was put into each open one that can take it. -/
  joined : ∀ n m, Joined c n m

/-- The chart that a new parser leaves. -/
def finalChart (g : Grammar) (strategy : Strategy) (lexer : Lexer) (input : Text) : Chart g.rules :=
  ((new g strategy lexer).parse input).1.chart

/-- What a parse comes to that may take this many turns. -/
def parseWithin (g : Grammar) (strategy : Strategy) (lexer : Lexer) (input : Text) (turns : Nat) :
    Chart g.rules × Option Failure :=
  drain strategy lexer input turns (begin strategy lexer input)

theorem parse_eq_parseWithin (p : Parser g) (input : Text) :
    ((p.parse input).1.chart, (p.parse input).2) =
      parseWithin g p.strategy p.lexer input (edgeBound g input.byteLength + 1) :=
  rfl

/-- What holds of every chart on the way. -/
theorem parseWithin_running (g : Grammar) (strategy : Strategy) (lexer : Lexer) (input : Text)
    (turns : Nat) : Running strategy lexer input (parseWithin g strategy lexer input turns).1 :=
  (drain_spec turns (begin_spec strategy lexer input).1).1

/-- What holds of every chart that a parse leaves. -/
theorem parse_running (p : Parser g) (input : Text) :
    Running p.strategy p.lexer input (p.parse input).1.chart :=
  parseWithin_running g p.strategy p.lexer input (edgeBound g input.byteLength + 1)

/-- With an empty agenda every edge is processed or deferred, and in one of the two once. -/
theorem Running.numbered (h : Running strategy lexer input c) (ha : c.agenda = []) :
    (c.processed ++ c.deferred).Perm (List.range c.size) := by
  have hall := h.wellFormed.numbered
  rwa [ha, h.staged, List.append_nil, List.append_nil] at hall

theorem mem_processed_of_done (h : Running strategy lexer input c) (ha : c.agenda = [])
    (hd : c.deferred = []) (hi : c.item? n = some i) : n ∈ c.processed := by
  have hn := (h.numbered ha).mem_iff.2 (List.mem_range.2 (Chart.lt_size_of_item? hi))
  rwa [hd, List.append_nil] at hn

/-- **With an empty agenda a chart is saturated.**  There is nothing to be found for what is deferred. -/
theorem Running.saturated (h : Running strategy lexer input c) (hb : Begun strategy lexer input c)
    (ha : c.agenda = []) : Saturated strategy lexer input c := by
  have ht := h.takeDeferred
  have hall (n : Nat) (i : Item g.rules) (hi : c.item? n = some i) :
      n ∈ c.takeDeferred.2.processed :=
    (h.numbered ha).mem_iff.2 (List.mem_range.2 (Chart.lt_size_of_item? hi))
  refine ⟨hb, fun n i hi => ?_, fun n m o f ho hf => ?_⟩
  · exact (ht.handled n (hall n i hi) i hi).mono (.of_edges (c := c.takeDeferred.2) rfl)
  · exact ht.joined n (hall n o ho) m (hall m f hf) o f ho hf

/-- A parse that succeeds after some turns leaves a saturated chart. -/
theorem saturated_of_parseWithin {turns : Nat}
    (h : (parseWithin g strategy lexer input turns).2 = none) :
    Saturated strategy lexer input (parseWithin g strategy lexer input turns).1 := by
  obtain ⟨hr, hb⟩ := begin_spec (g := g) strategy lexer input
  obtain ⟨hr, he, hd⟩ := drain_spec turns hr
  exact hr.saturated (hb.mono he) (hd h).1

/-- A parse that succeeds leaves a saturated chart. -/
theorem saturated_of_parse (p : Parser g) (input : Text) (h : (p.parse input).2 = none) :
    Saturated p.strategy p.lexer input (p.parse input).1.chart := by
  have hturns : (parseWithin g p.strategy p.lexer input (edgeBound g input.byteLength + 1)).2 =
      none := h
  exact saturated_of_parseWithin hturns

/-! ### Closed charts -/

/-- The chart holds everything that a single step of the parser leads to from its own edges, together
with the pair of edges from which the step leads there. -/
structure Closed (strategy : Strategy) (lexer : Lexer) (input : Text) (c : Chart g.rules) : Prop where
  /-- A finished edge that meets an open one was put into it, unless the operators forbid the pair. -/
  completed : ∀ n m o f, c.item? n = some o → c.item? m = some f →
    o.wanted? = some f.lhs → f.isReduced = true →
    (o.stop = f.start ∨ o.stop = .anywhere ∨ f.start = .anywhere) →
    o.rule.operators.veto? f.rule.operators o.dot o.rule.length = none →
    c.Records ⟨o.number, o.dot + 1, if o.start = .anywhere then f.start else o.start,
      if f.stop = .anywhere then o.stop else f.stop⟩ n (some m)
  /-- An edge was moved over the terminal behind its dot, if the lexer accepts that where it ends. -/
  scanned : ∀ n o s p m, c.item? n = some o → o.next? = some s → s.isScannable = true →
    o.stop = .offset p → lexer s input p = some m →
    c.Records ⟨o.number, o.dot + 1, o.start, .offset m.stop⟩ n none
  /-- A floating edge was moved over each occurrence of the terminal that the lexer accepts. -/
  scannedAnywhere : ∀ n o s x m, c.item? n = some o → o.next? = some s → s.isScannable = true →
    o.isFloating = true → x ∈ s.occurrences input → lexer s input x.start = some m →
    c.Records ⟨o.number, o.dot + 1, .offset x.start, .offset m.stop⟩ n none
  /-- Rules are there where their nonterminal is wanted, unless rules are found from their starts
  only. -/
  predicted : strategy = .topDown ∨ strategy = .bottomUpWithGaps → ∀ n o name (r : g.RuleId),
    c.item? n = some o → o.wanted? = some name → (g.rule r).lhs = name →
    c.Has ⟨r, 0, o.stop, o.stop⟩
  /-- Bottom up, rules are there where a nonterminal was found that they start with. -/
  started : strategy = .bottomUp ∨ strategy = .bottomUpWithGaps → ∀ n f (r : g.RuleId),
    c.item? n = some f → f.isReduced = true → (g.rule r).first? = some (.nonterminal f.lhs) →
    c.Has ⟨r, 0, f.start, f.start⟩
  /-- Bottom up, empty rules are there where their nonterminal is wanted, -/
  emptyPredicted : strategy = .bottomUp ∨ strategy = .bottomUpWithGaps → ∀ n o (r : g.RuleId),
    c.item? n = some o → o.wanted? = some (g.rule r).lhs → (g.rule r).rhs = [] →
    c.Has ⟨r, 0, o.stop, o.stop⟩
  /-- and without a place. -/
  emptyAnywhere : strategy = .bottomUp ∨ strategy = .bottomUpWithGaps → ∀ r : g.RuleId,
    (g.rule r).rhs = [] → c.Has ⟨r, 0, .anywhere, .anywhere⟩
  /-- Bottom up, rules are there at each occurrence of their first terminal that the lexer accepts. -/
  seeded : strategy = .bottomUp ∨ strategy = .bottomUpWithGaps → ∀ (r : g.RuleId) s x m,
    (g.rule r).first? = some s → s.isScannable = true → x ∈ s.occurrences input →
    lexer s input x.start = some m → c.Has ⟨r, 0, .offset x.start, .offset x.start⟩
  /-- Top down, the rules of entities are there at the start of the input. -/
  entities : strategy = .topDown → ∀ r : g.RuleId, (g.rule r).entity = true →
    c.Has ⟨r, 0, .offset 0, .offset 0⟩

theorem isBottomUp_iff :
    strategy.isBottomUp = true ↔ strategy = .bottomUp ∨ strategy = .bottomUpWithGaps := by
  cases strategy <;> simp [Strategy.isBottomUp]

theorem predictsWanted_iff :
    strategy.predictsWanted = true ↔ strategy = .topDown ∨ strategy = .bottomUpWithGaps := by
  cases strategy <;> simp [Strategy.predictsWanted]

theorem joined_eq (o f : Item g.rules) : o.joined f =
    ⟨o.number, o.dot + 1, if o.start = .anywhere then f.start else o.start,
      if f.stop = .anywhere then o.stop else f.stop⟩ := by
  unfold Item.joined Item.step
  cases o.start <;> cases f.stop <;> rfl

/-- **A parse that succeeds leaves a closed chart**, whatever the grammar, the strategy, the lexer and
the input are, and after however many turns it succeeds. -/
theorem parse_closed (g : Grammar) (strategy : Strategy) (lexer : Lexer) (input : Text) (turns : Nat)
    (h : (parseWithin g strategy lexer input turns).2 = none) :
    Closed strategy lexer input (parseWithin g strategy lexer input turns).1 := by
  have hs := saturated_of_parseWithin h
  have hb := (parseWithin_running g strategy lexer input turns).built
  refine ⟨?_, ?_, ?_, ?_, ?_, ?_, ?_, ?_, ?_⟩
  · intro n m o f ho hf hw hr hp hv
    rw [← joined_eq]
    exact hs.joined n m o f ho hf ⟨hw, hr, hp, hv⟩
  · exact fun n o s p m ho hn hsc hp hm => (hs.handled n o ho).scanned s hn hsc p hp m hm
  · intro n o s x m ho hn hsc hfl hx hm
    have hp : o.stop = .anywhere := (hb.start_eq_anywhere_iff ⟨n, ho⟩).1 (isFloating_iff.1 hfl)
    exact (hs.handled n o ho).scannedAnywhere s hn hsc hp x hx m hm
  · intro hk n o name r ho hw hl
    exact (hs.handled n o ho).wanted (predictsWanted_iff.2 hk) name hw r
      (Grammar.mem_rulesFor.2 hl)
  · intro hk n f r hf hr hfirst
    exact (hs.handled n f hf).started (isBottomUp_iff.2 hk) hr r
      (Grammar.mem_rulesStartingWith.2 hfirst)
  · intro hk n o r ho hw he
    exact (hs.handled n o ho).emptyWanted (isBottomUp_iff.2 hk) _ hw r
      (Grammar.mem_emptyRulesFor.2 ⟨rfl, he⟩)
  · exact fun hk r he => hs.empties (isBottomUp_iff.2 hk) r (Grammar.mem_emptyRules.2 he)
  · intro hk r s x m hfirst hsc hx hm
    exact hs.seeds (isBottomUp_iff.2 hk) r (Grammar.mem_terminalRules.2 ⟨s, hfirst, hsc⟩) s hfirst x
      hx m hm
  · exact fun hk r he => hs.entities hk r (Grammar.mem_select.2 he)

/-- The rule of an entity that starts with its own nonterminal, beside an empty one. -/
def leftRecursive : Grammar :=
  ⟨#[(Rule.of "S" [.nonterminal "S", .literal "a"]).withEntity true, .of "S" []]⟩

/-- A lexer that goes on by one from each of the first eight offsets, beyond the input too. -/
def pastEnd : Lexer := fun _ _ offset => if offset < 8 then some ⟨[], offset + 1⟩ else none

/-- With a lexer that leaves the empty input behind, the left recursive grammar needs more turns than
there are items within the input; where it succeeds, it leaves a closed chart. -/
theorem parse_closed_leftRecursive :
    ((new leftRecursive .topDown pastEnd).parse []).2 ≠ none ∧
      (parseWithin leftRecursive .topDown pastEnd [] 20).2 = none ∧
      Closed .topDown pastEnd [] (parseWithin leftRecursive .topDown pastEnd [] 20).1 := by
  have h : (parseWithin leftRecursive .topDown pastEnd [] 20).2 = none := by
    decide +kernel
  exact ⟨by decide +kernel, h, parse_closed _ _ _ _ _ h⟩

end Parser

end ChartParsing
