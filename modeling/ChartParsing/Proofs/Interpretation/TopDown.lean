import ChartParsing.Proofs.Agreement.Readings
import ChartParsing.Proofs.Interpretation.Trees

/-!
# Readings and derivation trees

Top down every edge of a chart has a place, and without priorities all of its derivations count.  There is
one of them for each split of its stretch, so by induction along the links an edge unfolds into the
readings of all rows of trees for the symbols left of its dot, each row once: `Rows`.

* **`Found.exists_brings`**: one derivation brings the rows that end at its split.
* **`Parsed.exists_rows`**: an edge unfolds into all rows, if no edge leads back to itself.
* **`results_topDown`**: the results of a finished edge are the readings of its derivation trees, one for
  each of them.
-/

namespace ChartParsing

namespace Parser

open Relation

variable {g : Grammar} {strategy : Strategy} {lexer : Lexer} {input : Text} {c : Chart g.rules}
  {i : Item g.rules} {r : g.RuleId} {d s p e n : Nat} {δ : Derivation} {y : Option g.RuleId}

/-- The lexer answers one text wherever it accepts. -/
def OneText (lexer : Lexer) (input : Text) : Prop :=
  ∀ t p m, lexer t input p = some m → ∃ text, m.texts = [text]

/-- The edge unfolds into the readings of these rows of trees: all of those for the symbols left of its
dot, and each once. -/
structure Rows (lexer : Lexer) (input : Text) (c : Chart g.rules) (n : Nat)
    (rows : List (List (Tree g.rules))) : Prop where
  nodup : rows.Nodup
  mem_iff : ∀ i s e, c.item? n = some i → i.start = .offset s → i.stop = .offset e →
    ∀ ts, ts ∈ rows ↔ Subtrees lexer input i.number i.dot s e ts
  unfolded : ∀ i, c.item? n = some i → c.unfolded n = i.expansion (rows.map Tree.readings)

/-- It is enough to look at an edge with the place that it has. -/
theorem Rows.of_place {rows : List (List (Tree g.rules))} (hi : c.item? n = some i)
    (hs : i.start = .offset s) (he : i.stop = .offset e) (hnodup : rows.Nodup)
    (hmem : ∀ ts, ts ∈ rows ↔ Subtrees lexer input i.number i.dot s e ts)
    (hunf : c.unfolded n = i.expansion (rows.map Tree.readings)) : Rows lexer input c n rows where
  nodup := hnodup
  mem_iff := by
    intro j s' e' hj hs' he'
    obtain rfl := Option.some.inj (hi.symm.trans hj)
    obtain rfl := Position.offset.inj (hs.symm.trans hs')
    obtain rfl := Position.offset.inj (he.symm.trans he')
    exact hmem
  unfolded := by
    intro j hj
    obtain rfl := Option.some.inj (hi.symm.trans hj)
    exact hunf

/-! ### One derivation -/

/-- Top down an edge over a stretch has it as its place. -/
theorem Built.place_of_over (hc : Built .topDown lexer input c) (hi : c.item? n = some i)
    (h : i.Over s e) : i.start = .offset s ∧ i.stop = .offset e := by
  rcases h with h | ⟨h, -⟩
  · exact h
  · exact absurd h (hc.start_ne_anywhere ⟨n, hi⟩)

/-- What an open edge unfolds into, for the edges that it is put into. -/
theorem Rows.toArguments {rows : List (List (Tree g.rules))} (h : Rows lexer input c n rows)
    (hi : c.item? n = some i) (hr : i.isReduced = false) :
    (c.unfolded n).toArguments = rows.map Tree.readings := by
  rw [h.unfolded i hi, Item.expansion, hr]
  rfl

/-- What a finished edge unfolds into: the readings of the trees with these rows below them. -/
theorem Rows.toReadings {rows : List (List (Tree g.rules))} (h : Rows lexer input c n rows)
    (hi : c.item? n = some i) (hr : i.isReduced = true) (hs : i.start = .offset s)
    (he : i.stop = .offset e) :
    (c.unfolded n).toReadings = (rows.map (Tree.node i.number s e)).map Tree.reading := by
  rw [h.unfolded i hi, Item.expansion, if_pos hr]
  show (rows.map Tree.readings).map i.reading = _
  rw [List.map_map, List.map_map]
  refine List.map_congr_left (fun ts _ => ?_)
  show (Tree.readings ts).apply i.rule.action i.rule.weight i.lhs i.start i.stop = _
  rw [hs, he]
  rfl

/-- The rows of the open edge of a derivation. -/
theorem Rows.mem_base_iff {base : Nat} {o : Item g.rules} {rows : List (List (Tree g.rules))}
    (hc : Built .topDown lexer input c) (h : Rows lexer input c base rows)
    (ho : c.item? base = some o) (hover : o.Over s p) (hn : o.number = i.number)
    (hd : o.dot + 1 = i.dot) (hdot : i.dot = d + 1) (ts : List (Tree g.rules)) :
    ts ∈ rows ↔ Subtrees lexer input i.number d s p ts := by
  obtain ⟨hs, hp⟩ := hc.place_of_over ho hover
  obtain rfl : o.dot = d := by omega
  rw [h.mem_iff o s p ho hs hp, hn]

/-- What one derivation of an edge brings: the rows that end at the split where it was found, each once. -/
structure Brings (lexer : Lexer) (input : Text) (c : Chart g.rules) (i : Item g.rules) (d s e : Nat)
    (δ : Derivation) (rows : List (List (Tree g.rules))) : Prop where
  nodup : rows.Nodup
  ends : ∃ p y, Found lexer input c i s p e δ y ∧
    ∀ ts, ts ∈ rows ↔ Ends lexer input i.number d s p e y ts
  contribution : c.contribution i c.unfolded δ = rows.map Tree.readings

/-- **One derivation over a terminal** brings the rows of its open edge, each with a leaf behind it. -/
theorem brings_of_terminal {base : Nat} {o : Item g.rules} {t : Symbol} {text : String}
    {rows : List (List (Tree g.rules))} (hc : Built .topDown lexer input c) (hdot : i.dot = d + 1)
    (he : i.stop = .offset e) (ho : c.item? base = some o) (hn : o.number = i.number)
    (hd : o.dot + 1 = i.dot) (hover : o.Over s p) (ht : o.next? = some t)
    (hnt : t.isNonterminal = false) (hm : lexer t input p = some ⟨[text], e⟩)
    (hrows : Rows lexer input c base rows) :
    Brings lexer input c i d s e ⟨some base, none, some [text]⟩
      (Tree.rows rows [.leaf text p e]) where
  nodup := Tree.nodup_rows hrows.nodup (List.nodup_singleton _)
  ends := by
    refine ⟨p, none, .terminal ho hn hd hover ht hnt hm rfl, fun ts => ?_⟩
    have ht' : (g.rule i.number).rhs[d]? = some t := by
      obtain rfl : o.dot = d := by omega
      rw [← hn]
      exact ht
    rw [Tree.mem_rows, ends_terminal_iff ht' hnt hm]
    simp only [hrows.mem_base_iff hc ho hover hn hd hdot, List.mem_singleton, exists_eq_left]
  contribution := by
    have hplace := (hc.place_of_over ho hover).2
    unfold Chart.contribution
    dsimp only
    rw [hrows.toArguments ho (not_isReduced_of_next? ht), ho, ← Tree.product_readings]
    dsimp only [Item.leaves]
    rw [hplace, he]
    rfl

/-- **One derivation over a finished edge** brings the rows of its open edge, each with each of the trees
behind it that the finished edge has. -/
theorem brings_of_nonterminal {base child : Nat} {o f : Item g.rules}
    {rows rows' : List (List (Tree g.rules))} (hc : Built .topDown lexer input c)
    (hdot : i.dot = d + 1) (ho : c.item? base = some o) (hf : c.item? child = some f)
    (hi : i = o.joined f) (hover : o.Over s p) (hover' : f.Over p e) (hdf : f.dot = f.rule.length)
    (ht : o.Takes f) (hrows : Rows lexer input c base rows)
    (hrows' : Rows lexer input c child rows') :
    Brings lexer input c i d s e ⟨some base, some child, none⟩
      (Tree.rows rows (rows'.map (Tree.node f.number p e))) where
  nodup := Tree.nodup_rows hrows.nodup (hrows'.nodup.map (fun a b h => by simpa using h))
  ends := by
    refine ⟨p, some f.number, .nonterminal ho hf hi hover hover' hdf ht, fun ts => ?_⟩
    obtain ⟨hfs, hfe⟩ := hc.place_of_over hf hover'
    have hn : o.number = i.number := by
      rw [hi]
      rfl
    have hd : o.dot + 1 = i.dot := by
      rw [hi]
      rfl
    obtain rfl : o.dot = d := by omega
    have hnext : (g.rule i.number).rhs[o.dot]? = some (.nonterminal (g.rule f.number).lhs) := by
      rw [← hn]
      exact next?_of_wanted? ht.wanted
    have hv : (g.rule i.number).operators.veto? (g.rule f.number).operators o.dot
        (g.rule i.number).length = none := by
      rw [← hn]
      exact ht.allowed
    have hmem' (ts : List (Tree g.rules)) :
        ts ∈ rows' ↔ Subtrees lexer input f.number (g.rule f.number).length p e ts := by
      rw [hrows'.mem_iff f p e hf hfs hfe, hdf]
      rfl
    rw [Tree.mem_rows, ends_nonterminal_iff hnext hv]
    simp only [hrows.mem_base_iff hc ho hover hn hd hdot, List.mem_map, hmem']
    constructor
    · rintro ⟨row, hrow, _, ⟨row', hrow', rfl⟩, h⟩
      exact ⟨row, row', hrow, hrow', h⟩
    · rintro ⟨row, row', hrow, hrow', h⟩
      exact ⟨row, hrow, _, ⟨row', hrow', rfl⟩, h⟩
  contribution := by
    obtain ⟨hfs, hfe⟩ := hc.place_of_over hf hover'
    unfold Chart.contribution
    dsimp only
    rw [hrows.toArguments ho (not_isReduced_of_next? (next?_of_wanted? ht.wanted)),
      hrows'.toReadings hf ht.reduced hfs hfe, Tree.product_readings]

/-- **Each derivation** brings the rows that end at its split, if the edges that it refers to unfold into
theirs. -/
theorem Found.exists_brings (hc : Built .topDown lexer input c) (hone : OneText lexer input)
    (hdot : i.dot = d + 1) (he : i.stop = .offset e) (h : Found lexer input c i s p e δ y)
    (ih : ∀ m ∈ δ.links, ∃ rows, Rows lexer input c m rows) :
    ∃ rows, Brings lexer input c i d s e δ rows := by
  cases h with
  | @terminal base o t m ho hn hd hover ht hnt hm hstop =>
      obtain ⟨rows, hrows⟩ := ih base (by simp [Derivation.links])
      obtain ⟨text, htexts⟩ := hone t p m hm
      obtain rfl : m = ⟨[text], e⟩ := by rw [← htexts, ← hstop]
      exact ⟨_, brings_of_terminal hc hdot he ho hn hd hover ht hnt hm hrows⟩
  | @nonterminal base child o f ho hf hi hover hover' hdf ht =>
      obtain ⟨rows, hrows⟩ := ih base (by simp [Derivation.links])
      obtain ⟨rows', hrows'⟩ := ih child (by simp [Derivation.links])
      exact ⟨_, brings_of_nonterminal hc hdot ho hf hi hover hover' hdf ht hrows hrows'⟩

/-! ### All derivations of an edge -/

/-- A row of trees ends at a split for which there is a derivation, and that counts. -/
theorem exists_counts_of_ends (hc : Parsed .topDown lexer input c)
    (hp : ∀ r : g.RuleId, (g.rule r).priority = none) (hi : c.item? n = some i) (hd : i.dot = d + 1)
    (hs : i.start = .offset s) (he : i.stop = .offset e) {ts : List (Tree g.rules)}
    (h : Ends lexer input i.number d s p e y ts) :
    ∃ δ ∈ c.derivations n, Found lexer input c i s p e δ y := by
  obtain ⟨x, hx, rfl⟩ := Chart.item?_eq_some.1 hi
  refine exists_counts_topDown hc hx (Item.eq_of_fields hd hs he) ⟨h.splits, fun b hb => ?_⟩
  obtain ⟨r, -, hr⟩ := Option.bind_eq_some_iff.1 hb
  exact absurd hr (by simp [hp r])

/-- Every derivation that counts brings rows. -/
theorem Parsed.exists_brings (hc : Parsed .topDown lexer input c) (hone : OneText lexer input)
    (hi : c.item? n = some i) (hover : i.Over s e) (hd : i.dot = d + 1) (he : i.stop = .offset e)
    (ih : ∀ m, c.Needs n m → ∃ rows, Rows lexer input c m rows) :
    ∃ rows : Derivation → List (List (Tree g.rules)),
      ∀ δ ∈ c.derivations n, Brings lexer input c i d s e δ (rows δ) := by
  have hex (δ : Derivation) : ∃ rows, δ ∈ c.derivations n →
      Brings lexer input c i d s e δ rows := by
    by_cases hδ : δ ∈ c.derivations n
    · obtain ⟨p, y, hfound⟩ := hc.found_of_counts hi hover hδ
      obtain ⟨rows, hr⟩ := hfound.exists_brings hc.built hone hd he (fun m hm => ih m ⟨δ, hδ, hm⟩)
      exact ⟨rows, fun _ => hr⟩
    · exact ⟨[], fun h => absurd h hδ⟩
  choose rows hall using hex
  exact ⟨rows, hall⟩

/-- Rows that two derivations share end at one split, for which one derivation counts. -/
theorem nodup_flatMap_rows (hc : Parsed .topDown lexer input c) (hi : c.item? n = some i)
    {rows : Derivation → List (List (Tree g.rules))}
    (hall : ∀ δ ∈ c.derivations n, Brings lexer input c i d s e δ (rows δ)) :
    ((c.derivations n).flatMap rows).Nodup := by
  refine List.nodup_flatMap.2 ⟨fun δ hδ => (hall δ hδ).nodup, ?_⟩
  refine (hc.wellFormed.nodup_derivations n).imp_of_mem (fun {a b} ha hb hab ts hts hts' => ?_)
  obtain ⟨p, y, hfound, hmem⟩ := (hall a ha).ends
  obtain ⟨q, y', hfound', hmem'⟩ := (hall b hb).ends
  obtain ⟨rfl, rfl⟩ := ((hmem ts).1 hts).unique ((hmem' ts).1 hts')
  obtain ⟨x, hx, rfl⟩ := Chart.item?_eq_some.1 hi
  exact hab (Found.eq_of_counts hc hx ha hb hfound hfound')

/-- Every row is brought by some derivation. -/
theorem mem_flatMap_rows (hc : Parsed .topDown lexer input c)
    (hp : ∀ r : g.RuleId, (g.rule r).priority = none) (hi : c.item? n = some i) (hd : i.dot = d + 1)
    (hs : i.start = .offset s) (he : i.stop = .offset e)
    {rows : Derivation → List (List (Tree g.rules))}
    (hall : ∀ δ ∈ c.derivations n, Brings lexer input c i d s e δ (rows δ))
    (ts : List (Tree g.rules)) :
    ts ∈ (c.derivations n).flatMap rows ↔ Subtrees lexer input i.number (d + 1) s e ts := by
  rw [subtrees_succ, List.mem_flatMap]
  constructor
  · rintro ⟨δ, hδ, hts⟩
    obtain ⟨p, y, -, hmem⟩ := (hall δ hδ).ends
    exact ⟨p, y, (hmem ts).1 hts⟩
  · rintro ⟨p, y, hends⟩
    obtain ⟨δ, hδ, hfound⟩ := exists_counts_of_ends hc hp hi hd hs he hends
    obtain ⟨q, y', hfound', hmem⟩ := (hall δ hδ).ends
    obtain ⟨rfl, rfl⟩ := hfound.unique hfound'
    exact ⟨δ, hδ, (hmem ts).2 hends⟩

/-- One step of the induction: an edge unfolds into all rows, if what its derivations refer to does. -/
theorem Parsed.exists_rows_of_needs (hc : Parsed .topDown lexer input c)
    (hone : OneText lexer input) (hp : ∀ r : g.RuleId, (g.rule r).priority = none)
    (hi : c.item? n = some i) (hshallow : Shallow c.Needs c.size n)
    (ih : ∀ m, c.Needs n m → ∃ rows, Rows lexer input c m rows) :
    ∃ rows, Rows lexer input c n rows := by
  obtain ⟨s, e, hover, -⟩ := hc.built.exists_over ⟨n, hi⟩
  obtain ⟨hs, he⟩ := hc.built.place_of_over hi hover
  have hunf := Chart.unfolded_eq hshallow hi
  cases hd : i.dot with
  | zero =>
      have hpred : i.isPredicted = true := decide_eq_true hd
      rw [if_pos hpred] at hunf
      have hse : s = e := by
        have hplace := hc.built.start_eq_stop ⟨n, hi⟩ hd
        exact Position.offset.inj (hs.symm.trans (hplace.trans he))
      refine ⟨[[]], .of_place hi hs he (List.nodup_singleton _) (fun ts => ?_) hunf⟩
      rw [hd, subtrees_zero, List.mem_singleton]
      exact ⟨fun h => ⟨hse, h⟩, And.right⟩
  | succ d =>
      have hpred : i.isPredicted ≠ true := by simp [Item.isPredicted, hd]
      rw [if_neg hpred] at hunf
      obtain ⟨rows, hall⟩ := hc.exists_brings hone hi hover hd he ih
      refine ⟨(c.derivations n).flatMap rows,
        .of_place hi hs he (nodup_flatMap_rows hc hi hall) (fun ts => ?_) ?_⟩
      · rw [hd]
        exact mem_flatMap_rows hc hp hi hd hs he hall ts
      · rw [hunf, List.map_flatMap]
        congr 1
        exact List.flatMap_congr (fun δ hδ => (hall δ hδ).contribution)

/-- **An edge unfolds into all rows of trees**, and each of them once, where no edge leads back to
itself. -/
theorem Parsed.exists_rows (hc : Parsed .topDown lexer input c) (hone : OneText lexer input)
    (hp : ∀ r : g.RuleId, (g.rule r).priority = none) (hacyclic : ∀ n, ¬ TransGen c.Links n n)
    (n : Nat) : ∃ rows, Rows lexer input c n rows := by
  have hnone {m : Nat} (hm : c.item? m = none) : ∃ rows, Rows lexer input c m rows :=
    ⟨[], List.nodup_nil, by simp [hm], by simp [hm]⟩
  cases hn : c.item? n with
  | none => exact hnone hn
  | some i =>
      refine Shallow.induction (P := fun n => ∃ rows, Rows lexer input c n rows)
        (hc.built.shallow hacyclic hn) (fun m ih => ?_)
      cases hm : c.item? m with
      | none => exact hnone hm
      | some j => exact hc.exists_rows_of_needs hone hp hm (hc.built.shallow hacyclic hm) ih

theorem oneText_skippingBlanks (input : Text) : OneText .skippingBlanks input :=
  fun _ _ _ hm => Lexer.exists_text_of_skippingBlanks hm

/-- **No interpretation is lost, and none is there twice.**  Without gaps and priorities, and if no edge of
the chart leads back to itself, the results of a finished edge are the readings of the derivation trees of
its rule over its stretch, one for each tree. -/
theorem results_topDown (g : Grammar) (input : Text) (hg : g.NoGaps)
    (hp : ∀ r : g.RuleId, (g.rule r).priority = none)
    (hacyclic : ∀ n, ¬ TransGen (finalChart g .topDown .skippingBlanks input).Links n n) :
    ((new g .topDown .skippingBlanks).parse input).2 = none ∧
      ∀ n i, (finalChart g .topDown .skippingBlanks input).item? n = some i → i.isReduced = true →
        ∃ s e, i.start = .offset s ∧ i.stop = .offset e ∧ ∃ trees : List (Tree g.rules),
          trees.Nodup ∧ (∀ t, t ∈ trees ↔ IsTree .skippingBlanks input i.number s e t) ∧
          ((Forest.new (finalChart g .topDown .skippingBlanks input)).results n).2 =
            trees.map Tree.reading := by
  have hl := Lexer.skippingBlanks_within input
  have hc := parsed_finalChart (g := g) .topDown hl hg
  refine ⟨parse_succeeds _ input hl hg, fun n i hi hr => ?_⟩
  generalize finalChart g .topDown .skippingBlanks input = c at hacyclic hc hi ⊢
  obtain ⟨s, e, hover, -⟩ := hc.built.exists_over ⟨n, hi⟩
  obtain ⟨hs, he⟩ := hc.built.place_of_over hi hover
  obtain ⟨rows, hrows⟩ := hc.exists_rows (oneText_skippingBlanks input) hp hacyclic n
  have hdot : i.dot = (g.rule i.number).length :=
    Nat.le_antisymm (hc.built.dot_le_length ⟨n, hi⟩) (of_decide_eq_true hr)
  refine ⟨s, e, hs, he, rows.map (Tree.node i.number s e),
    hrows.nodup.map (fun a b h => by simpa using h), fun t => ?_, ?_⟩
  · rw [List.mem_map]
    constructor
    · rintro ⟨ts, hts, rfl⟩
      exact ⟨ts, rfl, hdot ▸ (hrows.mem_iff i s e hi hs he ts).1 hts⟩
    · rintro ⟨ts, rfl, hts⟩
      exact ⟨ts, (hrows.mem_iff i s e hi hs he ts).2 (hdot ▸ hts), rfl⟩
  · have hexpand := (Forest.expand_eq (Forest.right_new c) rfl (hc.built.shallow hacyclic hi)).1
    show ((Forest.new c).expand n).2.toReadings = _
    rw [hexpand, hrows.toReadings hi hr hs he]

/-- Sums without brackets, which have more than one tree. -/
def additions : Grammar :=
  ⟨#[(Rule.of "S" [.nonterminal "S", .literal "+", .nonterminal "S"]).withEntity true,
    .of "S" [.literal "1"]]⟩

/-- The sum `1+1+1` has two trees and two results. -/
theorem results_additions : ∃ trees : List (Tree additions.rules), trees.Nodup ∧ trees.length = 2 ∧
    ∀ t, t ∈ trees ↔ IsTree .skippingBlanks ['1', '+', '1', '+', '1'] ⟨0, by decide⟩ 0 5 t := by
  have hg : additions.NoGaps := by
    unfold Grammar.NoGaps
    decide
  have hacyclic := Chart.acyclic_iff.2 (by decide +kernel : ∀ n < (finalChart additions .topDown
    .skippingBlanks ['1', '+', '1', '+', '1']).size, ((finalChart additions .topDown .skippingBlanks
      ['1', '+', '1', '+', '1']).within [n]).contains n = false)
  obtain ⟨-, hall⟩ := results_topDown additions ['1', '+', '1', '+', '1'] hg (by decide) hacyclic
  -- the edge of the whole input
  obtain ⟨s, e, hs, he, trees, hnodup, hmem, hresults⟩ :=
    hall 17 ⟨⟨0, by decide⟩, 3, .offset 0, .offset 5⟩ (by decide +kernel) (by decide)
  obtain rfl := Position.offset.inj hs
  obtain rfl := Position.offset.inj he
  refine ⟨trees, hnodup, ?_, hmem⟩
  have hlength := congrArg List.length hresults
  rw [List.length_map] at hlength
  rw [← hlength]
  decide +kernel

end Parser

end ChartParsing
