import ChartParsing.Proofs.Parsing.Saturation
import ChartParsing.Proofs.Terminal.Matches
import Mathlib.Data.List.Perm.Subperm

/-!
# Parsing ends

With a lexer that stays within the input all items of a chart do.  There are finitely many of those, at
most `edgeBound`, and a chart has each of them once.  Every turn adds to the processed edges, so the
turns that `parse` allows for are enough: **`parse_ne_outOfSteps`**.

Without gaps nothing is ever deferred, and then a parse always succeeds: **`parse_succeeds`**.
-/

namespace ChartParsing

variable {rules : Array Rule}

/-! ### Items within a text -/

/-- The item lies within a text of this many bytes, and its dot within its rule. -/
structure Item.Within (length : Nat) (i : Item rules) : Prop where
  dot : i.dot ≤ i.rule.length
  span : i.start = .anywhere ∧ i.stop = .anywhere ∨
    ∃ s e, s ≤ length ∧ e ≤ length ∧ i.start = .offset s ∧ i.stop = .offset e

/-- The pairs of places of items within a text. -/
def spansWithin (length : Nat) : List (Position × Position) :=
  (.anywhere, .anywhere) :: (List.range (length + 1)).flatMap (fun s =>
    (List.range (length + 1)).map (fun e => (.offset s, .offset e)))

/-- The items within a text. -/
def itemsWithin (rules : Array Rule) (length : Nat) : List (Item rules) :=
  (List.finRange rules.size).flatMap (fun r =>
    (List.range (rules[r].length + 1)).flatMap (fun d =>
      (spansWithin length).map (fun span => ⟨r, d, span.1, span.2⟩)))

theorem length_flatMap_of_forall {α β : Type} {list : List α} {f : α → List β} {n : Nat}
    (h : ∀ a ∈ list, (f a).length = n) : (list.flatMap f).length = list.length * n := by
  induction list with
  | nil => simp
  | cons a list ih =>
      rw [List.flatMap_cons, List.length_append, h a (by simp),
        ih (fun b hb => h b (List.mem_cons_of_mem _ hb)), List.length_cons, Nat.succ_mul,
        Nat.add_comm]

theorem length_spansWithin (length : Nat) :
    (spansWithin length).length = (length + 1) * (length + 1) + 1 := by
  simp [spansWithin, length_flatMap_of_forall (n := length + 1)]

theorem Item.Within.mem {length : Nat} {i : Item rules} (h : i.Within length) :
    i ∈ itemsWithin rules length := by
  obtain ⟨r, d, p, q⟩ := i
  refine List.mem_flatMap.2 ⟨r, List.mem_finRange r, List.mem_flatMap.2
    ⟨d, List.mem_range.2 (Nat.lt_succ_of_le h.dot), List.mem_map.2 ⟨(p, q), ?_, rfl⟩⟩⟩
  rcases h.span with ⟨hp, hq⟩ | ⟨s, e, hs, he, hp, hq⟩
  · obtain rfl : p = .anywhere := hp
    obtain rfl : q = .anywhere := hq
    simp [spansWithin]
  · obtain rfl : p = .offset s := hp
    obtain rfl : q = .offset e := hq
    simp [spansWithin]
    omega

/-- No rule of the grammar has a gap. -/
def Grammar.NoGaps (g : Grammar) : Prop := ∀ r : g.RuleId, ∀ s ∈ (g.rule r).rhs, s.isGap = false

theorem Grammar.NoGaps.isScannable {g : Grammar} (hg : g.NoGaps) {r : g.RuleId} {d : Nat}
    {s : Symbol} (hs : (g.rule r).rhs[d]? = some s) (hn : s.isNonterminal = false) :
    s.isScannable = true := by
  simp [Symbol.isScannable, hn, hg r s (List.mem_of_getElem? hs)]

namespace Parser

variable {g : Grammar} {strategy : Strategy} {lexer : Lexer} {input : Text}
  {c c' : Chart g.rules} {i : Item g.rules} {n : Nat}

theorem length_itemsWithin (g : Grammar) (length : Nat) :
    (itemsWithin g.rules length).length = edgeBound g length := by
  have hsum (rules : List Rule) (k : Nat) (f : Rule → Nat) :
      rules.foldl (fun n r => n + f r) k = k + (rules.map f).sum := by
    induction rules generalizing k with
    | nil => rfl
    | cons r rules ih => rw [List.foldl_cons, ih, List.map_cons, List.sum_cons, Nat.add_assoc]
  have hmap : (List.finRange g.rules.size).map (fun r => g.rules[r]) = g.rules.toList := by
    apply List.ext_getElem
    · simp
    · intro k _ _
      simp
  rw [edgeBound, ← Array.foldl_toList, hsum, Nat.zero_add, ← hmap, List.map_map, itemsWithin,
    List.length_flatMap]
  congr 1
  refine List.map_congr_left (fun r _ => ?_)
  rw [length_flatMap_of_forall (n := (length + 1) * (length + 1) + 1), List.length_range]
  · rfl
  · intro d _
    rw [List.length_map, length_spansWithin]

/-- All items of a chart lie within the input, if the lexer stays there. -/
theorem Built.within (hc : Built strategy lexer input c) (hl : lexer.Within input)
    (hi : c.Has i) : i.Within input.byteLength := by
  refine ⟨hc.dot_le_length hi, ?_⟩
  refine hc.forall_item (P := fun i => i.start = .anywhere ∧ i.stop = .anywhere ∨
    ∃ s e, s ≤ input.byteLength ∧ e ≤ input.byteLength ∧ i.start = .offset s ∧
      i.stop = .offset e) ?_ hi
  intro c e _ hall ha
  cases ha with
  | predicted h =>
      cases h with
      | entity hs hr => exact .inr ⟨0, 0, Nat.zero_le _, Nat.zero_le _, rfl, rfl⟩
      | seed hs hr hf hx hm =>
          have hx' := Symbol.start_le_of_mem_occurrences hx
          exact .inr ⟨_, _, hx', hx', rfl, rfl⟩
      | empty hs hr => exact .inl ⟨rfl, rfl⟩
      | wanted hs hi hw hr =>
          rcases hall _ ⟨_, hi⟩ with ⟨-, he⟩ | ⟨_, e, -, he, -, hq⟩
          · exact .inl ⟨he, he⟩
          · exact .inr ⟨e, e, he, he, hq, hq⟩
      | emptyWanted hs hi hw hr =>
          rcases hall _ ⟨_, hi⟩ with ⟨-, he⟩ | ⟨_, e, -, he, -, hq⟩
          · exact .inl ⟨he, he⟩
          · exact .inr ⟨e, e, he, he, hq, hq⟩
      | started hs hi hd hr =>
          rcases hall _ ⟨_, hi⟩ with ⟨hs, -⟩ | ⟨s, _, hs, -, hp, -⟩
          · exact .inl ⟨hs, hs⟩
          · exact .inr ⟨s, s, hs, hs, hp, hp⟩
  | @joined _ _ o f ho hf ht =>
      simp only [Item.joined, Item.step]
      rcases hall o ⟨_, ho⟩ with ⟨ho, ho'⟩ | ⟨s, e, hs, he, ho, ho'⟩ <;>
        rcases hall f ⟨_, hf⟩ with ⟨hf, hf'⟩ | ⟨s', e', hs', he', hf, hf'⟩ <;>
        simp [Position.orElse, *]
  | @scanned _ o _ _ _ ho hn hs hp hm =>
      have hstop := hl _ _ _ hm
      rcases hall o ⟨_, ho⟩ with ⟨-, he⟩ | ⟨s, e, hs, -, ho, -⟩
      · exact absurd (he.symm.trans hp) (by simp)
      · exact .inr ⟨s, _, hs, hstop, ho, rfl⟩
  | scannedAnywhere ho hn hs hp hx hm =>
      exact .inr ⟨_, _, Symbol.start_le_of_mem_occurrences hx, hl _ _ _ hm, rfl, rfl⟩
  | @filled _ _ o _ gap _ _ m hs ho hg hp hf hr hq hlt hle hm =>
      have hstop : m.stop ≤ input.byteLength := by
        obtain ⟨text, ht, -, rfl⟩ := Gap.matchSpan?_eq_some.1 hm
        exact Text.le_of_slice? ht
      rcases hall o ⟨_, ho⟩ with ⟨-, he⟩ | ⟨s, e, hs, -, ho, -⟩
      · exact absurd (he.symm.trans hp) (by simp)
      · exact .inr ⟨s, _, hs, hstop, ho, rfl⟩

/-- **A chart has no more edges than there are items within the input.** -/
theorem Built.size_le (hc : Built strategy lexer input c) (hw : c.WellFormed)
    (hl : lexer.Within input) : c.size ≤ edgeBound g input.byteLength := by
  have hnodup : (c.edges.toList.map Edge.item).Nodup := by
    refine List.pairwise_iff_getElem.2 (fun a b ha hb hlt hab => ?_)
    rw [List.length_map, Array.length_toList] at ha hb
    simp only [List.getElem_map, Array.getElem_toList] at hab
    have := hw.unique a b c.edges[a].item
      (Chart.item?_eq_some.2 ⟨_, Array.getElem?_eq_getElem ha, rfl⟩)
      (Chart.item?_eq_some.2 ⟨_, Array.getElem?_eq_getElem hb, hab.symm⟩)
    omega
  have hsub : c.edges.toList.map Edge.item ⊆ itemsWithin g.rules input.byteLength := by
    intro i hi
    obtain ⟨e, he, rfl⟩ := List.mem_map.1 hi
    obtain ⟨n, hn, rfl⟩ := List.getElem_of_mem he
    rw [Array.length_toList] at hn
    exact (hc.within hl ⟨n, Chart.item?_eq_some.2
      ⟨_, Array.getElem?_eq_getElem hn, by rw [Array.getElem_toList]⟩⟩).mem
  have := (List.subperm_of_subset hnodup hsub).length_le
  rwa [List.length_map, Array.length_toList, length_itemsWithin] at this

theorem Running.processed_le (h : Running strategy lexer input c) :
    c.processed.length ≤ c.size := by
  have := h.wellFormed.numbered.length_eq
  simp only [List.length_append, List.length_range] at this
  omega

/-! ### The turns that are needed -/

theorem process_processed (h : Running strategy lexer input c) (hn : c.next? = some (n, c')) :
    (process strategy lexer input c' n).processed.length = c.processed.length + 1 := by
  obtain ⟨i, hi, hgap⟩ := h.exists_next hn
  rw [(process_grows strategy lexer input hi hgap).processed, (Chart.next?_eq_some hn).2]
  simp

theorem gapAt_ne_outOfSteps : gapAt i ≠ .error .outOfSteps := by
  unfold gapAt
  split
  · simp
  · split <;> simp

theorem fillGaps_ne_outOfSteps (input : Text) (c : Chart g.rules) (numbers : List Nat) :
    (fillGaps input c numbers).2 ≠ some .outOfSteps := by
  induction numbers generalizing c with
  | nil => simp [fillGaps]
  | cons n rest ih =>
      unfold fillGaps
      split
      · next c' h => exact ih c'
      · next x h =>
          unfold fillGap at h
          split at h
          · simp at h
          · next i hi =>
              split at h
              · next y hy =>
                  obtain rfl := Except.error.inj h
                  intro hx
                  exact gapAt_ne_outOfSteps (hy.trans (congrArg Except.error (Option.some.inj hx)))
              · simp at h
              · simp at h

/-- Every turn adds to the processed edges, so there are no more turns than items. -/
theorem drain_ne_outOfSteps (hl : lexer.Within input) (fuel : Nat)
    (h : Running strategy lexer input c)
    (hf : edgeBound g input.byteLength < c.processed.length + fuel) :
    (drain strategy lexer input fuel c).2 ≠ some .outOfSteps := by
  induction fuel generalizing c with
  | zero =>
      have := h.processed_le
      have := h.built.size_le h.wellFormed hl
      omega
  | succ fuel ih =>
      unfold drain
      split
      · next n c' hn =>
          have hp := process_processed h hn
          exact ih (h.turn hn).1 (by omega)
      · next hn =>
          have ht := h.takeDeferred
          split
          · simp
          · next hd =>
              have hlen : c.processed.length < c.takeDeferred.2.processed.length := by
                simpa [Chart.takeDeferred, Chart.hasDeferred, List.length_pos_iff] using hd
              dsimp only
              split
              · next hs =>
                  subst hs
                  have hg := fillGaps_grows lexer input c.takeDeferred.2 c.takeDeferred.1
                  split
                  · next c' hfill =>
                      rw [hfill] at hg
                      refine ih (ht.grows hg) ?_
                      rw [hg.processed]
                      omega
                  · next c' x hfill =>
                      have hx := fillGaps_ne_outOfSteps input c.takeDeferred.2 c.takeDeferred.1
                      rwa [hfill] at hx
              · exact ih ht (by omega)

/-- **A parse does not run out of turns.** -/
theorem parse_ne_outOfSteps (p : Parser g) (input : Text) (hl : p.lexer.Within input) :
    (p.parse input).2 ≠ some .outOfSteps :=
  drain_ne_outOfSteps hl (edgeBound g input.byteLength + 1) (begin_spec p.strategy p.lexer input).1
    (by omega)

/-! ### Grammars without gaps -/

/-- A chart of a grammar without gaps has nothing to defer. -/
theorem Running.deferred_eq_nil (h : Running strategy lexer input c) (hg : g.NoGaps) :
    c.deferred = [] := by
  refine List.eq_nil_iff_forall_not_mem.2 (fun n hn => ?_)
  obtain ⟨i, hi⟩ := Chart.exists_item_of_lt_size (h.wellFormed.lt_size (n := n) (by simp [hn]))
  obtain ⟨s, hs, hgap⟩ := (Option.any_eq_true _ _).1 (h.wellFormed.deferred n hn i hi)
  have := hg i.number s (List.mem_of_getElem? hs)
  rw [this] at hgap
  simp at hgap

theorem drain_of_noGaps (hg : g.NoGaps) (fuel : Nat) (h : Running strategy lexer input c) :
    (drain strategy lexer input fuel c).2 = none ∨
      (drain strategy lexer input fuel c).2 = some .outOfSteps := by
  induction fuel generalizing c with
  | zero => exact .inr rfl
  | succ fuel ih =>
      unfold drain
      split
      · next n c' hn => exact ih (h.turn hn).1
      · simp [Chart.hasDeferred, h.deferred_eq_nil hg]

/-- **Without gaps a parse succeeds.** -/
theorem parse_succeeds (p : Parser g) (input : Text) (hl : p.lexer.Within input) (hg : g.NoGaps) :
    (p.parse input).2 = none :=
  (drain_of_noGaps hg (edgeBound g input.byteLength + 1)
    (begin_spec p.strategy p.lexer input).1).resolve_right (parse_ne_outOfSteps p input hl)

/-- What a parse leaves for a grammar without gaps. -/
structure Parsed (strategy : Strategy) (lexer : Lexer) (input : Text) (c : Chart g.rules) : Prop
    extends Saturated strategy lexer input c where
  built : Built strategy lexer input c
  wellFormed : c.WellFormed
  staged : c.staged = []
  noGaps : g.NoGaps

theorem parsed_finalChart (strategy : Strategy) (hl : lexer.Within input) (hg : g.NoGaps) :
    Parsed strategy lexer input (finalChart g strategy lexer input) where
  toSaturated := saturated_of_parse (new g strategy lexer) input (parse_succeeds _ input hl hg)
  built := (parse_running (new g strategy lexer) input).built
  wellFormed := (parse_running (new g strategy lexer) input).wellFormed
  staged := (parse_running (new g strategy lexer) input).staged
  noGaps := hg

end Parser

end ChartParsing
