import ChartParsing.Proofs.Agreement.Entities
import ChartParsing.Proofs.Forest.Yields
import ChartParsing.Proofs.Parsing.Justification
import ChartParsing.Proofs.Parsing.Places

/-!
# What results take of the input

Without semantic actions the texts in the value of a result are what terminals and gaps have matched.
`Row` says that pieces of the input stand one behind the other, without anything left out between them
but the blanks behind terminals.

* **`Built.exists_row`**: the arguments that an edge yields are such a row, over the stretch of the edge.
* **`results_cover`**: so are all results, and those of the whole input take all of it.
-/

namespace ChartParsing

open Relation

/-- A text of the input and the blanks that were skipped behind it. -/
structure Piece where
  text : String
  blanks : Text

/-- What a piece takes of the input. -/
def Piece.covered (x : Piece) : Text := x.text.toList ++ x.blanks

/-- No rule has a semantic action. -/
def Grammar.NoActions (g : Grammar) : Prop := ∀ r : g.RuleId, (g.rule r).action = none

namespace Parser

variable {g : Grammar} {strategy : Strategy} {input : Text} {c : Chart g.rules}
  {i o f : Item g.rules} {n m base s p e : Nat} {pieces : List Piece} {args : Arguments}
  {d : Derivation}

/-! ### Rows of pieces -/

/-- The pieces stand in the input one behind the other, from one offset to another.  Each is the match of a
terminal of the grammar with all the blanks behind it, or the stretch that a gap of the grammar
accepts. -/
inductive Row (g : Grammar) (input : Text) (s : Nat) : List Piece → Nat → Prop
  | nil : Row g input s [] s
  | terminal {p q e : Nat} {pieces : List Piece} {r : g.RuleId} {t : Symbol} {text : String}
      {blanks : Text} (h : Row g input s pieces p) (ht : t ∈ (g.rule r).rhs)
      (hm : t.matchAt? input p = some ⟨[text], q⟩)
      (hl : Lexer.skippingBlanks t input p = some ⟨[text], e⟩)
      (hb : input.slice? q e = some blanks) (hblank : ∀ x ∈ blanks, isBlank x = true)
      (hend : ∀ c, input.seek? e = some c → ∀ x, c.after = some x → isBlank x = false) :
      Row g input s (pieces ++ [⟨text, blanks⟩]) e
  | gap {p e : Nat} {pieces : List Piece} {r : g.RuleId} {gap : Gap} {text : String}
      (h : Row g input s pieces p) (ht : .gap gap ∈ (g.rule r).rhs)
      (hm : gap.matchSpan? input p e = some ⟨[text], e⟩) :
      Row g input s (pieces ++ [⟨text, []⟩]) e

theorem Row.append {pieces' : List Piece} (h : Row g input s pieces p) (h' : Row g input p pieces' e) :
    Row g input s (pieces ++ pieces') e := by
  induction h' with
  | nil => rwa [List.append_nil]
  | terminal _ ht hm hl hb hblank hend ih =>
      rw [← List.append_assoc]
      exact .terminal ih ht hm hl hb hblank hend
  | gap _ ht hm ih =>
      rw [← List.append_assoc]
      exact .gap ih ht hm

/-- **A row of pieces is the input** from where it starts to where it stops. -/
theorem Row.slice?_eq (h : Row g input s pieces e) (hs : (input.seek? s).isSome = true) :
    input.slice? s e = some (pieces.flatMap Piece.covered) := by
  induction h with
  | nil => exact Text.slice?_self hs
  | @terminal p q e pieces r t text blanks _ _ hm _ hb _ _ ih =>
      obtain ⟨text', htext, hslice⟩ := Symbol.slice?_of_matchAt? hm
      obtain rfl := List.singleton_inj.1 htext
      have hpiece := Text.slice?_append hslice hb
      have hall := Text.slice?_append ih hpiece
      rw [hall, List.flatMap_append]
      simp [Piece.covered]
  | @gap p e pieces r gap text _ _ hm ih =>
      obtain ⟨part, hslice, -, heq⟩ := Gap.matchSpan?_eq_some.1 hm
      have htext : text.toList = part := by
        have hlist : [text] = [String.ofList part] := congrArg Match.texts heq
        rw [List.singleton_inj.1 hlist, String.toList_ofList]
      have hall := Text.slice?_append ih hslice
      rw [hall, List.flatMap_append]
      simp [Piece.covered, htext]

/-! ### Rows of edges -/

/-- A derivation over what stands in the input puts one piece behind the stretch of its open edge. -/
theorem Step.exists_piece (h : Step strategy .skippingBlanks input c i d) {texts : List String}
    (ht : d.texts = some texts) (hb : d.base = some base) (ho : c.item? base = some o)
    (hover : i.Over s e) : ∃ p text blanks, texts = [text] ∧ o.Over s p ∧
      ∀ pieces, Row g input s pieces p → Row g input s (pieces ++ [⟨text, blanks⟩]) e := by
  -- what the usual lexer accepts is a piece
  have hlexer {t : Symbol} {p stop : Nat} {texts' : List String} (hn : o.next? = some t)
      (hm : Lexer.skippingBlanks t input p = some ⟨texts', stop⟩) (htexts : texts' = texts) :
      ∃ text blanks, texts = [text] ∧ ∀ pieces, Row g input s pieces p →
        Row g input s (pieces ++ [⟨text, blanks⟩]) stop := by
    obtain ⟨text, q, blanks, hmatch, htext, -, hblanks, hblank, hend⟩ :=
      Lexer.skippingBlanks_covers hm
    dsimp only at htext hblanks hend
    subst htexts htext
    have hmem : t ∈ (g.rule o.number).rhs := List.mem_of_getElem? hn
    exact ⟨text, blanks, rfl, fun pieces hrow => .terminal hrow hmem hmatch hm hblanks hblank hend⟩
  cases h with
  | nonterminal _ _ _ _ _ _ _ _ _ _ => simp at ht
  | @terminal base' o' t p stop texts' ho' hr hd hn hsc hp hm hs he =>
      obtain rfl := Option.some.inj hb
      obtain rfl := Option.some.inj (ho'.symm.trans ho)
      obtain ⟨text, blanks, htext, hrow⟩ := hlexer hn hm (Option.some.inj ht)
      rcases hover with ⟨his, hie⟩ | ⟨-, hie, -⟩
      · obtain rfl := Position.offset.inj (he.symm.trans hie)
        exact ⟨p, text, blanks, htext, .inl ⟨hs.symm.trans his, hp⟩, hrow⟩
      · exact absurd (he.symm.trans hie) (by simp)
  | @occurrence base' o' t x stop texts' ho' hr hd hn hsc hp hx hm hs he =>
      obtain rfl := Option.some.inj hb
      obtain rfl := Option.some.inj (ho'.symm.trans ho)
      obtain ⟨text, blanks, htext, hrow⟩ := hlexer hn hm (Option.some.inj ht)
      rcases hover with ⟨his, hie⟩ | ⟨-, hie, -⟩
      · obtain rfl := Position.offset.inj (he.symm.trans hie)
        obtain rfl := Position.offset.inj (hs.symm.trans his)
        exact ⟨x.start, text, blanks, htext, .inr ⟨hp.1, hp.2, rfl⟩, hrow⟩
      · exact absurd (he.symm.trans hie) (by simp)
  | @gap base' child o' f gap p q text hk ho' hr hd hn hfol hf hfin hq hp hlt hle htext ha hs he =>
      obtain rfl := Option.some.inj hb
      obtain rfl := Option.some.inj (ho'.symm.trans ho)
      have hmem : .gap gap ∈ (g.rule o'.number).rhs := List.mem_of_getElem? hn
      rcases hover with ⟨his, hie⟩ | ⟨-, hie, -⟩
      · obtain rfl := Position.offset.inj (he.symm.trans hie)
        refine ⟨p, String.ofList text, [], (Option.some.inj ht).symm,
          .inl ⟨hs.symm.trans his, hp⟩, fun pieces hrow => .gap hrow hmem ?_⟩
        exact Gap.matchSpan?_eq_some.2 ⟨text, htext, ha, rfl⟩
      · exact absurd (he.symm.trans hie) (by simp)

/-- The stretch of a derivation over a finished edge is made up of those of its two edges. -/
theorem Step.exists_over (h : Step strategy .skippingBlanks input c i d)
    (hc : Built strategy .skippingBlanks input c) (hb : d.base = some base)
    (hm : d.child = some m) (ho : c.item? base = some o) (hf : c.item? m = some f)
    (hover : i.Over s e) : ∃ p, o.Over s p ∧ f.Over p e := by
  cases h with
  | @nonterminal base' child o' f' ho' hr hd hf' hn hfin hv hmeets hs he =>
      obtain rfl := Option.some.inj hb
      obtain rfl := Option.some.inj hm
      obtain rfl := Option.some.inj (ho'.symm.trans ho)
      obtain rfl := Option.some.inj (hf'.symm.trans hf)
      refine over_of_joined (hc.start_eq_anywhere_iff ⟨_, ho⟩) (hc.start_eq_anywhere_iff ⟨_, hf⟩)
        hmeets ?_
      rw [joined_eq]
      unfold Item.Over at hover ⊢
      rwa [← hs, ← he]
  | terminal _ _ _ _ _ _ _ _ _ => simp at hm
  | occurrence _ _ _ _ _ _ _ _ _ _ => simp at hm
  | gap _ _ _ _ _ _ _ _ _ _ _ _ _ _ _ _ => simp at hm

theorem textsAll_append (vs ws : List Value) :
    Value.textsAll (vs ++ ws) = Value.textsAll vs ++ Value.textsAll ws := by
  induction vs with
  | nil => rfl
  | cons v vs ih => rw [List.cons_append, Value.textsAll, Value.textsAll, ih, List.append_assoc]

theorem texts_plainValue (args : Arguments) :
    args.plainValue.texts = Value.textsAll args.values := by
  unfold Arguments.plainValue
  cases args.values with
  | nil => rfl
  | cons v vs =>
      cases vs with
      | nil => exact (List.append_nil _).symm
      | cons w vs => rfl

/-- Without an action a reading has the texts of its arguments. -/
theorem texts_reading (hg : g.NoActions) (i : Item g.rules) (args : Arguments) :
    (i.reading args).value.texts = Value.textsAll args.values := by
  have hnone : i.rule.action = none := hg i.number
  unfold Item.reading Arguments.apply
  rw [hnone]
  exact texts_plainValue args

/-- One more argument brings its texts. -/
theorem textsAll_values_append (args : Arguments) (r : Reading) :
    Value.textsAll (Arguments.values (args ++ [r])) =
      Value.textsAll args.values ++ r.value.texts := by
  have hvalues : Arguments.values (args ++ [r]) = args.values ++ [r.value] := List.map_append
  rw [hvalues, textsAll_append]
  simp [Value.textsAll]

/-- **What an edge yields is a row of pieces** over the stretch of the edge. -/
theorem Built.exists_row (hc : Built strategy .skippingBlanks input c) (hg : g.NoActions)
    (hy : c.Yields n args) (hi : c.item? n = some i) (hover : i.Over s e) :
    ∃ pieces, Row g input s pieces e ∧
      Value.textsAll args.values = pieces.map Piece.text := by
  have hstep {n : Nat} {i : Item g.rules} {d : Derivation} (hi : c.item? n = some i)
      (hd : d ∈ c.derivations n) : Step strategy .skippingBlanks input c i d := by
    obtain ⟨x, hx, hmem⟩ := Chart.exists_mem_of_mem_derivations hd
    obtain ⟨x', hx', rfl⟩ := Chart.item?_eq_some.1 hi
    obtain rfl := Option.some.inj (hx.symm.trans hx')
    exact hc.traced.step n x hx d hmem
  induction hy generalizing i s e with
  | @start n j hj hdot =>
      obtain rfl := Option.some.inj (hj.symm.trans hi)
      have hplace := hc.start_eq_stop ⟨n, hi⟩ (of_decide_eq_true hdot)
      have hse : s = e := by
        rcases hover with ⟨hs, he⟩ | ⟨-, -, h⟩
        · exact Position.offset.inj ((hs.symm.trans hplace).trans he)
        · exact h
      subst hse
      exact ⟨[], .nil, rfl⟩
  | @leaf n base j o d texts text args hj hd hb ht ho hmem _ ih =>
      obtain rfl := Option.some.inj (hj.symm.trans hi)
      obtain ⟨p, text', blanks, rfl, hop, hrow⟩ := (hstep hi hd).exists_piece ht hb ho hover
      obtain rfl := List.mem_singleton.1 hmem
      obtain ⟨pieces, hpieces, htexts⟩ := ih ho hop
      refine ⟨_, hrow pieces hpieces, ?_⟩
      rw [textsAll_values_append, htexts, List.map_append]
      rfl
  | @child n base m j f d args args' hj hd hb hm hf hr _ _ ih ih' =>
      obtain rfl := Option.some.inj (hj.symm.trans hi)
      obtain ⟨o, ho⟩ := (hstep hi hd).exists_item (m := base) (by simp [Derivation.links, hb])
      obtain ⟨p, hop, hfp⟩ := (hstep hi hd).exists_over hc hb hm ho hf hover
      obtain ⟨pieces, hpieces, htexts⟩ := ih ho hop
      obtain ⟨pieces', hpieces', htexts'⟩ := ih' hf hfp
      refine ⟨pieces ++ pieces', hpieces.append hpieces', ?_⟩
      rw [textsAll_values_append, htexts, texts_reading hg, htexts', List.map_append]

/-! ### Results -/

/-- **Results take the input exactly.**  Whatever the strategy and the input are, and whether the parse
succeeds or not: without semantic actions the texts in the value of a result are those of a row of pieces,
which make up the input between the places of the result.  Results of the whole input take all of it. -/
theorem results_cover (p : Parser g) (input : Text) (hl : p.lexer = .skippingBlanks)
    (hg : g.NoActions) (whole : Bool) :
    ∃ list, (p.parse input).1.results whole = .ok list ∧ ∀ r ∈ list, ∃ s e pieces,
      r.start = .offset s ∧ r.stop = .offset e ∧ r.value.texts = pieces.map Piece.text ∧
        Row g input s pieces e ∧ input.slice? s e = some (pieces.flatMap Piece.covered) ∧
        (whole = true → s = 0 ∧ e = input.byteLength) := by
  refine ⟨_, rfl, fun r hr => ?_⟩
  have hrun := parse_running p input
  rw [hl] at hrun
  have hc := hrun.built
  obtain ⟨n, hn, i, args, hi, hreduced, hy, rfl⟩ :=
    Forest.exists_yields_of_mem_resultsOfAll (Forest.sound_new _) hr
  have hnone : i.rule.action = none := hg i.number
  have hplaces : (i.reading args).start = i.start ∧ (i.reading args).stop = i.stop := by
    unfold Item.reading Arguments.apply
    rw [hnone]
    exact ⟨rfl, rfl⟩
  have houtermost : n ∈ (p.parse input).1.chart.outermost := by
    cases whole with
    | false => exact hn
    | true => exact (List.mem_filter.1 (mem_preferred.1 hn).1).1
  obtain ⟨j, hj, -, -, hstart⟩ :=
    (Chart.mem_entities hrun.wellFormed hrun.staged).1 (Chart.mem_outermost.1 houtermost).1
  obtain rfl := Option.some.inj (hi.symm.trans hj)
  obtain ⟨s, hs⟩ : ∃ s, i.start = .offset s := by
    cases h : i.start with
    | anywhere => exact absurd h hstart
    | offset s => exact ⟨s, rfl⟩
  obtain ⟨e, he⟩ : ∃ e, i.stop = .offset e := by
    cases h : i.stop with
    | anywhere => exact absurd ((hc.start_eq_anywhere_iff ⟨n, hi⟩).2 h) hstart
    | offset e => exact ⟨e, rfl⟩
  obtain ⟨pieces, hrow, htexts⟩ := hc.exists_row hg hy hi (.inl ⟨hs, he⟩)
  refine ⟨s, e, pieces, hplaces.1.trans hs, hplaces.2.trans he, ?_, hrow,
    hrow.slice?_eq ((hc.placed ⟨n, hi⟩).start s hs), fun hw => ?_⟩
  · rw [texts_reading hg, htexts]
  · subst hw
    obtain ⟨k, hk, hplace⟩ := (Option.any_eq_true _ _).1
      (List.mem_filter.1 (mem_preferred.1 hn).1).2
    obtain rfl := Option.some.inj (hi.symm.trans hk)
    obtain ⟨hs', he'⟩ := of_decide_eq_true hplace
    exact ⟨Position.offset.inj (hs.symm.trans hs'), Position.offset.inj (he.symm.trans he')⟩

/-- A letter, anything, and another letter. -/
def spaced : Grammar :=
  ⟨#[(Rule.of "S" [.literal "x", .gap ⟨"any", 10, false, Gap.always true⟩, .nonterminal "N"]).withEntity
      true, .of "N" [.literal "é"]]⟩

/-- The text `x -- é` with a blank behind it is one result, which takes all of it. -/
theorem results_cover_spaced : spaced.NoActions ∧
    ∃ list, ((new spaced .bottomUpWithGaps .skippingBlanks).parse
        ['x', ' ', '-', '-', ' ', 'é', ' ']).1.results true = .ok list ∧ list.length = 1 ∧
      ∀ r ∈ list, ∃ s e pieces, r.start = .offset s ∧ r.stop = .offset e ∧
        r.value.texts = pieces.map Piece.text ∧
        Row spaced ['x', ' ', '-', '-', ' ', 'é', ' '] s pieces e ∧
        Text.slice? ['x', ' ', '-', '-', ' ', 'é', ' '] s e = some (pieces.flatMap Piece.covered) ∧
        s = 0 ∧ e = 8 := by
  have hg : spaced.NoActions := by
    unfold Grammar.NoActions
    intro r
    have hr : r = ⟨0, by decide⟩ ∨ r = ⟨1, by decide⟩ := by
      revert r
      decide
    rcases hr with rfl | rfl <;> rfl
  obtain ⟨list, hlist, hall⟩ := results_cover (new spaced .bottomUpWithGaps .skippingBlanks)
    ['x', ' ', '-', '-', ' ', 'é', ' '] rfl hg true
  refine ⟨hg, list, hlist, ?_, fun r hr => ?_⟩
  · have hlength : (((new spaced .bottomUpWithGaps .skippingBlanks).parse
        ['x', ' ', '-', '-', ' ', 'é', ' ']).1.results true).toOption.map List.length = some 1 := by
      decide +kernel
    rw [hlist] at hlength
    exact Option.some.inj hlength
  · obtain ⟨s, e, pieces, hs, he, htexts, hrow, hslice, hwhole⟩ := hall r hr
    exact ⟨s, e, pieces, hs, he, htexts, hrow, hslice, hwhole rfl⟩

end Parser

end ChartParsing
