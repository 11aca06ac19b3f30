import ChartParsing.Proofs.Parsing.Runs

/-!
# Where derivations come from

`Step` says what a derivation of an edge stands for, in terms of the chart, the lexer and the input alone:
a finished edge behind an open one, or what stands in the input behind it.  A chart is `Traced` if every
derivation is a step, and if the edges with the dot in front are the only ones without any.

Main statement: **`parse_traced`**.  The chart that a parse leaves is traced, whether the parse succeeds or
not, and so it is after any number of turns.
-/

namespace ChartParsing

namespace Parser

variable {g : Grammar} {strategy : Strategy} {lexer : Lexer} {input : Text}
  {c : Chart g.rules} {e : Edge g.rules} {i : Item g.rules} {n : Nat} {d : Derivation}

/-- The derivation moves the dot of an edge `o` of the same rule by one symbol, to where the item has
it. -/
inductive Step (strategy : Strategy) (lexer : Lexer) (input : Text) (c : Chart g.rules)
    (i : Item g.rules) : Derivation → Prop
  /-- The symbol is the nonterminal of a finished edge `f` that meets `o`, and the operators allow the
  pair.  A place that one of the two does not have is that of the other one. -/
  | nonterminal {base child : Nat} {o f : Item g.rules} (ho : c.item? base = some o)
      (hr : o.number = i.number) (hd : o.dot + 1 = i.dot) (hf : c.item? child = some f)
      (hn : o.next? = some (.nonterminal f.lhs)) (hfin : f.isReduced = true)
      (hv : o.rule.operators.veto? f.rule.operators o.dot o.rule.length = none)
      (hm : o.stop = f.start ∨ o.stop = .anywhere ∨ f.start = .anywhere)
      (hs : i.start = if o.start = .anywhere then f.start else o.start)
      (he : i.stop = if f.stop = .anywhere then o.stop else f.stop) :
      Step strategy lexer input c i ⟨some base, some child, none⟩
  /-- The symbol is a terminal, and the lexer accepts it where `o` stops. -/
  | terminal {base : Nat} {o : Item g.rules} {s : Symbol} {p stop : Nat} {texts : List String}
      (ho : c.item? base = some o) (hr : o.number = i.number) (hd : o.dot + 1 = i.dot)
      (hn : o.next? = some s) (hsc : s.isScannable = true) (hp : o.stop = .offset p)
      (hm : lexer s input p = some ⟨texts, stop⟩) (hs : i.start = o.start)
      (he : i.stop = .offset stop) : Step strategy lexer input c i ⟨some base, none, some texts⟩
  /-- The symbol is a terminal, `o` has no place, and the lexer accepts the terminal at one of its
  occurrences. -/
  | occurrence {base : Nat} {o : Item g.rules} {s : Symbol} {x : Occurrence} {stop : Nat}
      {texts : List String} (ho : c.item? base = some o) (hr : o.number = i.number)
      (hd : o.dot + 1 = i.dot) (hn : o.next? = some s) (hsc : s.isScannable = true)
      (hp : o.start = .anywhere ∧ o.stop = .anywhere) (hx : x ∈ s.occurrences input)
      (hm : lexer s input x.start = some ⟨texts, stop⟩) (hs : i.start = .offset x.start)
      (he : i.stop = .offset stop) : Step strategy lexer input c i ⟨some base, none, some texts⟩
  /-- The symbol is a gap that accepts the stretch from where `o` stops to where an edge starts which is
  finished for the nonterminal behind the gap. -/
  | gap {base child : Nat} {o f : Item g.rules} {gap : Gap} {p q : Nat} {text : Text}
      (hk : strategy = .bottomUpWithGaps) (ho : c.item? base = some o) (hr : o.number = i.number)
      (hd : o.dot + 1 = i.dot) (hn : o.next? = some (.gap gap))
      (hfol : o.following? = some (.nonterminal f.lhs)) (hf : c.item? child = some f)
      (hfin : f.isReduced = true) (hq : f.start = .offset q) (hp : o.stop = .offset p)
      (hlt : p < q) (hle : q - p ≤ gap.reach) (ht : input.slice? p q = some text)
      (ha : gap.accepts input p q = true) (hs : i.start = o.start) (he : i.stop = .offset q) :
      Step strategy lexer input c i ⟨some base, none, some [String.ofList text]⟩

/-- Every derivation is a step between edges of the chart, and exactly the edges with the dot in front have
none. -/
structure Traced (strategy : Strategy) (lexer : Lexer) (input : Text) (c : Chart g.rules) : Prop where
  bare : ∀ n e, c.edge? n = some e → (e.derivations = [] ↔ e.item.dot = 0)
  step : ∀ n e, c.edge? n = some e → ∀ d ∈ e.derivations, Step strategy lexer input c e.item d
  /-- A derivation has a finished edge or texts, and not both. -/
  either : ∀ n e, c.edge? n = some e → ∀ d ∈ e.derivations,
    (d.child.isSome = true ↔ d.texts = none)

/-- A step moves the dot of an edge of the same rule by one symbol. -/
theorem Step.exists_base (h : Step strategy lexer input c i d) :
    ∃ base o, d.base = some base ∧ c.item? base = some o ∧ o.number = i.number ∧
      o.dot + 1 = i.dot := by
  cases h with
  | nonterminal ho hr hd => exact ⟨_, _, rfl, ho, hr, hd⟩
  | terminal ho hr hd => exact ⟨_, _, rfl, ho, hr, hd⟩
  | occurrence ho hr hd => exact ⟨_, _, rfl, ho, hr, hd⟩
  | gap _ ho hr hd => exact ⟨_, _, rfl, ho, hr, hd⟩

theorem Step.dot_ne_zero (h : Step strategy lexer input c i d) : i.dot ≠ 0 := by
  obtain ⟨-, o, -, -, -, hdot⟩ := h.exists_base
  omega

/-- All edges that a step refers to are there. -/
theorem Step.exists_item (h : Step strategy lexer input c i d) {m : Nat} (hm : m ∈ d.links) :
    ∃ j, c.item? m = some j := by
  cases h with
  | @nonterminal base child o f ho _ _ hf =>
      have hm' : m = base ∨ m = child := by simpa [Derivation.links] using hm
      rcases hm' with rfl | rfl
      · exact ⟨o, ho⟩
      · exact ⟨f, hf⟩
  | @terminal base o _ _ _ _ ho =>
      obtain rfl : m = base := by simpa [Derivation.links] using hm
      exact ⟨o, ho⟩
  | @occurrence base o _ _ _ _ ho =>
      obtain rfl : m = base := by simpa [Derivation.links] using hm
      exact ⟨o, ho⟩
  | @gap base _ o _ _ _ _ _ _ ho =>
      obtain rfl : m = base := by simpa [Derivation.links] using hm
      exact ⟨o, ho⟩

/-- A step has a finished edge or texts, and not both. -/
theorem Step.child_isSome_iff (h : Step strategy lexer input c i d) :
    d.child.isSome = true ↔ d.texts = none := by
  cases h <;> simp

/-- What the parser adds comes with steps. -/
theorem Addition.step (hc : Built strategy lexer input c) (h : Addition strategy lexer input c e)
    (hd : d ∈ e.derivations) : Step strategy lexer input c e.item d := by
  cases h with
  | predicted h => simp at hd
  | @joined _ _ o f ho hf ht =>
      obtain rfl := List.mem_singleton.1 hd
      refine .nonterminal ho rfl rfl hf (next?_of_wanted? ht.wanted) ht.reduced ht.allowed ht.meets
        ?_ ?_
      · show o.start.orElse f.start = _
        cases o.start <;> simp [Position.orElse]
      · show f.stop.orElse o.stop = _
        cases f.stop <;> simp [Position.orElse]
  | scanned ho hn hs hp hm =>
      obtain rfl := List.mem_singleton.1 hd
      exact .terminal ho rfl rfl hn hs hp hm rfl rfl
  | scannedAnywhere ho hn hs hp hx hm =>
      obtain rfl := List.mem_singleton.1 hd
      have hstart := (hc.start_eq_anywhere_iff ⟨_, ho⟩).2 hp
      exact .occurrence ho rfl rfl hn hs ⟨hstart, hp⟩ hx hm rfl rfl
  | filled hs ho hg hp hf hr hq hlt hle hm =>
      obtain rfl := List.mem_singleton.1 hd
      obtain ⟨hn, hfol⟩ := gapAt_eq_ok.1 hg
      obtain ⟨text, ht, ha, rfl⟩ := Gap.matchSpan?_eq_some.1 hm
      exact .gap hs ho rfl rfl hn hfol hf hr hq hp hlt hle ht ha rfl rfl

/-- **All work on a chart leaves it traced.** -/
theorem Built.traced (hc : Built strategy lexer input c) : Traced strategy lexer input c := by
  have hstep (n : Nat) (e : Edge g.rules) (he : c.edge? n = some e) (d : Derivation)
      (hd : d ∈ e.derivations) : Step strategy lexer input c e.item d := by
    have h := (hc.addition he hd).step hc (List.mem_singleton_self d)
    exact h
  refine ⟨fun n e he => ⟨fun hnil => ?_, fun hdot => ?_⟩, hstep,
    fun n e he d hd => (hstep n e he d hd).child_isSome_iff⟩
  · by_contra hdot
    exact hc.derivations_ne_nil he (Nat.pos_of_ne_zero hdot) hnil
  · exact List.eq_nil_iff_forall_not_mem.2 (fun d hd => (hstep n e he d hd).dot_ne_zero hdot)

/-- **Every derivation is a real step**, in the chart that a parse leaves, whatever it says about success,
and in the chart that there is after any number of turns. -/
theorem parse_traced (p : Parser g) (input : Text) :
    Traced p.strategy p.lexer input (p.parse input).1.chart ∧
      ∀ turns, Traced p.strategy p.lexer input
        (parseWithin g p.strategy p.lexer input turns).1 := by
  refine ⟨(parse_running p input).built.traced, fun turns => ?_⟩
  exact (parseWithin_running g p.strategy p.lexer input turns).built.traced

end Parser

end ChartParsing
