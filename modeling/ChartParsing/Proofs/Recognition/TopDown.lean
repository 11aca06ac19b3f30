import ChartParsing.Proofs.Recognition.Spelling

/-!
# Top-down recognition is exact

From the start of a rule the chart holds all that its symbols spell, by induction on how they spell it:
`Saturated.has_of_spells`.  A nonterminal needs no more than that its rules are predicted where it is
wanted; left recursion, empty rules and cycles of rules are no cases of their own, since the chart is
closed and the induction is not on its edges.

Main statement: **`derives_iff_has`**, for the rules of entities, which are predicted at the start.
-/

namespace ChartParsing

namespace Parser

variable {g : Grammar} {strategy : Strategy} {lexer : Lexer} {input : Text}
  {c : Chart g.rules} {r : g.RuleId} {d s e k : Nat}

/-- **Completeness from a prediction on.** -/
theorem Saturated.has_of_spells (hc : Saturated strategy lexer input c) (hg : g.NoGaps)
    (hp : strategy.predictsWanted = true) (h : Spells lexer input r d s e k)
    (hi : c.Has (.initial r (.offset s))) : c.Has ⟨r, d, .offset s, .offset e⟩ := by
  induction h with
  | start r s => exact hi
  | @terminal r d s p k t m _ ht hn hm ih =>
      obtain ⟨n, hn'⟩ := ih hi
      exact ((hc.handled n _ hn').scanned t ht (hg.isScannable ht hn) p rfl m
        hm).has
  | @nonterminal r r' d s p e k l _ ht _ hv ih ih' =>
      have ho : c.Has ⟨r, d, .offset s, .offset p⟩ := ih hi
      have htakes : Item.Takes ⟨r, d, .offset s, .offset p⟩
          ⟨r', (g.rule r').length, .offset p, .offset e⟩ := takes_whole ht hv (.inl rfl)
      obtain ⟨n, hn⟩ := ho
      have hinit : c.Has (.initial r' (.offset p)) :=
        (hc.handled n _ hn).wanted hp _ htakes.wanted r' (Grammar.mem_rulesFor.2 rfl)
      exact hc.has_joined ⟨n, hn⟩ (ih' hinit) htakes

/-- **Top-down recognition is exact.**  For a grammar without gaps and a lexer that stays within the
input a parse succeeds, and the chart has the finished edge of an entity's rule from the start of the
input to an offset exactly if the rule spells that stretch. -/
theorem derives_iff_has (lexer : Lexer) (input : Text) (hg : g.NoGaps)
    (hl : lexer.Within input) :
    ((new g .topDown lexer).parse input).2 = none ∧
      ∀ r : g.RuleId, (g.rule r).entity = true → ∀ e,
        (finalChart g .topDown lexer input).Has ⟨r, (g.rule r).length, .offset 0, .offset e⟩ ↔
          Derives lexer input r 0 e := by
  have hc := parsed_finalChart .topDown hl hg
  refine ⟨parse_succeeds (new g .topDown lexer) input hl hg, fun r hr e => ⟨fun h => ?_, ?_⟩⟩
  · obtain ⟨k, hk, -⟩ := hc.built.spells hg h 0 e (.inl ⟨rfl, rfl⟩)
    exact ⟨k, hk⟩
  · rintro ⟨k, hk⟩
    exact hc.has_of_spells hg rfl hk (hc.entities rfl r (Grammar.mem_select.2 hr))

/-- A left recursive rule spells the text `a a`, since its edge is in the chart. -/
theorem derives_leftRecursive : leftRecursive.NoGaps ∧
    Lexer.skippingBlanks.Within ['a', ' ', 'a'] ∧
    Derives (g := leftRecursive) .skippingBlanks ['a', ' ', 'a'] ⟨0, by decide⟩ 0 3 := by
  have hg : leftRecursive.NoGaps := by
    unfold Grammar.NoGaps
    decide
  have hl := Lexer.skippingBlanks_within ['a', ' ', 'a']
  refine ⟨hg, hl, ?_⟩
  exact ((derives_iff_has .skippingBlanks ['a', ' ', 'a'] hg hl).2 ⟨0, by decide⟩ rfl 3).1
    ⟨5, by decide +kernel⟩

end Parser

end ChartParsing
