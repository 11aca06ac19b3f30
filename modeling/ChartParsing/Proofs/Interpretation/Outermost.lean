import ChartParsing.Proofs.Agreement.Entities
import ChartParsing.Proofs.Parsing.Runs

/-!
# Outermost entities of a parse

An entity is foremost if its derivations belong to no other entity: no links lead to its edge from the
edge of another one.  Entities without cycles are outermost exactly if they are foremost.  An edge that
leads back to itself is never outermost: marking starts at all entities at once, and does not tell which
of them a mark came from, so such an edge is marked on its own account.

* **`parse_outermost`** says for every parse which edges are outermost, and when these are all that are
  foremost.
* **`mem_outermost_of_cycleFree`**: in grammars without cycles they are.
* **`foremost_not_outermost`**: an entity that can be made of itself is lost.
-/

namespace ChartParsing

open Relation

namespace Chart

variable {rules : Array Rule} {c : Chart rules} {n : Nat}

/-- The finished edge of an entity, at a place. -/
def IsEntity (c : Chart rules) (n : Nat) : Prop :=
  ∃ i, c.item? n = some i ∧ i.rule.entity = true ∧ i.isReduced = true ∧ i.start ≠ .anywhere

/-- The edge of an entity to which no links lead from the edge of another one. -/
structure Foremost (c : Chart rules) (n : Nat) : Prop where
  entity : c.IsEntity n
  alone : ∀ m, c.IsEntity m → m ≠ n → ¬ TransGen c.Links m n

/-- No links lead to an outermost entity from any entity, itself included. -/
theorem mem_outermost_iff (hw : c.WellFormed) (hs : c.staged = []) :
    n ∈ c.outermost ↔ c.Foremost n ∧ ¬ TransGen c.Links n n := by
  have hentity (m : Nat) : m ∈ c.entities ↔ c.IsEntity m := mem_entities hw hs
  rw [mem_outermost, hentity]
  constructor
  · rintro ⟨hn, hno⟩
    refine ⟨⟨hn, fun m hm _ hlinks => hno ⟨m, (hentity m).2 hm, hlinks⟩⟩, fun hlinks => ?_⟩
    exact hno ⟨n, (hentity n).2 hn, hlinks⟩
  · rintro ⟨hn, hself⟩
    refine ⟨hn.entity, fun ⟨m, hm, hlinks⟩ => ?_⟩
    by_cases hmn : m = n
    · subst hmn
      exact hself hlinks
    · exact hn.alone m ((hentity m).1 hm) hmn hlinks

/-- The outermost entities are in the order of the chart. -/
theorem outermost_sublist (c : Chart rules) : c.outermost.Sublist c.listed :=
  List.filter_sublist.trans List.filter_sublist

/-- What is reported of a chart: which edges, in which order, and when these are all foremost ones. -/
structure ReportsOutermost (c : Chart rules) : Prop where
  ordered : c.outermost.Sublist c.listed
  once : c.outermost.Nodup
  mem_iff : ∀ n, n ∈ c.outermost ↔ c.Foremost n ∧ ¬ TransGen c.Links n n
  all_iff : (∀ n, n ∈ c.outermost ↔ c.Foremost n) ↔
    ∀ n, TransGen c.Links n n → c.IsEntity n → ∃ m, m ≠ n ∧ c.IsEntity m ∧ TransGen c.Links m n

theorem reportsOutermost (hw : c.WellFormed) (hs : c.staged = []) : c.ReportsOutermost where
  ordered := outermost_sublist c
  once := nodup_outermost hw hs
  mem_iff _ := mem_outermost_iff hw hs
  all_iff := by
    constructor
    · intro hall n hself hn
      by_contra hno
      have hforemost : c.Foremost n := ⟨hn, fun m hm hmn hlinks => hno ⟨m, hmn, hm, hlinks⟩⟩
      exact ((mem_outermost_iff hw hs).1 ((hall n).2 hforemost)).2 hself
    · intro hcycles n
      rw [mem_outermost_iff hw hs]
      refine ⟨And.left, fun hn => ⟨hn, fun hself => ?_⟩⟩
      obtain ⟨m, hmn, hm, hlinks⟩ := hcycles n hself hn.entity
      exact hn.alone m hm hmn hlinks

end Chart

namespace Parser

variable {g : Grammar} {lexer : Lexer} {input : Text} {n : Nat}

/-- **Which entities are reported**, of the chart that a parse leaves, whatever it says about success, and
of the chart that there is after any number of turns.  They come in the order of the chart, each once, and
are the foremost ones that do not lead back to themselves.  So they are all foremost ones exactly if to each
entity that leads back to itself another one leads, too. -/
theorem parse_outermost (p : Parser g) (input : Text) :
    (p.parse input).1.chart.ReportsOutermost ∧
      ∀ turns, (parseWithin g p.strategy p.lexer input turns).1.ReportsOutermost := by
  have hparse := parse_running p input
  refine ⟨Chart.reportsOutermost hparse.wellFormed hparse.staged, fun turns => ?_⟩
  have hturns := parseWithin_running g p.strategy p.lexer input turns
  exact Chart.reportsOutermost hturns.wellFormed hturns.staged

/-- Where no nonterminal wraps itself all foremost entities are reported. -/
theorem mem_outermost_of_cycleFree (p : Parser g) (input : Text) (hg : g.NoGaps)
    (ha : Advances g p.lexer input) (hf : CycleFree g p.lexer input) :
    n ∈ (p.parse input).1.chart.outermost ↔ (p.parse input).1.chart.Foremost n := by
  have hparse := parse_running p input
  rw [Chart.mem_outermost_iff hparse.wellFormed hparse.staged]
  exact and_iff_left (hparse.built.acyclic hg ha hf)

/-- Entities that can be made of themselves. -/
def selfMade : Grammar :=
  ⟨#[(Rule.of "S" [.nonterminal "S"]).withEntity true, .of "S" [.literal "a"]]⟩

/-- **A foremost entity can be lost.**  For the text `a` there is one entity, the `S` made of an `S`, and it
is also made of itself, so nothing is reported. -/
theorem foremost_not_outermost :
    ((new selfMade .topDown .skippingBlanks).parse ['a']).2 = none ∧
      (finalChart selfMade .topDown .skippingBlanks ['a']).Foremost 3 ∧
      3 ∉ (finalChart selfMade .topDown .skippingBlanks ['a']).outermost ∧
      (selfMade.parse .topDown ['a']).toOption.map List.length = some 0 := by
  have hrunning := parse_running (new selfMade .topDown .skippingBlanks) ['a']
  have hentity (m : Nat) : m ∈ (finalChart selfMade .topDown .skippingBlanks ['a']).entities ↔
      (finalChart selfMade .topDown .skippingBlanks ['a']).IsEntity m :=
    Chart.mem_entities hrunning.wellFormed hrunning.staged
  have hentities : (finalChart selfMade .topDown .skippingBlanks ['a']).entities = [3] := by
    decide +kernel
  rw [hentities] at hentity
  refine ⟨by decide +kernel, ⟨(hentity 3).1 (by simp), fun m hm hne => ?_⟩, by decide +kernel,
    by decide +kernel⟩
  exact absurd (List.mem_singleton.1 ((hentity m).2 hm)) hne

end Parser

end ChartParsing
