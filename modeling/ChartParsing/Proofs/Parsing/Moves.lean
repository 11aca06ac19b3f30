import ChartParsing.Proofs.Parsing.Justification
import Mathlib.Data.Option.Basic

/-!
# Derivations by the items that they lead between

A derivation refers to edges by their numbers.  `Derivation.Moves` says what it does in terms of items, and
`Chart.Follows` that an edge has such a derivation.  Both hold of every later chart too.

There is not more to a derivation than the items: the texts that it goes over are those that the lexer
answers there, and for a gap the part of the input between: **`Step.texts_eq`**.
-/

namespace ChartParsing

variable {rules : Array Rule}

/-- In this chart the derivation moves the dot of `o` over the finished item `f`, or over texts if there is
no such item. -/
structure Derivation.Moves (c : Chart rules) (d : Derivation) (o : Item rules)
    (f : Option (Item rules)) : Prop where
  base : d.base.map c.item? = some (some o)
  child : d.child.map c.item? = f.map some

namespace Derivation.Moves

variable {c c' : Chart rules} {d : Derivation} {o o' : Item rules} {f f' : Option (Item rules)}

theorem unique (h : d.Moves c o f) (h' : d.Moves c o' f') : o = o' ∧ f = f' := by
  refine ⟨by simpa using h.base.symm.trans h'.base, ?_⟩
  exact Option.map_injective (Option.some_injective _) (h.child.symm.trans h'.child)

/-- A chart from before that has the edges of the derivation says the same of it. -/
theorem of_later (hc : c.Extends c') (hl : ∀ m ∈ d.links, ∃ j, c.item? m = some j)
    (h : d.Moves c' o f) : d.Moves c o f := by
  have hitem (m : Nat) (hm : m ∈ d.links) : c'.item? m = c.item? m := by
    obtain ⟨j, hj⟩ := hl m hm
    rw [hj, hc.item hj]
  refine ⟨h.base ▸ Option.map_congr (fun m hm => ?_), h.child ▸ Option.map_congr (fun m hm => ?_)⟩
  · exact (hitem m (by simp [Derivation.links, hm])).symm
  · exact (hitem m (by simp [Derivation.links, hm])).symm

theorem mono (hc : c.Extends c') (h : d.Moves c o f) : d.Moves c' o f := by
  obtain ⟨b, hb, ho⟩ := Option.map_eq_some_iff.1 h.base
  refine ⟨by rw [hb, Option.map_some, hc.item ho], ?_⟩
  cases f with
  | none => simpa using h.child
  | some f =>
      obtain ⟨k, hk, hf⟩ := Option.map_eq_some_iff.1 h.child
      rw [hk, Option.map_some, hc.item hf, Option.map_some]

end Derivation.Moves

namespace Chart

variable {c c' : Chart rules} {i o : Item rules} {f : Option (Item rules)} {b : Nat}
  {child : Option Nat}

/-- A derivation of the edge with item `i` moves the dot of `o` over `f`. -/
def Follows (c : Chart rules) (i o : Item rules) (f : Option (Item rules)) : Prop :=
  ∃ n e, c.edge? n = some e ∧ e.item = i ∧ ∃ d ∈ e.derivations, d.Moves c o f

theorem Follows.has (h : c.Follows i o f) : c.Has i := by
  obtain ⟨n, e, he, hi, -⟩ := h
  exact ⟨n, item?_eq_some.2 ⟨e, he, hi⟩⟩

theorem Extends.follows (hc : c.Extends c') (h : c.Follows i o f) : c'.Follows i o f := by
  obtain ⟨n, e, he, hi, d, hd, hm⟩ := h
  obtain ⟨e', he', hi', hp⟩ := hc n e he
  exact ⟨n, e', he', hi'.trans hi, d, hp.subset hd, hm.mono hc⟩

theorem Records.follows (h : c.Records i b child) (ho : c.item? b = some o)
    (hf : child.map c.item? = f.map some) : c.Follows i o f := by
  obtain ⟨n, e, he, hi, d, hd, hb, rfl⟩ := h
  exact ⟨n, e, he, hi, d, hd, by rw [hb, Option.map_some, ho], hf⟩

end Chart

namespace Parser

variable {g : Grammar} {strategy : Strategy} {lexer : Lexer} {input : Text} {c : Chart g.rules}
  {i o : Item g.rules} {f : Option (Item g.rules)} {d : Derivation}

/-- The texts over which the dot of `o` was moved to give `i`, without a finished edge. -/
def textsOver (lexer : Lexer) (input : Text) (o i : Item g.rules) : Option (List String) :=
  match o.next?, o.stop.orElse i.start, i.stop with
  | some (.gap _), .offset p, .offset q => (input.slice? p q).map (fun text => [String.ofList text])
  | some s, .offset p, _ => (lexer s input p).map Match.texts
  | _, _, _ => none

theorem textsOver_of_isScannable {s : Symbol} {p : Nat} (hn : o.next? = some s)
    (hs : s.isScannable = true) (hp : o.stop.orElse i.start = .offset p) :
    textsOver lexer input o i = (lexer s input p).map Match.texts := by
  unfold textsOver
  rw [hn, hp]
  cases s with
  | gap _ => exact absurd hs (by simp [Symbol.isScannable, Symbol.isGap, Symbol.kind])
  | nonterminal _ => rfl
  | literal _ => rfl
  | pattern _ => rfl
  | entity _ _ => rfl

/-- A step leads between items of the chart, and its texts are settled by them. -/
theorem Step.exists_moves (h : Step strategy lexer input c i d) : ∃ o f, d.Moves c o f ∧
    d.texts = if f.isSome then none else textsOver lexer input o i := by
  cases h with
  | @nonterminal base child o f ho _ _ hf _ _ _ _ _ _ =>
      exact ⟨o, some f, ⟨by simp [ho], by simp [hf]⟩, rfl⟩
  | @terminal base o s p stop texts ho _ _ hn hsc hp hm _ _ =>
      refine ⟨o, none, ⟨by simp [ho], rfl⟩, ?_⟩
      have hplace : o.stop.orElse i.start = .offset p := by rw [hp]; rfl
      rw [textsOver_of_isScannable hn hsc hplace, hm]
      rfl
  | @occurrence base o s x stop texts ho _ _ hn hsc hp _ hm hs _ =>
      refine ⟨o, none, ⟨by simp [ho], rfl⟩, ?_⟩
      have hplace : o.stop.orElse i.start = .offset x.start := by rw [hp.2, hs]; rfl
      rw [textsOver_of_isScannable hn hsc hplace, hm]
      rfl
  | @gap base _ o _ gap p q text _ ho _ _ hn _ _ _ _ hp _ _ ht _ _ he =>
      refine ⟨o, none, ⟨by simp [ho], rfl⟩, ?_⟩
      simp [textsOver, hn, hp, he, Position.orElse, ht]

/-- **The texts of a derivation** come of the edges that it leads from and to. -/
theorem Step.texts_eq (h : Step strategy lexer input c i d) (hm : d.Moves c o f) :
    d.texts = if f.isSome then none else textsOver lexer input o i := by
  obtain ⟨o', f', hm', ht⟩ := h.exists_moves
  obtain ⟨rfl, rfl⟩ := hm.unique hm'
  exact ht

end Parser

end ChartParsing
