import ChartParsing.Proofs.Parsing.Steps

/-!
# What holds of every edge

A property of items that each addition gives to its item, if all items of the chart have it, holds in
every built chart: `Built.forall_item`.  A derivation stays what it was when it was found, one step of
the parser between edges of the chart: `Built.addition`.

The properties of items proved here need nothing of the lexer: an item has no start exactly if it has no
end, and its dot stays within its rule.
-/

namespace ChartParsing

variable {rules : Array Rule}

theorem Chart.has_add_iff {c : Chart rules} {e : Edge rules} {place : Destination} {i : Item rules} :
    (c.add e place).1.Has i ↔ c.Has i ∨ i = e.item := by
  constructor
  · rintro ⟨n, hn⟩
    obtain ⟨x, hx, rfl⟩ := item?_eq_some.1 hn
    rcases edge?_add hx with hx | rfl | ⟨old, ho, hi, rfl⟩
    · exact .inl ⟨n, item?_eq_some.2 ⟨x, hx, rfl⟩⟩
    · exact .inr rfl
    · exact .inr (by simpa using hi)
  · rintro (h | rfl)
    · exact (extends_add c e place).has h
    · exact has_add c e place

namespace Parser

variable {g : Grammar} {strategy : Strategy} {lexer : Lexer} {input : Text}
  {c : Chart g.rules} {e : Edge g.rules} {i : Item g.rules} {n : Nat} {d : Derivation}

theorem Built.forall_item {P : Item g.rules → Prop}
    (h : ∀ c e, Built strategy lexer input c → (∀ i, c.Has i → P i) →
      Addition strategy lexer input c e → P e.item)
    (hc : Built strategy lexer input c) (hi : c.Has i) : P i := by
  induction hc generalizing i with
  | empty =>
      obtain ⟨n, hn⟩ := hi
      exact absurd hn (by simp [Chart.item?, Chart.edge?, Chart.empty])
  | add hb ha place ih =>
      rcases Chart.has_add_iff.1 hi with hi | rfl
      · exact ih hi
      · exact h _ _ hb (fun i hi => ih hi) ha
  | requeue _ he ih =>
      obtain ⟨n, hn⟩ := hi
      exact ih ⟨n, by simpa [Chart.item?, Chart.edge?, he] using hn⟩

/-- The derivations of an addition are one at most, and then the addition was made for it. -/
theorem Addition.of_mem (h : Addition strategy lexer input c e) (hd : d ∈ e.derivations) :
    Addition strategy lexer input c ⟨e.item, [d]⟩ := by
  cases h with
  | predicted h => simp at hd
  | joined ho hf ht =>
      obtain rfl := List.mem_singleton.1 hd
      exact .joined ho hf ht
  | scanned ho hn hs hp hm =>
      obtain rfl := List.mem_singleton.1 hd
      exact .scanned ho hn hs hp hm
  | scannedAnywhere ho hn hs hp hx hm =>
      obtain rfl := List.mem_singleton.1 hd
      exact .scannedAnywhere ho hn hs hp hx hm
  | filled hs ho hg hp hf hr hq hlt hle hm =>
      obtain rfl := List.mem_singleton.1 hd
      exact .filled hs ho hg hp hf hr hq hlt hle hm

/-- **Every derivation is a step of the parser** between edges of the chart. -/
theorem Built.addition (hc : Built strategy lexer input c) (he : c.edge? n = some e)
    (hd : d ∈ e.derivations) : Addition strategy lexer input c ⟨e.item, [d]⟩ := by
  induction hc generalizing n e with
  | empty => exact absurd he (by simp [Chart.edge?, Chart.empty])
  | @add c x _ ha place ih =>
      have hext := Chart.extends_add c x place
      rcases Chart.edge?_add he with ho | rfl | ⟨old, ho, hi, rfl⟩
      · exact (ih ho hd).mono hext
      · exact (ha.of_mem hd).mono hext
      · rw [Edge.learnAll_item]
        rcases Edge.mem_learnAll hd with hd | hd
        · exact (ih ho hd).mono hext
        · rw [hi]
          exact (ha.of_mem hd).mono hext
  | @requeue c c' _ hq ih =>
      have hext : c.Extends c' := .of_edges hq
      exact (ih (by rw [← he, Chart.edge?, Chart.edge?, hq]) hd).mono hext

/-- An item starts anywhere exactly if it stops anywhere. -/
theorem Built.start_eq_anywhere_iff (hc : Built strategy lexer input c) (hi : c.Has i) :
    i.start = .anywhere ↔ i.stop = .anywhere := by
  refine hc.forall_item (P := fun i => i.start = .anywhere ↔ i.stop = .anywhere) ?_ hi
  intro c e _ hall ha
  cases ha with
  | predicted h => exact Iff.rfl
  | @joined _ _ o f ho hf ht =>
      have h₁ := hall o ⟨_, ho⟩
      have h₂ := hall f ⟨_, hf⟩
      have hm := ht.meets
      simp only [Item.joined, Item.step]
      cases hs : o.start <;> cases hs' : o.stop <;> cases hp : f.start <;> cases hp' : f.stop <;>
        simp_all [Position.orElse]
  | @scanned _ o _ _ _ ho hn hs hp hm =>
      have h := hall o ⟨_, ho⟩
      simp [Item.step, h, hp]
  | scannedAnywhere ho hn hs hp hx hm => simp [Item.step]
  | @filled _ _ o _ _ _ _ _ hs ho hg hp hf hr hq hlt hle hm =>
      have h := hall o ⟨_, ho⟩
      simp [Item.step, h, hp]

theorem dot_lt_length_of_next? {s : Symbol} (h : i.next? = some s) : i.dot < i.rule.length :=
  (List.getElem?_eq_some_iff.1 h).1

theorem gap?_eq_some {s : Symbol} {gap : Gap} : s.gap? = some gap ↔ s = .gap gap := by
  cases s <;> simp [Symbol.gap?]

theorem nonterminal?_eq_some {s : Symbol} {name : String} :
    s.nonterminal? = some name ↔ s = .nonterminal name := by
  cases s <;> simp [Symbol.nonterminal?]

/-- An item is in front of a gap, with a nonterminal behind that. -/
theorem gapAt_eq_ok {gap : Gap} {name : String} : gapAt i = .ok (gap, name) ↔
    i.next? = some (.gap gap) ∧ i.following? = some (.nonterminal name) := by
  have hnext : i.next?.bind Symbol.gap? = some gap ↔ i.next? = some (.gap gap) := by
    simp [Option.bind_eq_some_iff, gap?_eq_some]
  have hfollowing : i.following?.bind Symbol.nonterminal? = some name ↔
      i.following? = some (.nonterminal name) := by
    simp [Option.bind_eq_some_iff, nonterminal?_eq_some]
  rw [← hnext, ← hfollowing]
  unfold gapAt
  cases i.next?.bind Symbol.gap? with
  | none => simp
  | some a =>
      cases i.following?.bind Symbol.nonterminal? with
      | none => simp
      | some b => simp

/-- The dot of an item stays within its rule. -/
theorem Built.dot_le_length (hc : Built strategy lexer input c) (hi : c.Has i) :
    i.dot ≤ i.rule.length := by
  refine hc.forall_item (P := fun i => i.dot ≤ i.rule.length) ?_ hi
  intro c e _ hall ha
  cases ha with
  | predicted h => exact Nat.zero_le _
  | joined ho hf ht => exact dot_lt_length_of_next? (next?_of_wanted? ht.wanted)
  | scanned ho hn hs hp hm => exact dot_lt_length_of_next? hn
  | scannedAnywhere ho hn hs hp hx hm => exact dot_lt_length_of_next? hn
  | filled hs ho hg hp hf hr hq hlt hle hm =>
      exact dot_lt_length_of_next? (gapAt_eq_ok.1 hg).1

/-- With the dot in front an item takes nothing. -/
theorem Built.start_eq_stop (hc : Built strategy lexer input c) (hi : c.Has i) (hd : i.dot = 0) :
    i.start = i.stop := by
  have h : i.start = i.stop ∨ 0 < i.dot := by
    refine hc.forall_item (P := fun i => i.start = i.stop ∨ 0 < i.dot) ?_ hi
    intro c e _ _ ha
    cases ha with
    | predicted h => exact .inl rfl
    | joined _ _ _ => exact .inr (Nat.succ_pos _)
    | scanned _ _ _ _ _ => exact .inr (Nat.succ_pos _)
    | scannedAnywhere _ _ _ _ _ _ => exact .inr (Nat.succ_pos _)
    | filled _ _ _ _ _ _ _ _ _ _ => exact .inr (Nat.succ_pos _)
  exact h.resolve_right (by omega)

/-- An edge whose dot was moved has a derivation. -/
theorem Built.derivations_ne_nil (hc : Built strategy lexer input c) (he : c.edge? n = some e)
    (hd : 0 < e.item.dot) : e.derivations ≠ [] := by
  induction hc generalizing n e with
  | empty => exact absurd he (by simp [Chart.edge?, Chart.empty])
  | @add c x _ ha place ih =>
      rcases Chart.edge?_add he with ho | rfl | ⟨old, ho, hi, rfl⟩
      · exact ih ho hd
      · cases ha with
        | predicted h => exact absurd hd (by simp [Item.initial])
        | joined _ _ _ => simp
        | scanned _ _ _ _ _ => simp
        | scannedAnywhere _ _ _ _ _ _ => simp
        | filled _ _ _ _ _ _ _ _ _ _ => simp
      · rw [Edge.learnAll_item] at hd
        exact fun hnil => ih ho hd (List.prefix_nil.1 (hnil ▸ Edge.prefix_learnAll _ _))
  | @requeue c c' _ hq ih => exact ih (by rw [← he, Chart.edge?, Chart.edge?, hq]) hd

/-! ### Top down -/

/-- Top down every edge has a place. -/
theorem Built.start_ne_anywhere (hc : Built .topDown lexer input c) (hi : c.Has i) :
    i.start ≠ .anywhere := by
  refine hc.forall_item (P := fun i => i.start ≠ .anywhere) ?_ hi
  intro c e hb hall ha
  cases ha with
  | predicted h =>
      cases h with
      | entity _ _ => simp [Item.initial]
      | seed hs _ _ _ _ => exact absurd hs (by simp [Strategy.isBottomUp])
      | empty hs _ => exact absurd hs (by simp [Strategy.isBottomUp])
      | wanted _ hi _ _ =>
          intro ha
          exact hall _ ⟨_, hi⟩ ((hb.start_eq_anywhere_iff ⟨_, hi⟩).2 ha)
      | emptyWanted hs _ _ _ => exact absurd hs (by simp [Strategy.isBottomUp])
      | started hs _ _ _ => exact absurd hs (by simp [Strategy.isBottomUp])
  | @joined _ _ o f ho _ _ =>
      intro ha
      exact hall o ⟨_, ho⟩ (Item.joined_start_eq_anywhere.1 ha).1
  | @scanned _ o _ _ _ ho _ _ _ _ => exact hall o ⟨_, ho⟩
  | scannedAnywhere _ _ _ _ _ _ => simp [Item.step]
  | filled hs _ _ _ _ _ _ _ _ _ => exact absurd hs (by simp)

/-- Top down the rule of every edge was predicted where the edge starts. -/
theorem Built.has_initial (hc : Built .topDown lexer input c) (hi : c.Has i) :
    c.Has (.initial i.number i.start) := by
  induction hd : i.dot generalizing i with
  | zero =>
      have hplace := hc.start_eq_stop hi hd
      obtain ⟨r, d, p, q⟩ := i
      obtain rfl : d = 0 := hd
      obtain rfl : p = q := hplace
      exact hi
  | succ d ih =>
      obtain ⟨n, hn⟩ := hi
      obtain ⟨e, he, rfl⟩ := Chart.item?_eq_some.1 hn
      obtain ⟨δ, hδ⟩ := List.exists_mem_of_ne_nil _ (hc.derivations_ne_nil he (by omega))
      have ha := hc.addition he hδ
      generalize hx : (⟨e.item, [δ]⟩ : Edge g.rules) = x at ha
      cases ha with
      | predicted _ => exact absurd (congrArg Edge.derivations hx) (by simp)
      | @joined _ _ o f ho _ _ =>
          have hi : e.item = o.joined f := congrArg Edge.item hx
          have hne := hc.start_ne_anywhere ⟨_, ho⟩
          have hstart : o.start = e.item.start := by
            rw [hi]
            show o.start = o.start.orElse f.start
            cases hs : o.start with
            | anywhere => exact absurd hs hne
            | offset s => rfl
          have hinit := ih ⟨_, ho⟩ (by rw [hi] at hd; exact Nat.succ.inj hd)
          rw [hstart] at hinit
          rw [hi] at hinit ⊢
          exact hinit
      | @scanned _ o _ _ _ ho _ _ _ _ =>
          have hi : e.item = o.step o.start _ := congrArg Edge.item hx
          have hinit := ih ⟨_, ho⟩ (by rw [hi] at hd; exact Nat.succ.inj hd)
          rw [hi]
          exact hinit
      | @scannedAnywhere _ o _ _ _ ho _ _ hp _ _ =>
          exact absurd ((hc.start_eq_anywhere_iff ⟨_, ho⟩).2 hp) (hc.start_ne_anywhere ⟨_, ho⟩)
      | filled hs _ _ _ _ _ _ _ _ _ => exact absurd hs (by simp)

end Parser

end ChartParsing
