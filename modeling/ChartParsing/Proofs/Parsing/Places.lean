import ChartParsing.Proofs.Parsing.Invariants
import ChartParsing.Proofs.Terminal.Matches

/-!
# Places between characters

With the usual lexer the offsets at which edges start and stop lie between two characters of the input, or
at one of its ends: **`Built.placed`**.  Offsets come from matches and from the blanks behind them, and all
other edges take theirs from edges that are there.
-/

namespace ChartParsing

variable {rules : Array Rule}

/-- There is a cursor at the place, unless it is anywhere. -/
def Position.Placed (input : Text) (p : Position) : Prop :=
  ∀ n, p = .offset n → (input.seek? n).isSome = true

theorem Position.Placed.orElse {input : Text} {p other : Position} (hp : p.Placed input)
    (ho : other.Placed input) : (p.orElse other).Placed input := by
  cases p with
  | anywhere => exact ho
  | offset n => exact hp

theorem Position.placed_offset {input : Text} {n : Nat} :
    (Position.offset n).Placed input ↔ (input.seek? n).isSome = true := by
  refine ⟨fun h => h n rfl, fun h m hm => ?_⟩
  rwa [← Position.offset.inj hm]

/-- The item starts and stops between characters. -/
structure Item.Placed (input : Text) (i : Item rules) : Prop where
  start : i.start.Placed input
  stop : i.stop.Placed input

namespace Parser

variable {g : Grammar} {strategy : Strategy} {input : Text} {c : Chart g.rules} {i : Item g.rules}

theorem placed_of_skippingBlanks {s : Symbol} {p : Nat} {m : Match}
    (h : Lexer.skippingBlanks s input p = some m) :
    (Position.offset p).Placed input ∧ (Position.offset m.stop).Placed input := by
  obtain ⟨text, q, blanks, -, -, htext, hblanks, -⟩ := Lexer.skippingBlanks_covers h
  exact ⟨Position.placed_offset.2 (Text.isSome_seek?_of_slice? htext).1,
    Position.placed_offset.2 (Text.isSome_seek?_of_slice? hblanks).2⟩

theorem Predicts.placed {r : g.RuleId} {place : Position}
    (h : Predicts strategy .skippingBlanks input c r place)
    (hall : ∀ i, c.Has i → i.Placed input) : place.Placed input := by
  cases h with
  | entity hs hr =>
      exact Position.placed_offset.2 (Option.isSome_of_mem
        (Text.seek?_eq_some.2 ⟨Cursor.mem_ahead_self input.start, rfl⟩))
  | seed hs hr hf hx hm => exact (placed_of_skippingBlanks hm).1
  | empty hs hr => exact fun n hn => absurd hn (by simp)
  | wanted hs hi hw hr => exact (hall _ ⟨_, hi⟩).stop
  | emptyWanted hs hi hw hr => exact (hall _ ⟨_, hi⟩).stop
  | started hs hi hd hr => exact (hall _ ⟨_, hi⟩).start

/-- **Edges start and stop between characters.** -/
theorem Built.placed (hc : Built strategy .skippingBlanks input c) (hi : c.Has i) :
    i.Placed input := by
  refine hc.forall_item (P := fun i => i.Placed input) ?_ hi
  intro c e _ hall ha
  cases ha with
  | predicted h => exact ⟨h.placed hall, h.placed hall⟩
  | joined ho hf ht =>
      have hbase := hall _ ⟨_, ho⟩
      have hchild := hall _ ⟨_, hf⟩
      exact ⟨hbase.start.orElse hchild.start, hchild.stop.orElse hbase.stop⟩
  | scanned ho hn hs hp hm => exact ⟨(hall _ ⟨_, ho⟩).start, (placed_of_skippingBlanks hm).2⟩
  | scannedAnywhere ho hn hs hp hx hm =>
      exact ⟨(placed_of_skippingBlanks hm).1, (placed_of_skippingBlanks hm).2⟩
  | filled hs ho hg hp hf hr hq hlt hle hm =>
      obtain ⟨text, -, -, rfl⟩ := Gap.matchSpan?_eq_some.1 hm
      refine ⟨(hall _ ⟨_, ho⟩).start, ?_⟩
      rw [← hq]
      exact (hall _ ⟨_, hf⟩).start

end Parser

end ChartParsing
