import ChartParsing.Pattern.Search
import ChartParsing.Proofs.Text.Cursors
import Mathlib.Data.Finset.Card

/-!
# Searches of programs without loops

A program is `Falling` if each instruction goes on at smaller addresses only.  From each address it then
leads to some ends, in an order of preference: `Program.endsFrom` lists them by trying everything.

The search tries each instruction once at each place.  In a program that falls nothing is lost by this.  While
what a try leads to is still on the stack, nothing of it has the address of the try; and when that is done
without an end found, the try leads to none.  `Settled` says so of the tries that were made.

Main statement: **`Program.search_eq_head?`**.  The search answers the first of the ends.
-/

namespace ChartParsing.Pattern

variable {code : Array Inst} {i : Inst} {a b : Nat} {c : Cursor} {t : Try}

/-! ### Where instructions go on -/

/-- The addresses at which an instruction may go on. -/
def Inst.targets : Inst → List Nat
  | .char _ next | .set _ next | .look _ next => [next]
  | .split preferred other => [preferred, other]
  | .accept | .fail => []

/-- The addresses and places at which an instruction goes on from a place, preferred ones first. -/
def Inst.goes (i : Inst) (c : Cursor) : List (Nat × Cursor) :=
  match i with
  | .char x next =>
      match c.rest with
      | y :: ys => if y = x then [(next, ⟨c.offset + y.utf8Size, some y, ys⟩)] else []
      | [] => []
  | .set s next =>
      match c.rest with
      | y :: ys => if s.contains y then [(next, ⟨c.offset + y.utf8Size, some y, ys⟩)] else []
      | [] => []
  | .look condition next => if condition.holds c.before c.after then [(next, c)] else []
  | .split preferred other => [(preferred, c), (other, c)]
  | .accept | .fail => []

theorem Inst.map_follow (i : Inst) (t : Try) :
    (i.follow t).map (fun t' => (t'.address, t'.cursor)) = i.goes t.cursor := by
  cases i with
  | char x next =>
      simp only [follow, goes]
      cases t.cursor.rest with
      | nil => rfl
      | cons y ys => by_cases hy : y = x <;> simp [hy, follow.step]
  | set s next =>
      simp only [follow, goes]
      cases t.cursor.rest with
      | nil => rfl
      | cons y ys => cases hy : s.contains y <;> simp [hy, follow.step]
  | look condition next =>
      simp only [follow, goes]
      cases condition.holds t.cursor.before t.cursor.after <;> rfl
  | split preferred other => rfl
  | accept => rfl
  | fail => rfl

theorem Inst.mem_targets_of_mem_goes {p : Nat × Cursor} (h : p ∈ i.goes c) : p.1 ∈ i.targets := by
  cases i with
  | char x next =>
      simp only [goes] at h
      split at h
      · split at h <;> simp_all [targets]
      · simp at h
  | set s next =>
      simp only [goes] at h
      split at h
      · split at h <;> simp_all [targets]
      · simp at h
  | look condition next =>
      simp only [goes] at h
      split at h <;> simp_all [targets]
  | split preferred other =>
      simp only [goes, List.mem_cons, List.not_mem_nil, or_false] at h
      rcases h with rfl | rfl <;> simp [targets]
  | accept => simp [goes] at h
  | fail => simp [goes] at h

theorem Inst.mem_targets_of_mem_follow {t' : Try} (h : t' ∈ i.follow t) : t'.address ∈ i.targets := by
  have hmem : (t'.address, t'.cursor) ∈ i.goes t.cursor := by
    rw [← i.map_follow]
    exact List.mem_map_of_mem h
  exact mem_targets_of_mem_goes hmem

theorem Inst.length_follow_le (i : Inst) (t : Try) : (i.follow t).length ≤ 2 := by
  cases i with
  | char x next =>
      simp only [follow]
      split
      · split <;> simp
      · simp
  | set s next =>
      simp only [follow]
      split
      · split <;> simp
      · simp
  | look condition next =>
      simp only [follow]
      split <;> simp
  | split preferred other => simp [follow]
  | accept => simp [follow]
  | fail => simp [follow]

/-! ### Ends -/

/-- Every instruction goes on at smaller addresses only: there are no loops. -/
def Falling (code : Array Inst) : Prop :=
  ∀ (a : Nat) (i : Inst), code[a]? = some i → ∀ next ∈ i.targets, next < a

namespace Program

/-- The ends that are reached from an address and a place by fewer than `depth` jumps. -/
def endsWithin (code : Array Inst) : Nat → Nat → Cursor → List Cursor
  | 0, _, _ => []
  | depth + 1, a, c =>
      match code[a]? with
      | some .accept => [c]
      | some i => (i.goes c).flatMap (fun p => endsWithin code depth p.1 p.2)
      | none => []

/-- The ends that are reached from an address and a place, preferred ones first.  As addresses fall, there
are no more jumps than the address has room for. -/
def endsFrom (code : Array Inst) (a : Nat) (c : Cursor) : List Cursor := endsWithin code (a + 1) a c

theorem endsWithin_eq (hcode : Falling code) {depth depth' : Nat} (h : a < depth) (h' : a < depth') :
    endsWithin code depth a c = endsWithin code depth' a c := by
  induction depth generalizing depth' a c with
  | zero => omega
  | succ depth ih =>
      cases depth' with
      | zero => omega
      | succ depth' =>
          unfold endsWithin
          split
          · rfl
          · next i _ hi =>
              refine List.flatMap_congr (fun p hp => ?_)
              have hfall := hcode a i hi p.1 (Inst.mem_targets_of_mem_goes hp)
              exact ih (by omega) (by omega)
          · rfl

theorem endsFrom_of_accept (h : code[a]? = some .accept) : endsFrom code a c = [c] := by
  rw [endsFrom, endsWithin, h]

/-- The ends are those of the places at which the instruction goes on. -/
theorem endsFrom_of_inst (hcode : Falling code) (h : code[a]? = some i) (hi : i ≠ .accept) :
    endsFrom code a c = (i.goes c).flatMap (fun p => endsFrom code p.1 p.2) := by
  have hstep : endsFrom code a c = (i.goes c).flatMap (fun p => endsWithin code a p.1 p.2) := by
    rw [endsFrom, endsWithin, h]
    cases i <;> first | rfl | exact absurd rfl hi
  rw [hstep]
  refine List.flatMap_congr (fun p hp => ?_)
  have hfall := hcode a i h p.1 (Inst.mem_targets_of_mem_goes hp)
  exact endsWithin_eq hcode hfall (Nat.lt_succ_self _)

end Program

/-! ### Tries -/

/-- The ends that a try leads to. -/
def Try.ends (code : Array Inst) (t : Try) : List Cursor := Program.endsFrom code t.address t.cursor

theorem Try.ends_of_inst (hcode : Falling code) (h : code[t.address]? = some i) (hi : i ≠ .accept) :
    t.ends code = (i.follow t).flatMap (Try.ends code) := by
  rw [Try.ends, Program.endsFrom_of_inst hcode h hi, ← i.map_follow, List.flatMap_map]
  rfl

/-- The try is at one of the instructions, and where its number of steps leads from the start. -/
structure Try.Placed (code : Array Inst) (start : Cursor) (t : Try) : Prop where
  address : t.address < code.size
  cursor : start.ahead[t.steps]? = some t.cursor

/-- The number by which the search knows a try. -/
def Try.key (code : Array Inst) (t : Try) : Nat := t.steps * code.size + t.address

section Tries

variable {start : Cursor} {t t' : Try}

/-- Tries are told apart by their numbers. -/
theorem Try.Placed.eq_of_key (h : t.Placed code start) (h' : t'.Placed code start)
    (hkey : t.key code = t'.key code) : t.address = t'.address ∧ t.cursor = t'.cursor := by
  have hsize : 0 < code.size := Nat.lt_of_le_of_lt (Nat.zero_le _) h.address
  unfold Try.key at hkey
  have haddress : t.address = t'.address := by
    have hmod := congrArg (· % code.size) hkey
    simpa [Nat.add_mod, Nat.mod_eq_of_lt h.address, Nat.mod_eq_of_lt h'.address] using hmod
  have hsteps : t.steps = t'.steps := by
    rw [haddress] at hkey
    exact Nat.eq_of_mul_eq_mul_right hsize (Nat.add_right_cancel hkey)
  refine ⟨haddress, Option.some.inj ?_⟩
  rw [← h.cursor, ← h'.cursor, hsteps]

theorem Try.Placed.key_lt (h : t.Placed code start) :
    t.key code < code.size * (start.rest.length + 1) := by
  have hlength : start.ahead.length = start.rest.length + 1 := by
    obtain ⟨offset, before, rest⟩ := start
    clear h
    induction rest generalizing offset before with
    | nil => rfl
    | cons x xs ih => rw [Cursor.ahead_cons, List.length_cons, ih, List.length_cons]
  have hsteps : t.steps < start.rest.length + 1 := by
    rw [← hlength]
    exact (List.getElem?_eq_some_iff.1 h.cursor).1
  have hle := Nat.mul_le_mul_right code.size (Nat.succ_le_of_lt hsteps)
  rw [Nat.succ_mul] at hle
  have haddress := h.address
  unfold Try.key
  rw [Nat.mul_comm code.size]
  omega

/-- What is ahead of the place that some steps lead to. -/
theorem drop_ahead {n : Nat} (h : start.ahead[n]? = some c) : start.ahead.drop n = c.ahead := by
  obtain ⟨offset, before, rest⟩ := start
  induction n generalizing offset before rest with
  | zero =>
      obtain ⟨behind, hbehind⟩ := Cursor.exists_ahead_eq_cons ⟨offset, before, rest⟩
      rw [hbehind] at h
      obtain rfl := Option.some.inj h
      rfl
  | succ n ih =>
      cases rest with
      | nil => simp [Cursor.ahead, Text.cursorsFrom] at h
      | cons x xs =>
          rw [Cursor.ahead_cons, List.getElem?_cons_succ] at h
          rw [Cursor.ahead_cons, List.drop_succ_cons]
          exact ih _ _ _ h

theorem getElem?_ahead_succ {n : Nat} {x : Char} {xs : Text} (h : start.ahead[n]? = some c)
    (hrest : c.rest = x :: xs) :
    start.ahead[n + 1]? = some ⟨c.offset + x.utf8Size, some x, xs⟩ := by
  have hdrop := drop_ahead h
  rw [Cursor.ahead_of_cons hrest] at hdrop
  obtain ⟨behind, hbehind⟩ := Cursor.exists_ahead_eq_cons ⟨c.offset + x.utf8Size, some x, xs⟩
  have hsecond := congrArg (·[1]?) hdrop
  rw [hbehind] at hsecond
  simpa using hsecond

/-- What a placed try leads to is placed. -/
theorem Try.Placed.follow (hcode : Falling code) (h : t.Placed code start)
    (hi : code[t.address]? = some i) (ht : t' ∈ i.follow t) : t'.Placed code start := by
  have hfall := hcode t.address i hi t'.address (Inst.mem_targets_of_mem_follow ht)
  refine ⟨Nat.lt_trans hfall h.address, ?_⟩
  cases i with
  | char x next =>
      simp only [Inst.follow] at ht
      split at ht
      · next y ys hrest =>
          split at ht
          · obtain rfl := List.mem_singleton.1 ht
            exact getElem?_ahead_succ h.cursor hrest
          · simp at ht
      · simp at ht
  | set s next =>
      simp only [Inst.follow] at ht
      split at ht
      · next y ys hrest =>
          split at ht
          · obtain rfl := List.mem_singleton.1 ht
            exact getElem?_ahead_succ h.cursor hrest
          · simp at ht
      · simp at ht
  | look condition next =>
      simp only [Inst.follow] at ht
      split at ht
      · obtain rfl := List.mem_singleton.1 ht
        exact h.cursor
      · simp at ht
  | split preferred other =>
      simp only [Inst.follow, List.mem_cons, List.not_mem_nil, or_false] at ht
      rcases ht with rfl | rfl <;> exact h.cursor
  | accept => simp [Inst.follow] at ht
  | fail => simp [Inst.follow] at ht

/-! ### The search -/

/-- A try that was made leads to no end, or what is left of it is on top of the stack, with an end. -/
def Settled (code : Array Inst) (stack : List Try) (t : Try) : Prop :=
  t.ends code = [] ∨ ∃ front x back, stack = front ++ x :: back ∧ x.ends code ≠ [] ∧
    ∀ y ∈ x :: front, y.address < t.address

/-- When the try on top leads to no end, it can be dropped. -/
theorem Settled.drop {x : Try} {stack : List Try} (h : Settled code (x :: stack) t)
    (hx : x.ends code = []) : Settled code stack t := by
  rcases h with h | ⟨front, y, back, hstack, hy, hless⟩
  · exact .inl h
  · cases front with
    | nil =>
        obtain ⟨rfl, -⟩ := List.cons_eq_cons.1 hstack
        exact absurd hx hy
    | cons z front =>
        obtain ⟨-, rfl⟩ := List.cons_eq_cons.1 hstack
        refine .inr ⟨front, y, back, rfl, hy, fun u hu => hless u ?_⟩
        rcases List.mem_cons.1 hu with rfl | hu
        · exact List.mem_cons_self
        · exact List.mem_cons_of_mem _ (List.mem_cons_of_mem _ hu)

/-- Of what a try with ends leads to, something has ends, and everything has a smaller address. -/
theorem exists_follow (stack : List Try) (hcode : Falling code) (hi : code[t.address]? = some i)
    (hne : i ≠ .accept) (hends : t.ends code ≠ []) : ∃ front x back,
      i.follow t ++ stack = front ++ x :: back ∧ x.ends code ≠ [] ∧
        ∀ y ∈ x :: front, y.address < t.address := by
  rw [Try.ends_of_inst hcode hi hne, ne_eq, List.flatMap_eq_nil_iff] at hends
  push Not at hends
  obtain ⟨x, hx, hends⟩ := hends
  obtain ⟨front, back, hfollow⟩ := List.append_of_mem hx
  refine ⟨front, x, back ++ stack, by rw [hfollow]; simp, hends, fun y hy => ?_⟩
  refine hcode t.address i hi y.address (Inst.mem_targets_of_mem_follow (t := t) ?_)
  rw [hfollow]
  rcases List.mem_cons.1 hy with rfl | hy
  · exact List.mem_append_right _ List.mem_cons_self
  · exact List.mem_append_left _ hy

/-- A try that has just been made is settled. -/
theorem settled_self {stack : List Try} (hcode : Falling code) (hi : code[t.address]? = some i)
    (hne : i ≠ .accept) : Settled code (i.follow t ++ stack) t := by
  by_cases hends : t.ends code = []
  · exact .inl hends
  · exact .inr (exists_follow stack hcode hi hne hends)

/-- When the try on top is made, what it leads to takes its place. -/
theorem Settled.expand {x : Try} {stack : List Try} (hcode : Falling code)
    (hi : code[x.address]? = some i) (hne : i ≠ .accept) (h : Settled code (x :: stack) t) :
    Settled code (i.follow x ++ stack) t := by
  rcases h with h | ⟨front, y, back, hstack, hy, hless⟩
  · exact .inl h
  · refine .inr ?_
    cases front with
    | nil =>
        obtain ⟨rfl, rfl⟩ := List.cons_eq_cons.1 hstack
        obtain ⟨front, z, back, hfollow, hz, hbelow⟩ := exists_follow stack hcode hi hne hy
        exact ⟨front, z, back, hfollow, hz,
          fun u hu => Nat.lt_trans (hbelow u hu) (hless x List.mem_cons_self)⟩
    | cons z front =>
        obtain ⟨rfl, rfl⟩ := List.cons_eq_cons.1 hstack
        have hx := hless x (List.mem_cons_of_mem _ List.mem_cons_self)
        refine ⟨i.follow x ++ front, y, back, by simp, hy, fun u hu => ?_⟩
        rcases List.mem_cons.1 hu with rfl | hu
        · exact hless u List.mem_cons_self
        · rcases List.mem_append.1 hu with hu | hu
          · have hbelow := hcode x.address i hi u.address (Inst.mem_targets_of_mem_follow hu)
            exact Nat.lt_trans hbelow hx
          · exact hless u (List.mem_cons_of_mem _ (List.mem_cons_of_mem _ hu))

/-- A try on top of the stack that was made before leads to no end, as nothing left of it can have its
own address. -/
theorem Settled.ends_eq_nil {stack : List Try} (h : Settled code (t :: stack) t) : t.ends code = [] := by
  rcases h with h | ⟨front, y, back, hstack, -, hless⟩
  · exact h
  · have htop : t ∈ y :: front := by
      cases front with
      | nil =>
          obtain ⟨rfl, -⟩ := List.cons_eq_cons.1 hstack
          exact List.mem_cons_self
      | cons z front =>
          obtain ⟨rfl, -⟩ := List.cons_eq_cons.1 hstack
          exact List.mem_cons_of_mem _ List.mem_cons_self
    exact absurd (hless t htop) (Nat.lt_irrefl _)

/-- What is known while a search runs: the tries on the stack are placed, those that were made are
settled, and there is fuel for the stack and for two tries behind each one that is left to make. -/
structure Searching (code : Array Inst) (start : Cursor) (fuel : Nat) (seen : NatSet)
    (stack : List Try) (made : Finset Nat) : Prop where
  placed : ∀ t ∈ stack, t.Placed code start
  settled : ∀ t : Try, t.Placed code start → seen.contains (t.key code) = true → Settled code stack t
  members : ∀ n, seen.contains n = true ↔ n ∈ made
  bound : made ⊆ Finset.range (code.size * (start.rest.length + 1))
  fuel : stack.length + 2 * (code.size * (start.rest.length + 1) - made.card) ≤ fuel

/-- Tries with one number lead to the same. -/
theorem Settled.congr {stack : List Try} (h : Settled code stack t) (haddress : t.address = t'.address)
    (hcursor : t.cursor = t'.cursor) : Settled code stack t' := by
  unfold Settled Try.ends at *
  rwa [← haddress, ← hcursor]

theorem Searching.skip {fuel : Nat} {seen : NatSet} {stack : List Try} {made : Finset Nat}
    (h : Searching code start (fuel + 1) seen (t :: stack) made)
    (hseen : seen.contains (t.key code) = true) :
    t.ends code = [] ∧ Searching code start fuel seen stack made := by
  have hends := (h.settled t (h.placed t List.mem_cons_self) hseen).ends_eq_nil
  refine ⟨hends, fun u hu => h.placed u (List.mem_cons_of_mem _ hu),
    fun u hu hkey => (h.settled u hu hkey).drop hends, h.members, h.bound, ?_⟩
  have hfuel := h.fuel
  rw [List.length_cons] at hfuel
  omega

theorem Searching.make {fuel : Nat} {seen : NatSet} {stack : List Try} {made : Finset Nat}
    (hcode : Falling code) (h : Searching code start (fuel + 1) seen (t :: stack) made)
    (hseen : seen.contains (t.key code) = false) (hi : code[t.address]? = some i) (hne : i ≠ .accept) :
    Searching code start fuel (seen.insert (t.key code)) (i.follow t ++ stack)
      (insert (t.key code) made) := by
  have ht := h.placed t List.mem_cons_self
  have hnew : t.key code ∉ made := fun hmem =>
    Bool.false_ne_true (hseen.symm.trans ((h.members _).2 hmem))
  have hbound : insert (t.key code) made ⊆ Finset.range (code.size * (start.rest.length + 1)) :=
    Finset.insert_subset (Finset.mem_range.2 ht.key_lt) h.bound
  refine ⟨fun u hu => ?_, fun u hu hkey => ?_, fun n => ?_, hbound, ?_⟩
  · rcases List.mem_append.1 hu with hu | hu
    · exact ht.follow hcode hi hu
    · exact h.placed u (List.mem_cons_of_mem _ hu)
  · rw [NatSet.contains_insert, Bool.or_eq_true, decide_eq_true_iff] at hkey
    rcases hkey with hkey | hkey
    · exact (h.settled u hu hkey).expand hcode hi hne
    · obtain ⟨haddress, hcursor⟩ := ht.eq_of_key hu hkey
      exact (settled_self hcode hi hne).congr haddress hcursor
  · rw [NatSet.contains_insert, Bool.or_eq_true, decide_eq_true_iff, Finset.mem_insert, h.members,
      or_comm, eq_comm]
  · have hcard := Finset.card_le_card hbound
    have hlength := i.length_follow_le t
    have hfuel := h.fuel
    rw [Finset.card_insert_of_notMem hnew, Finset.card_range] at hcard
    rw [Finset.card_insert_of_notMem hnew, List.length_append]
    rw [List.length_cons] at hfuel
    omega

theorem head?_run {fuel : Nat} {seen : NatSet} {stack : List Try} {made : Finset Nat}
    (hcode : Falling code) (h : Searching code start fuel seen stack made) :
    Program.run code fuel seen stack = (stack.flatMap (Try.ends code)).head? := by
  induction fuel generalizing seen stack made with
  | zero =>
      have hfuel := h.fuel
      obtain rfl := List.eq_nil_of_length_eq_zero (by omega : stack.length = 0)
      rfl
  | succ fuel ih =>
      cases stack with
      | nil => rfl
      | cons t stack =>
          obtain ⟨i, hi⟩ : ∃ i, code[t.address]? = some i :=
            ⟨_, Array.getElem?_eq_getElem (h.placed t List.mem_cons_self).address⟩
          unfold Program.run
          dsimp only
          rw [List.flatMap_cons]
          cases hseen : seen.contains (t.steps * code.size + t.address) with
          | true =>
              obtain ⟨hends, hrest⟩ := h.skip hseen
              rw [hends, List.nil_append, if_pos rfl]
              exact ih hrest
          | false =>
              rw [if_neg Bool.false_ne_true, hi]
              by_cases hne : i = .accept
              · subst hne
                rw [Try.ends, Program.endsFrom_of_accept hi]
                rfl
              · have hrest := ih (h.make hcode hseen hi hne)
                rw [List.flatMap_append, ← Try.ends_of_inst hcode hi hne] at hrest
                cases i <;> first | exact hrest | exact absurd rfl hne

end Tries

/-- **A search answers the first of the ends** that the program leads to, if the program has no loops. -/
theorem Program.search_eq_head? {p : Program} (hcode : Falling p.code) (hentry : p.entry < p.code.size)
    (c : Cursor) : p.search c = (Program.endsFrom p.code p.entry c).head? := by
  have hstart : Searching p.code c (Program.tries p.code (c.rest.length + 1)) NatSet.empty
      [⟨p.entry, 0, c⟩] ∅ := by
    refine ⟨fun t ht => ?_, fun t _ ht => ?_, fun n => by simp, Finset.empty_subset _, ?_⟩
    · obtain rfl := List.mem_singleton.1 ht
      obtain ⟨behind, hbehind⟩ := Cursor.exists_ahead_eq_cons c
      exact ⟨hentry, by rw [hbehind]; rfl⟩
    · rw [NatSet.contains_empty] at ht
      exact absurd ht Bool.false_ne_true
    · have hless : p.code.size * (c.rest.length + 1) ≤ (p.code.size + 1) * (c.rest.length + 1) :=
        Nat.mul_le_mul_right _ (Nat.le_succ _)
      rw [Program.tries, Finset.card_empty, List.length_singleton, Nat.mul_assoc]
      omega
  have hrun := head?_run hcode hstart
  rw [List.flatMap_singleton] at hrun
  exact hrun

end ChartParsing.Pattern
