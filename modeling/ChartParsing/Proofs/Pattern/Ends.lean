import ChartParsing.Pattern.Compiled
import ChartParsing.Proofs.Pattern.Searches

/-!
# Ends of patterns

`Node.ends` lists the places at which a pattern can end that starts at a place, preferred ones first.  It is
said by the form of the pattern and knows nothing of programs.

The programs of patterns whose repetitions all have bounds, `Node.bounded`, have no loops.  Each piece that is
added to such a program leads from its start to the ends of the pattern, and goes on from there: `Adds`.

Main statement: **`Node.search_program`**.  The search answers the first of the ends of the pattern.
-/

namespace ChartParsing

/-- The place behind the next character, if there is one that satisfies `p`. -/
def Cursor.taking (p : Char → Bool) (c : Cursor) : List Cursor :=
  match c.rest with
  | x :: xs => if p x then [⟨c.offset + x.utf8Size, some x, xs⟩] else []
  | [] => []

theorem Cursor.mem_taking {p : Char → Bool} {c c' : Cursor} : c' ∈ c.taking p ↔
    ∃ x xs, c.rest = x :: xs ∧ p x = true ∧ c' = ⟨c.offset + x.utf8Size, some x, xs⟩ := by
  unfold Cursor.taking
  split
  · next x xs hrest => simp [hrest]
  · next hrest => simp [hrest]

namespace Pattern

variable {code code' : Array Inst} {next a n : Nat} {c : Cursor} {f g : Cursor → List Cursor}
variable {r : Array Inst × Nat}

/-! ### Ends -/

/-- The ends of a row of characters. -/
def charsEnds : List Char → Cursor → List Cursor
  | [], c => [c]
  | x :: xs, c => (c.taking (· = x)).flatMap (charsEnds xs)

/-- The ends of exactly this many repetitions. -/
def times (f : Cursor → List Cursor) : Nat → Cursor → List Cursor
  | 0, c => [c]
  | n + 1, c => (f c).flatMap (times f n)

/-- The ends of at most this many repetitions; a lazy pattern prefers fewer of them. -/
def upTo (f : Cursor → List Cursor) (greedy : Bool) : Nat → Cursor → List Cursor
  | 0, c => [c]
  | n + 1, c =>
      if greedy then (f c).flatMap (upTo f greedy n) ++ [c]
      else c :: (f c).flatMap (upTo f greedy n)

mutual

/-- The ends of a pattern, preferred ones first.  Repetitions without a bound are not gone into. -/
def Node.ends : Node → Cursor → List Cursor
  | .empty, c => [c]
  | .literal cs, c => charsEnds cs c
  | .set s, c => c.taking s.contains
  | .look condition, c => if condition.holds c.before c.after then [c] else []
  | .repetition min max greedy body, c =>
      (times (Node.ends body) min c).flatMap (upTo (Node.ends body) greedy (max.getD 0 - min))
  | .capture _ body, c => Node.ends body c
  | .concat parts, c => Node.endsAll parts c
  | .alternation branches, c => Node.endsAny branches c

/-- The ends of patterns that follow one another. -/
def Node.endsAll : List Node → Cursor → List Cursor
  | [], c => [c]
  | part :: rest, c => (Node.ends part c).flatMap (Node.endsAll rest)

/-- The ends of a choice. -/
def Node.endsAny : List Node → Cursor → List Cursor
  | [], _ => []
  | branch :: rest, c => Node.ends branch c ++ Node.endsAny rest c

end

mutual

/-- Do all repetitions have bounds? -/
def Node.bounded : Node → Bool
  | .repetition _ max _ body => max.isSome && Node.bounded body
  | .capture _ body => Node.bounded body
  | .concat parts => Node.boundedAll parts
  | .alternation branches => Node.boundedAll branches
  | _ => true

/-- Do all repetitions in all patterns have bounds? -/
def Node.boundedAll : List Node → Bool
  | [] => true
  | part :: rest => Node.bounded part && Node.boundedAll rest

end

/-! ### Programs that grow -/

/-- The second program starts with the first one. -/
def Extends (code code' : Array Inst) : Prop := ∀ a < code.size, code'[a]? = code[a]?

theorem Extends.refl (code : Array Inst) : Extends code code := fun _ _ => rfl

theorem Extends.size_le (h : Extends code code') : code.size ≤ code'.size := by
  by_contra hlt
  have hget := h code'.size (by omega)
  rw [Array.getElem?_eq_none (Nat.le_refl _), Array.getElem?_eq_getElem (by omega)] at hget
  simp at hget

theorem Extends.trans {code'' : Array Inst} (h : Extends code code') (h' : Extends code' code'') :
    Extends code code'' := fun a ha => by
  rw [h' a (Nat.lt_of_lt_of_le ha h.size_le), h a ha]

theorem extends_push (code : Array Inst) (i : Inst) : Extends code (code.push i) := fun a ha => by
  rw [Array.getElem?_push, if_neg (Nat.ne_of_lt ha)]

theorem Falling.of_extends (h : Extends code code') (hcode : Falling code') : Falling code := by
  intro a i hi
  have ha := (Array.getElem?_eq_some_iff.1 hi).1
  exact hcode a i ((h a ha).trans hi)

theorem Falling.push {i : Inst} (hcode : Falling code) (hi : ∀ next ∈ i.targets, next < code.size) :
    Falling (code.push i) := by
  intro a j hj next hnext
  rw [Array.getElem?_push] at hj
  split at hj
  · next ha =>
      obtain rfl := Option.some.inj hj
      rw [ha]
      exact hi next hnext
  · exact hcode a j hj next hnext

/-- What is added to a program changes nothing of what it leads to. -/
theorem endsFrom_of_extends (h : Extends code code') (hcode : Falling code') (ha : a < code.size) :
    Program.endsFrom code' a c = Program.endsFrom code a c := by
  have hold := hcode.of_extends h
  induction a using Nat.strongRecOn generalizing c with
  | _ a ih =>
      have hget : code[a]? = some code[a] := Array.getElem?_eq_getElem ha
      have hget' := (h a ha).trans hget
      by_cases hi : code[a] = .accept
      · rw [hi] at hget hget'
        rw [Program.endsFrom_of_accept hget, Program.endsFrom_of_accept hget']
      · rw [Program.endsFrom_of_inst hold hget hi, Program.endsFrom_of_inst hcode hget' hi]
        refine List.flatMap_congr (fun p hp => ?_)
        have hfall := hold a _ hget p.1 (Inst.mem_targets_of_mem_goes hp)
        exact ih p.1 hfall (Nat.lt_trans hfall ha)

/-- Something was added to a program that leads from a new start to the ends of `f`, and goes on at `next`
from there. -/
structure Adds (code : Array Inst) (next : Nat) (f : Cursor → List Cursor) (r : Array Inst × Nat) :
    Prop where
  grows : Extends code r.1
  falling : Falling r.1
  entry : r.2 < r.1.size
  ends : ∀ c, Program.endsFrom r.1 r.2 c = (f c).flatMap (Program.endsFrom code next)

/-- A function that adds to programs does so in this way wherever it goes on. -/
def Emits (emit : Nat → Array Inst → Array Inst × Nat) (f : Cursor → List Cursor) : Prop :=
  ∀ next code, Falling code → next < code.size → Adds code next f (emit next code)

theorem Adds.refl (hcode : Falling code) (hnext : next < code.size) :
    Adds code next (fun c => [c]) (code, next) where
  grows := .refl code
  falling := hcode
  entry := hnext
  ends _ := (List.flatMap_singleton _ _).symm

/-- What is added last comes first. -/
theorem Adds.trans {r' : Array Inst × Nat} (h : Adds code next f r) (h' : Adds r.1 r.2 g r') :
    Adds code next (fun c => (g c).flatMap f) r' where
  grows := h.grows.trans h'.grows
  falling := h'.falling
  entry := h'.entry
  ends c := by
    rw [h'.ends, List.flatMap_assoc]
    exact List.flatMap_congr (fun d _ => h.ends d)

theorem Adds.congr (h : Adds code next f r) (hfg : ∀ c, f c = g c) : Adds code next g r := by
  rwa [← funext hfg]

/-- An instruction that goes on at one address. -/
theorem adds_push {i : Inst} (hcode : Falling code) (hnext : next < code.size) (hi : i ≠ .accept)
    (htargets : i.targets = [next]) (hgoes : ∀ c, i.goes c = (f c).map (fun d => (next, d))) :
    Adds code next f (Program.push code i) := by
  have hfalling : Falling (code.push i) := hcode.push (by simpa [htargets] using hnext)
  refine ⟨extends_push code i, hfalling, by simp [Program.push], fun c => ?_⟩
  have hget : (code.push i)[code.size]? = some i := by simp
  show Program.endsFrom (code.push i) code.size c = _
  rw [Program.endsFrom_of_inst hfalling hget hi, hgoes, List.flatMap_map]
  exact List.flatMap_congr (fun d _ => endsFrom_of_extends (extends_push code i) hfalling hnext)

/-- A choice between two addresses. -/
theorem endsFrom_push_split {preferred other : Nat} (hcode : Falling code)
    (hpreferred : preferred < code.size) (hother : other < code.size) :
    Falling (code.push (.split preferred other)) ∧ ∀ c,
      Program.endsFrom (code.push (.split preferred other)) code.size c =
        Program.endsFrom code preferred c ++ Program.endsFrom code other c := by
  have hfalling : Falling (code.push (.split preferred other)) :=
    hcode.push (by simp [Inst.targets, hpreferred, hother])
  refine ⟨hfalling, fun c => ?_⟩
  have hget : (code.push (.split preferred other))[code.size]? = some (.split preferred other) := by simp
  rw [Program.endsFrom_of_inst hfalling hget (by simp)]
  simp only [Inst.goes, List.flatMap_cons, List.flatMap_nil, List.append_nil]
  rw [endsFrom_of_extends (extends_push _ _) hfalling hpreferred,
    endsFrom_of_extends (extends_push _ _) hfalling hother]

/-! ### Pieces of programs -/

theorem emits_char (x : Char) :
    Emits (fun next code => Program.push code (.char x next)) (Cursor.taking (· = x)) := by
  intro next code hcode hnext
  refine adds_push hcode hnext (by simp) rfl (fun c => ?_)
  unfold Inst.goes Cursor.taking
  dsimp only
  cases c.rest with
  | nil => rfl
  | cons y ys => by_cases hy : y = x <;> simp [hy]

theorem emits_set (s : CharSet) :
    Emits (fun next code => Program.push code (.set s next)) (Cursor.taking s.contains) := by
  intro next code hcode hnext
  refine adds_push hcode hnext (by simp) rfl (fun c => ?_)
  unfold Inst.goes Cursor.taking
  dsimp only
  cases c.rest with
  | nil => rfl
  | cons y ys => cases hy : s.contains y <;> simp [hy]

theorem emits_look (condition : Look) :
    Emits (fun next code => Program.push code (.look condition next))
      (fun c => if condition.holds c.before c.after then [c] else []) := by
  intro next code hcode hnext
  refine adds_push hcode hnext (by simp) rfl (fun c => ?_)
  unfold Inst.goes
  dsimp only
  cases condition.holds c.before c.after <;> simp

theorem emits_chars (cs : List Char) :
    Emits (fun next code => Program.chars next code cs) (charsEnds cs) := by
  intro next code hcode hnext
  induction cs with
  | nil => exact .refl hcode hnext
  | cons x xs ih => exact ih.trans (emits_char x _ _ ih.falling ih.entry)

theorem times_flatMap (f : Cursor → List Cursor) (n : Nat) (c : Cursor) :
    (times f n c).flatMap f = (f c).flatMap (times f n) := by
  induction n generalizing c with
  | zero => simp [times]
  | succ n ih =>
      rw [times, List.flatMap_assoc]
      exact List.flatMap_congr (fun d _ => ih d)

theorem emits_copies {emit : Nat → Array Inst → Array Inst × Nat} (h : Emits emit f) (count : Nat) :
    Emits (Program.copies emit count) (times f count) := by
  induction count with
  | zero => exact fun next code hcode hnext => .refl hcode hnext
  | succ count ih =>
      intro next code hcode hnext
      have hfirst := h next code hcode hnext
      exact (hfirst.trans (ih _ _ hfirst.falling hfirst.entry)).congr (times_flatMap f count)

/-- One more repetition may be left out, together with those that follow. -/
theorem adds_options {emit : Nat → Array Inst → Array Inst × Nat} {greedy : Bool} {stop done : Nat}
    (h : Emits emit f) (hstop : stop < code.size) (hr : Adds code stop (upTo f greedy done) r) (count : Nat) :
    Adds code stop (upTo f greedy (done + count)) (Program.options emit greedy stop count r.2 r.1) := by
  induction count generalizing r done with
  | zero => exact hr
  | succ count ih =>
      have hbody := h r.2 r.1 hr.falling hr.entry
      have hcode := hr.grows.trans hbody.grows
      have hentry := Nat.lt_of_lt_of_le hstop hcode.size_le
      have hon : ∀ c, Program.endsFrom (emit r.2 r.1).1 stop c = Program.endsFrom code stop c :=
        fun c => endsFrom_of_extends hcode hbody.falling hstop
      have hround : ∀ c, Program.endsFrom (emit r.2 r.1).1 (emit r.2 r.1).2 c =
          ((f c).flatMap (upTo f greedy done)).flatMap (Program.endsFrom code stop) :=
        (hr.trans hbody).ends
      have hpush : Adds code stop (upTo f greedy (done + 1)) (Program.push (emit r.2 r.1).1
          (Program.branch greedy (emit r.2 r.1).2 stop)) := by
        cases greedy with
        | true =>
            obtain ⟨hfalling, hends⟩ := endsFrom_push_split hbody.falling hbody.entry hentry
            refine ⟨hcode.trans (extends_push _ _), hfalling, by simp [Program.push], fun c => ?_⟩
            refine (hends c).trans ?_
            rw [hround, hon, upTo, if_pos rfl, List.flatMap_append, List.flatMap_singleton]
        | false =>
            obtain ⟨hfalling, hends⟩ := endsFrom_push_split hbody.falling hentry hbody.entry
            refine ⟨hcode.trans (extends_push _ _), hfalling, by simp [Program.push], fun c => ?_⟩
            refine (hends c).trans ?_
            rw [hround, hon, upTo, if_neg Bool.false_ne_true, List.flatMap_cons]
      have hrest := ih hpush
      rw [Nat.add_right_comm] at hrest
      exact hrest

theorem emits_repetition {emit : Nat → Array Inst → Array Inst × Nat} (h : Emits emit f)
    (moves greedy : Bool) (min max : Nat) :
    Emits (Program.repetition emit moves greedy min (some max))
      (fun c => (times f min c).flatMap (upTo f greedy (max - min))) := by
  intro next code hcode hnext
  have hstart : Adds code next (upTo f greedy 0) (code, next) := .refl hcode hnext
  have hoptions := adds_options h hnext hstart (max - min)
  rw [Nat.zero_add] at hoptions
  have hcopies := emits_copies h min _ _ hoptions.falling hoptions.entry
  have hall := hoptions.trans hcopies
  cases min <;> exact hall

/-- A choice between several addresses. -/
theorem choose_ends {entries : List Nat} (hcode : Falling code) (hentries : ∀ e ∈ entries, e < code.size) :
    Extends code (Program.choose code entries).1 ∧ Falling (Program.choose code entries).1 ∧
      (Program.choose code entries).2 < (Program.choose code entries).1.size ∧
      ∀ c, Program.endsFrom (Program.choose code entries).1 (Program.choose code entries).2 c =
        entries.flatMap (fun e => Program.endsFrom code e c) := by
  induction entries with
  | nil =>
      have hfalling : Falling (code.push .fail) := hcode.push (by simp [Inst.targets])
      have hget : (code.push .fail)[code.size]? = some .fail := by simp
      refine ⟨extends_push code _, hfalling, by simp [Program.choose, Program.push], fun c => ?_⟩
      show Program.endsFrom (code.push .fail) code.size c = _
      rw [Program.endsFrom_of_inst hfalling hget (by simp)]
      rfl
  | cons e others ih =>
      cases others with
      | nil => exact ⟨.refl code, hcode, hentries e List.mem_cons_self, fun c => by simp [Program.choose]⟩
      | cons e' others =>
          obtain ⟨hext, hfalling, hentry, hends⟩ := ih (fun d hd => hentries d (List.mem_cons_of_mem _ hd))
          have he := hentries e List.mem_cons_self
          obtain ⟨hfalling', hends'⟩ :=
            endsFrom_push_split hfalling (Nat.lt_of_lt_of_le he hext.size_le) hentry
          refine ⟨hext.trans (extends_push _ _), hfalling', by simp [Program.choose, Program.push],
            fun c => ?_⟩
          refine (hends' c).trans ?_
          rw [hends, endsFrom_of_extends hext hfalling he]
          rfl

/-! ### Patterns -/

/-- Several patterns that go on at one address. -/
structure AddsEach (code : Array Inst) (next : Nat) (f : Cursor → List Cursor)
    (r : Array Inst × List Nat) : Prop where
  grows : Extends code r.1
  falling : Falling r.1
  entries : ∀ e ∈ r.2, e < r.1.size
  ends : ∀ c, r.2.flatMap (fun e => Program.endsFrom r.1 e c) =
    (f c).flatMap (Program.endsFrom code next)

mutual

/-- **A bounded pattern** adds to a program what leads to its ends. -/
theorem Node.emits : (n : Node) → n.bounded = true → Emits n.emit n.ends
  | .empty, _ => fun _ _ hcode hnext => .refl hcode hnext
  | .literal cs, _ => emits_chars cs
  | .set s, _ => emits_set s
  | .look condition, _ => emits_look condition
  | .repetition min max greedy body, h => by
      rw [Node.bounded, Bool.and_eq_true, Option.isSome_iff_exists] at h
      obtain ⟨⟨m, rfl⟩, hbody⟩ := h
      exact emits_repetition (Node.emits body hbody) _ greedy min m
  | .capture _ body, h => Node.emits body h
  | .concat parts, h => Node.emits_all parts h
  | .alternation branches, h => fun next code hcode hnext => by
      have heach := Node.emits_each branches h next code hcode hnext
      obtain ⟨hext, hfalling, hentry, hends⟩ := choose_ends heach.falling heach.entries
      exact ⟨heach.grows.trans hext, hfalling, hentry, fun c => (hends c).trans (heach.ends c)⟩

/-- Bounded patterns that follow one another. -/
theorem Node.emits_all : (parts : List Node) → Node.boundedAll parts = true →
    Emits (Node.emitAll parts) (Node.endsAll parts)
  | [], _ => fun _ _ hcode hnext => .refl hcode hnext
  | part :: rest, h => fun next code hcode hnext => by
      rw [Node.boundedAll, Bool.and_eq_true] at h
      have hrest := Node.emits_all rest h.2 next code hcode hnext
      exact hrest.trans (Node.emits part h.1 _ _ hrest.falling hrest.entry)

/-- Bounded patterns that go on at one address. -/
theorem Node.emits_each : (branches : List Node) → Node.boundedAll branches = true → ∀ next code,
    Falling code → next < code.size →
      AddsEach code next (Node.endsAny branches) (Node.emitEach branches next code)
  | [], _ => fun next code hcode _ =>
      ⟨.refl code, hcode, by simp [Node.emitEach], fun c => by simp [Node.emitEach, Node.endsAny]⟩
  | branch :: rest, h => fun next code hcode hnext => by
      rw [Node.boundedAll, Bool.and_eq_true] at h
      have hfirst := Node.emits branch h.1 next code hcode hnext
      have hnext' := Nat.lt_of_lt_of_le hnext hfirst.grows.size_le
      have hrest := Node.emits_each rest h.2 next _ hfirst.falling hnext'
      refine ⟨hfirst.grows.trans hrest.grows, hrest.falling, fun e he => ?_, fun c => ?_⟩
      · rcases List.mem_cons.1 he with rfl | he
        · exact Nat.lt_of_lt_of_le hfirst.entry hrest.grows.size_le
        · exact hrest.entries e he
      · have hends := hrest.ends c
        have hon : Program.endsFrom (branch.emit next code).1 next = Program.endsFrom code next :=
          funext fun d => endsFrom_of_extends hfirst.grows hfirst.falling hnext
        rw [hon] at hends
        have hhead := endsFrom_of_extends hrest.grows hrest.falling hfirst.entry (c := c)
        rw [hfirst.ends] at hhead
        rw [Node.endsAny, List.flatMap_append, ← hhead, ← hends]
        rfl

end

/-- **The search for a bounded pattern** answers the first of its ends. -/
theorem Node.search_program {n : Node} (h : n.bounded = true) (c : Cursor) :
    n.program.search c = (n.ends c).head? := by
  have hcode : Falling #[.accept] := by
    intro a i hi next hnext
    obtain ⟨ha, rfl⟩ := Array.getElem?_eq_some_iff.1 hi
    obtain rfl : a = 0 := by simpa using ha
    simp [Inst.targets] at hnext
  have hadds := Node.emits n h 0 #[.accept] hcode (by decide)
  have hsearch := Program.search_eq_head? (p := n.program) hadds.falling hadds.entry c
  rw [hsearch]
  refine congrArg List.head? ((hadds.ends c).trans ?_)
  have hlast : Program.endsFrom #[.accept] 0 = fun d => [d] :=
    funext fun d => Program.endsFrom_of_accept rfl
  rw [hlast, List.flatMap_singleton']

end Pattern

end ChartParsing
