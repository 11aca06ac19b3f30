import ChartParsing.Proofs.Lexicon.Groups
import Mathlib.Computability.Language

/-!
# Words of lexicons

Each piece stands for some words, and a row of pieces for those that are made of them in turn: `rowLanguage`.
A row of nodes finds the places behind its words: **`endsBehind_row`**.

* **`occursIn_row`**: the pattern of a row accepts its words and no others.
* **`occursIn_pattern`**: the pattern of a lexicon accepts the words of its texts, each part of a text taken by
  itself.
-/

namespace ChartParsing.Lexicon

open Pattern

variable {p : Piece} {ps : List Piece} {w : Text} {f g : Cursor → List Cursor} {l m : Language Char}
variable {a b n : Nat} {list : List Text}

/-! ### Words of pieces -/

/-- The runs of blanks that have these lengths. -/
def blankRuns (least greatest : Nat) : Language Char :=
  {w | least ≤ w.length ∧ w.length ≤ greatest ∧ ∀ c ∈ w, isBlank c = true}

/-- The words that a piece stands for. -/
def Piece.language : Piece → Language Char
  | .char c => {[c]}
  | .space => blankRuns 1 4
  | .hyphen => blankRuns 0 4 * {['-']} * blankRuns 0 4

/-- The words that a row of pieces stands for. -/
def rowLanguage (ps : List Piece) : Language Char := (ps.map Piece.language).prod

theorem rowLanguage_cons (p : Piece) (ps : List Piece) :
    rowLanguage (p :: ps) = p.language * rowLanguage ps := by
  rw [rowLanguage, List.map_cons, List.prod_cons]
  rfl

/-- The places that `f` finds are those behind the words of a language. -/
def EndsBehind (f : Cursor → List Cursor) (l : Language Char) : Prop :=
  ∀ c rest, (∃ c' ∈ f c, c'.rest = rest) ↔ ∃ w ∈ l, c.rest = w ++ rest

theorem EndsBehind.comp (hf : EndsBehind f l) (hg : EndsBehind g m) :
    EndsBehind (fun c => (f c).flatMap g) (l * m) := by
  intro c rest
  constructor
  · rintro ⟨c', hc', hrest⟩
    obtain ⟨d, hd, hc'⟩ := List.mem_flatMap.1 hc'
    obtain ⟨v, hv, hdrest⟩ := (hg d rest).1 ⟨c', hc', hrest⟩
    obtain ⟨u, hu, hcrest⟩ := (hf c (v ++ rest)).1 ⟨d, hd, hdrest⟩
    exact ⟨u ++ v, Language.append_mem_mul hu hv, by rw [hcrest, List.append_assoc]⟩
  · rintro ⟨_, hw, hcrest⟩
    obtain ⟨u, hu, v, hv, rfl⟩ := Language.mem_mul.1 hw
    obtain ⟨d, hd, hdrest⟩ := (hf c (v ++ rest)).2 ⟨u, hu, by rw [hcrest, List.append_assoc]⟩
    obtain ⟨c', hc', hrest⟩ := (hg d rest).2 ⟨v, hv, hdrest⟩
    exact ⟨c', List.mem_flatMap.2 ⟨d, hd, hc'⟩, hrest⟩

theorem endsBehind_one : EndsBehind (fun c => [c]) 1 := fun c rest => by
  simp [Language.mem_one]

theorem endsBehind_char (x : Char) : EndsBehind (fun c => c.taking (· = x)) {[x]} := by
  intro c rest
  constructor
  · rintro ⟨c', hc', rfl⟩
    obtain ⟨y, ys, hrest, hy, rfl⟩ := Cursor.mem_taking.1 hc'
    obtain rfl := of_decide_eq_true hy
    exact ⟨[y], rfl, hrest⟩
  · rintro ⟨_, rfl, hrest⟩
    exact ⟨_, Cursor.mem_taking.2 ⟨x, rest, hrest, decide_eq_true rfl, rfl⟩, rfl⟩

theorem mem_blankRuns_succ : w ∈ blankRuns (a + 1) (b + 1) ↔
    ∃ x v, w = x :: v ∧ isBlank x = true ∧ v ∈ blankRuns a b := by
  constructor
  · rintro ⟨hleast, hgreatest, hblank⟩
    cases w with
    | nil => exact absurd hleast (by simp)
    | cons x v =>
        rw [List.length_cons] at hleast hgreatest
        exact ⟨x, v, rfl, hblank x List.mem_cons_self, by omega, by omega,
          fun d hd => hblank d (List.mem_cons_of_mem x hd)⟩
  · rintro ⟨x, v, rfl, hx, hleast, hgreatest, hblank⟩
    refine ⟨?_, ?_, List.forall_mem_cons.2 ⟨hx, hblank⟩⟩ <;> rw [List.length_cons] <;> omega

/-- One more blank in front. -/
theorem EndsBehind.blank (h : EndsBehind f (blankRuns a b)) :
    EndsBehind (fun c => (c.taking blanks.contains).flatMap f) (blankRuns (a + 1) (b + 1)) := by
  intro c rest
  constructor
  · rintro ⟨c', hc', hrest'⟩
    obtain ⟨d, hd, hc'⟩ := List.mem_flatMap.1 hc'
    obtain ⟨x, xs, hrest, hx, rfl⟩ := Cursor.mem_taking.1 hd
    obtain ⟨v, hv, rfl⟩ := (h _ rest).1 ⟨c', hc', hrest'⟩
    exact ⟨x :: v, mem_blankRuns_succ.2 ⟨x, v, rfl, hx, hv⟩, hrest⟩
  · rintro ⟨_, hw, hrest⟩
    obtain ⟨x, v, rfl, hx, hv⟩ := mem_blankRuns_succ.1 hw
    obtain ⟨c', hc', hrest'⟩ := (h ⟨c.offset + x.utf8Size, some x, v ++ rest⟩ rest).2 ⟨v, hv, rfl⟩
    exact ⟨c', List.mem_flatMap.2 ⟨_, Cursor.mem_taking.2 ⟨x, v ++ rest, hrest, hx, rfl⟩, hc'⟩, hrest'⟩

theorem endsBehind_upTo (n : Nat) :
    EndsBehind (upTo (fun c => c.taking blanks.contains) true n) (blankRuns 0 n) := by
  induction n with
  | zero =>
      intro c rest
      have hnil : ∀ w, w ∈ blankRuns 0 0 ↔ w = [] := fun w =>
        ⟨fun hw => List.eq_nil_of_length_eq_zero (Nat.le_zero.1 hw.2.1), fun hw => hw ▸ ⟨by simp, by simp, by simp⟩⟩
      simp [upTo, hnil]
  | succ n ih =>
      intro c rest
      have hsplit : (∃ w ∈ blankRuns 0 (n + 1), c.rest = w ++ rest) ↔
          (∃ w ∈ blankRuns 1 (n + 1), c.rest = w ++ rest) ∨ c.rest = rest := by
        constructor
        · rintro ⟨w, ⟨-, hgreatest, hblank⟩, heq⟩
          cases w with
          | nil => exact .inr heq
          | cons x w => exact .inl ⟨x :: w, ⟨by simp, hgreatest, hblank⟩, heq⟩
        · rintro (⟨w, ⟨-, hgreatest, hblank⟩, heq⟩ | heq)
          · exact ⟨w, ⟨Nat.zero_le _, hgreatest, hblank⟩, heq⟩
          · exact ⟨[], ⟨Nat.zero_le _, Nat.zero_le _, by simp⟩, heq⟩
      rw [hsplit, ← ih.blank c rest, upTo, if_pos rfl]
      simp only [List.mem_append, List.mem_singleton, or_and_right, exists_or, exists_eq_left]

theorem endsBehind_times (least n : Nat) : EndsBehind
    (fun c => (times (fun c => c.taking blanks.contains) least c).flatMap
      (upTo (fun c => c.taking blanks.contains) true n)) (blankRuns least (least + n)) := by
  induction least with
  | zero => simpa [times] using endsBehind_upTo n
  | succ least ih =>
      have hmore := ih.blank
      simp only [times, List.flatMap_assoc]
      rwa [Nat.add_right_comm]

theorem endsBehind_blanks (h : n ≤ 4) : EndsBehind (blanksNode n).ends (blankRuns n 4) := by
  have hends : (blanksNode n).ends = fun c => (times (fun c => c.taking blanks.contains) n c).flatMap
      (upTo (fun c => c.taking blanks.contains) true (4 - n)) := by
    funext c
    rfl
  rw [hends]
  simpa [Nat.add_sub_cancel' h] using endsBehind_times n (4 - n)

/-- **The ends of a piece** are behind its words. -/
theorem endsBehind_piece (p : Piece) : EndsBehind (Branch.rowEnds [p]) p.language := by
  have hchar (x : Char) : EndsBehind (Node.literal [x]).ends {[x]} := by
    have hends : (Node.literal [x]).ends = fun c => c.taking (· = x) := by
      funext c
      rw [Node.ends, charsEnds]
      exact List.flatMap_singleton' _
    rw [hends]
    exact endsBehind_char x
  have hone (n : Node) (p : Piece) (hp : p.nodes = [n]) : Branch.rowEnds [p] = n.ends := by
    funext c
    rw [Branch.rowEnds, List.flatMap_singleton, hp, Node.endsAll_singleton]
  cases p with
  | char x =>
      rw [hone _ (.char x) rfl]
      exact hchar x
  | space =>
      rw [hone _ .space rfl]
      exact endsBehind_blanks (by omega)
  | hyphen =>
      have hblanks := endsBehind_blanks (n := 0) (by omega)
      have hall := (hblanks.comp (hchar '-')).comp hblanks
      have hends : Branch.rowEnds [.hyphen] = fun c =>
          (((blanksNode 0).ends c).flatMap (Node.literal ['-']).ends).flatMap (blanksNode 0).ends := by
        funext c
        simp only [Branch.rowEnds, List.flatMap_singleton, Piece.nodes, Node.endsAll, List.flatMap_assoc]
        simp
      rw [hends]
      exact hall

/-- **The ends of a row** are behind its words. -/
theorem endsBehind_row (ps : List Piece) : EndsBehind (Branch.rowEnds ps) (rowLanguage ps) := by
  induction ps with
  | nil => exact endsBehind_one
  | cons p ps ih =>
      have happend : Branch.rowEnds (p :: ps) = fun c => (Branch.rowEnds [p] c).flatMap (Branch.rowEnds ps) :=
        funext (rowEnds_append [p] ps)
      rw [happend, rowLanguage_cons]
      exact (endsBehind_piece p).comp ih

/-! ### Accepted words -/

theorem mem_rowLanguage_iff : w ∈ rowLanguage ps ↔ ∃ c ∈ Branch.rowEnds ps w.start, c.rest = [] := by
  rw [endsBehind_row ps w.start []]
  simp [Text.start]

/-- **The pattern of a row** accepts its words. -/
theorem occursIn_row (ps : List Piece) {pattern : Pattern}
    (h : Pattern.compile false (anchored (ps.flatMap Piece.write)) = .ok pattern) (w : Text) :
    pattern.occursIn w = true ↔ w ∈ rowLanguage ps := by
  have hwrite : ps.flatMap Piece.write = Branch.writeAll [.leaf ps] := by
    rw [← Branch.intercalate_writeEach]
    exact List.intercalate_singleton.symm
  have hfine : Branch.FineEach [.leaf ps] := ⟨trivial, trivial⟩
  rw [hwrite] at h
  rw [accepts_iff (by simp) hfine (by simp) h w, mem_rowLanguage_iff,
    Branch.endsEach_eq_flatMap, List.flatMap_singleton]
  rfl

/-- **The pattern of a lexicon** accepts the words of its texts, each part taken by itself. -/
theorem occursIn_pattern {p : Pattern} (hne : list ≠ [])
    (h : Pattern.compile false (anchored (pattern escape list)) = .ok p) (w : Text) :
    p.occursIn w = true ↔ ∃ e ∈ list, w ∈ rowLanguage (cutPieces list e) := by
  have hfits := fits_longest list
  rw [pattern_eq] at h
  rw [accepts_iff (trie_ne_nil hfits hne) (fineEach_trie hfits) (nodup_first_trie _ list) h]
  simp only [mem_endsEach_trie hfits, mem_rowLanguage_iff]
  constructor
  · rintro ⟨c, ⟨e, he, hc⟩, hrest⟩
    exact ⟨e, he, c, hc, hrest⟩
  · rintro ⟨e, he, c, hc, hrest⟩
    exact ⟨c, ⟨e, he, hc⟩, hrest⟩

theorem flatMap_write_cutPieces (list : List Text) (e : Text) :
    (cutPieces list e).flatMap Piece.write = (cuts list e).flatMap escape := by
  rw [cutPieces, List.flatMap_assoc]
  exact List.flatMap_congr (fun part _ => (escape_eq part).symm)

end ChartParsing.Lexicon
