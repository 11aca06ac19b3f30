import ChartParsing.Proofs.Lexicon.Groups
import Mathlib.Data.List.Chain
import Mathlib.Data.List.TakeWhile

/-!
# Texts that are cut

The pieces of a text can be found from its end: `Piece.onto` puts the piece of one more character in front.
A hyphen takes the blanks beside it, and spaces become one piece, so in front of a text whose pieces start
otherwise a character is a piece of its own.

* **`pieces_cons`**: the pieces of a text are found from its end.
* **`tidy_pieces`**: no two of them that stand side by side would have become one.
* **`cutPieces_eq_iff`**: cutting a text does not change its pieces exactly if they are tidy when it is cut.
-/

namespace ChartParsing.Lexicon

variable {p q : Piece} {ps : List Piece} {held t : Text} {behind inside : Bool} {x : Char} {list : List Text}

/-! ### Pieces from the end -/

/-- Does the piece stand for blanks only? -/
def Piece.blank : Piece → Bool
  | .char c => isBlank c
  | .space => true
  | .hyphen => false

/-- Puts a piece in front of others. -/
def Piece.onto (p : Piece) (ps : List Piece) : List Piece :=
  if p = .hyphen then .hyphen :: ps.dropWhile Piece.blank
  else if (p.blank = true ∧ ps.head? = some .hyphen) ∨ (p = .space ∧ ps.head? = some .space) then ps
  else p :: ps

theorem blank_of_isBlank (h : ∀ c ∈ held, isBlank c = true) : ∀ p ∈ held.map Piece.char, p.blank = true :=
  List.forall_mem_map.2 h

/-- Behind a hyphen the blanks in front are left out. -/
theorem hyphenated_behind (h : ∀ c ∈ held, isBlank c = true) (t : Text) :
    hyphenated true [] t = (hyphenated false held t).dropWhile Piece.blank := by
  induction t generalizing held with
  | nil => exact (List.dropWhile_eq_nil_iff.2 (blank_of_isBlank h)).symm
  | cons c t ih =>
      rw [hyphenated, hyphenated]
      by_cases hhyphen : c = '-'
      · rw [if_pos hhyphen, if_pos hhyphen]
        rfl
      · rw [if_neg hhyphen, if_neg hhyphen]
        cases hblank : isBlank c with
        | true =>
            refine ih (fun d hd => ?_)
            rcases List.mem_append.1 hd with hd | hd
            · exact h d hd
            · rw [List.mem_singleton.1 hd, hblank]
        | false =>
            have hhead : (Piece.char c).blank = false := hblank
            rw [if_neg Bool.false_ne_true, if_neg Bool.false_ne_true, List.map_nil, List.nil_append,
              List.dropWhile_append_of_pos (blank_of_isBlank h), List.dropWhile_cons, hhead]
            rfl

/-- A blank that is held is a piece of its own, unless a hyphen comes next. -/
theorem hyphenated_held (x : Char) (held t : Text) : hyphenated false (x :: held) t =
    if (hyphenated false held t).head? = some .hyphen then hyphenated false held t
    else .char x :: hyphenated false held t := by
  induction t generalizing held with
  | nil =>
      rw [hyphenated, hyphenated, if_neg]
      · rfl
      · cases held <;> simp
  | cons c t ih =>
      rw [hyphenated, hyphenated]
      by_cases hhyphen : c = '-'
      · rw [if_pos hhyphen, if_pos hhyphen]
        exact (if_pos rfl).symm
      · rw [if_neg hhyphen, if_neg hhyphen]
        cases isBlank c with
        | true => exact ih (held ++ [c])
        | false =>
            rw [if_neg Bool.false_ne_true, if_neg Bool.false_ne_true, if_neg]
            · rfl
            · cases held <;> simp

theorem space_not_mem_hyphenated (behind : Bool) (held t : Text) : .space ∉ hyphenated behind held t := by
  induction t generalizing behind held with
  | nil => simp [hyphenated]
  | cons c t ih =>
      rw [hyphenated]
      split
      · simp [ih]
      · split
        · split
          · exact ih true []
          · exact ih false (held ++ [c])
        · simp [ih]

theorem dropWhile_spaced (inside : Bool) (ps : List Piece) :
    (spaced inside ps).dropWhile Piece.blank = spaced false (ps.dropWhile Piece.blank) := by
  induction ps generalizing inside with
  | nil => rfl
  | cons p ps ih =>
      have hspace : (Piece.char ' ').blank = true := by decide
      rw [spaced]
      by_cases hp : p = .char ' '
      · rw [if_pos hp, hp, List.dropWhile_cons, hspace, if_pos rfl]
        cases inside with
        | true => exact ih true
        | false => exact ih true
      · rw [if_neg hp, List.dropWhile_cons, List.dropWhile_cons]
        cases hblank : p.blank with
        | true => exact ih false
        | false =>
            rw [if_neg Bool.false_ne_true, if_neg Bool.false_ne_true, spaced, if_neg hp]

theorem head?_spaced_hyphen : (spaced false ps).head? = some .hyphen ↔ ps.head? = some .hyphen := by
  cases ps with
  | nil => rfl
  | cons p ps =>
      rw [spaced]
      split
      · next hp => simp [hp]
      · rfl

/-- Spaces in front become one piece. -/
theorem spaced_space (h : .space ∉ ps) : spaced false (.char ' ' :: ps) =
    if (spaced false ps).head? = some .space then spaced false ps else .space :: spaced false ps := by
  rw [spaced, if_pos rfl, if_neg Bool.false_ne_true]
  cases ps with
  | nil => rfl
  | cons p ps =>
      rw [spaced, spaced]
      by_cases hp : p = .char ' '
      · simp [hp]
      · have hne : p ≠ .space := fun heq => h (heq ▸ List.mem_cons_self)
        simp [hp, hne]

theorem onto_of_ne (h : p ≠ .hyphen) (ps : List Piece) : p.onto ps =
    if (p.blank = true ∧ ps.head? = some .hyphen) ∨ (p = .space ∧ ps.head? = some .space) then ps
    else p :: ps := if_neg h

/-- **The pieces of a text are found from its end.** -/
theorem pieces_cons (x : Char) (t : Text) : pieces (x :: t) = (pieceOf x).onto (pieces t) := by
  have hnil : ∀ c ∈ ([] : Text), isBlank c = true := fun c hc => absurd hc List.not_mem_nil
  have hspaces := spaced_space (space_not_mem_hyphenated false [] t)
  unfold pieces pieceOf
  rw [hyphenated]
  by_cases hhyphen : x = '-'
  · rw [if_pos hhyphen, if_pos hhyphen, hyphenated_behind hnil, spaced, if_neg (by simp), ← dropWhile_spaced]
    rfl
  · rw [if_neg hhyphen, if_neg hhyphen, onto_of_ne (by split <;> simp)]
    cases hblank : isBlank x with
    | false =>
        have hne : x ≠ ' ' := fun heq => by
          rw [heq] at hblank
          exact absurd hblank (by decide)
        rw [if_neg Bool.false_ne_true, if_neg hne, if_neg (by simp [Piece.blank, hblank]), List.map_nil,
          List.nil_append, spaced, if_neg (by simpa using hne)]
    | true =>
        rw [if_pos rfl, if_neg Bool.false_ne_true, List.nil_append, hyphenated_held]
        by_cases hspace : x = ' '
        · rw [if_pos hspace, hspace]
          by_cases hhead : (hyphenated false [] t).head? = some .hyphen
          · rw [if_pos hhead, if_pos (.inl ⟨rfl, head?_spaced_hyphen.2 hhead⟩)]
          · rw [if_neg hhead, hspaces]
            simp [head?_spaced_hyphen, hhead]
        · rw [if_neg hspace]
          by_cases hhead : (hyphenated false [] t).head? = some .hyphen
          · rw [if_pos hhead, if_pos (.inl ⟨hblank, head?_spaced_hyphen.2 hhead⟩)]
          · rw [if_neg hhead, spaced, if_neg (by simpa using hspace), if_neg]
            simp [head?_spaced_hyphen, hhead]

/-! ### Tidy rows -/

/-- Would the pieces not have become one? -/
def Piece.Apart (p q : Piece) : Prop :=
  (p = .hyphen → q.blank = false) ∧ (q = .hyphen → p.blank = false) ∧ ¬ (p = .space ∧ q = .space)

/-- Pieces that stand side by side are apart. -/
def Tidy (ps : List Piece) : Prop := ps.IsChain Piece.Apart

theorem tidy_onto (p : Piece) (h : Tidy ps) : Tidy (p.onto ps) := by
  unfold Piece.onto
  by_cases hp : p = .hyphen
  · rw [if_pos hp]
    refine List.isChain_cons.2 ⟨fun q hq => ?_, h.suffix (List.dropWhile_suffix _)⟩
    have hblank := List.head?_dropWhile_not Piece.blank ps
    rw [hq] at hblank
    exact ⟨fun _ => hblank, fun _ => rfl, by simp⟩
  · rw [if_neg hp]
    split
    · exact h
    · next hnot =>
        rw [not_or, not_and, not_and] at hnot
        refine List.isChain_cons.2 ⟨fun q hq => ⟨fun heq => absurd heq hp, fun heq => ?_, ?_⟩, h⟩
        · subst heq
          exact Bool.eq_false_of_not_eq_true (fun hblank => hnot.1 hblank hq)
        · rintro ⟨hpspace, rfl⟩
          exact hnot.2 hpspace hq

/-- **The pieces of a text are tidy.** -/
theorem tidy_pieces (t : Text) : Tidy (pieces t) := by
  induction t with
  | nil => exact List.isChain_nil
  | cons x t ih =>
      rw [pieces_cons]
      exact tidy_onto _ ih

/-- A piece that is apart from the others is left as it is in front of them. -/
theorem onto_of_tidy (h : Tidy (p :: ps)) : p.onto ps = p :: ps := by
  have hhead := (List.isChain_cons.1 h).1
  unfold Piece.onto
  by_cases hp : p = .hyphen
  · rw [if_pos hp, hp]
    cases ps with
    | nil => rfl
    | cons q qs =>
        rw [List.dropWhile_cons, (hhead q rfl).1 hp]
        rfl
  · rw [if_neg hp, if_neg]
    rintro (⟨hblank, hq⟩ | ⟨hspace, hq⟩)
    · exact Bool.false_ne_true (((hhead _ hq).2.1 rfl).symm.trans hblank)
    · exact (hhead _ hq).2.2 ⟨hspace, rfl⟩

/-- **A cut text has the same pieces** exactly if they are tidy. -/
theorem cutPieces_eq_iff (list : List Text) (t : Text) :
    cutPieces list t = pieces t ↔ Tidy (cutPieces list t) := by
  refine ⟨fun h => h ▸ tidy_pieces t, fun h => ?_⟩
  induction t generalizing list with
  | nil => rfl
  | cons x rest ih =>
      have hcut : ∃ ps, cutPieces list (x :: rest) = pieceOf x :: ps ∧ (Tidy ps → ps = pieces rest) := by
        rw [cutPieces, cuts, List.flatMap_cons, pieces_singleton]
        split
        · exact ⟨pieces rest, by simp, fun _ => rfl⟩
        · exact ⟨cutPieces (tailsOf x list) rest, rfl, ih _⟩
      obtain ⟨ps, hps, hrest⟩ := hcut
      rw [hps] at h
      rw [hps, pieces_cons, ← hrest h.tail, onto_of_tidy h]

end ChartParsing.Lexicon
