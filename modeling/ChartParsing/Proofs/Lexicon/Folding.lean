import ChartParsing.Proofs.Grammar.Loading
import ChartParsing.Proofs.Lexicon.Cuts
import ChartParsing.Proofs.Lexicon.Words

/-!
# Folded lexicons

A lexicon and its texts taken one by one may accept different words, as a text may be cut in two where escaping
makes one piece of it.

There are words that tell.  The words of tidy rows are narrow: few blanks stand beside a hyphen, and few spaces
in a row (**`narrow_of_mem`**).  The widest word of a row that is not tidy has too many of them somewhere
(**`tidy_of_widest`**).

Main statement: **`pattern_accepts_iff`**.  A lexicon accepts what its texts accept one by one exactly if it is
not empty and no text is escaped differently because it is cut.
-/

namespace ChartParsing.Lexicon

variable {p q : Piece} {ps : List Piece} {u v w : Text} {list : List Text}

/-! ### Narrow words -/

/-- Are there no more than four blanks beside a hyphen, eight between two of them, and four spaces in a row
elsewhere?  In front of the text there is a run of blanks, with so many spaces at its end; `hyphen` says that
it comes behind a hyphen. -/
def Narrow (hyphen : Bool) (blanks spaces : Nat) : Text → Prop
  | [] => hyphen = true → blanks ≤ 4
  | c :: rest =>
      if c = '-' then blanks ≤ (if hyphen then 8 else 4) ∧ Narrow true 0 0 rest
      else if isBlank c then
        (hyphen = true ∨ (if c = ' ' then spaces + 1 else 0) ≤ 4) ∧
          Narrow hyphen (blanks + 1) (if c = ' ' then spaces + 1 else 0) rest
      else (hyphen = true → blanks ≤ 4) ∧ Narrow false 0 0 rest

/-- Pieces do not stand for hyphens and spaces literally. -/
def Proper (ps : List Piece) : Prop := ∀ p ∈ ps, p ≠ .char '-' ∧ p ≠ .char ' '

theorem proper_onto (hp : p ≠ .char '-' ∧ p ≠ .char ' ') (h : Proper ps) : Proper (p.onto ps) := by
  unfold Piece.onto
  split
  · refine List.forall_mem_cons.2 ⟨by simp, fun q hq => h q ?_⟩
    exact (List.dropWhile_suffix _).subset hq
  · split
    · exact h
    · exact List.forall_mem_cons.2 ⟨hp, h⟩

theorem proper_pieceOf (x : Char) : pieceOf x ≠ .char '-' ∧ pieceOf x ≠ .char ' ' := by
  unfold pieceOf
  split
  · simp
  · split
    · simp
    · next hhyphen hspace => simp [hhyphen, hspace]

theorem proper_pieces (t : Text) : Proper (pieces t) := by
  induction t with
  | nil => exact fun p hp => absurd hp List.not_mem_nil
  | cons x t ih =>
      rw [pieces_cons]
      exact proper_onto (proper_pieceOf x) ih

theorem proper_cutPieces (list : List Text) (t : Text) : Proper (cutPieces list t) := fun p hp => by
  obtain ⟨part, -, hpart⟩ := List.mem_flatMap.1 hp
  exact proper_pieces part p hpart

section Reading

variable {hyphen : Bool} {blanks spaces : Nat} {c : Char}

theorem narrow_blank (hc : isBlank c = true) : Narrow hyphen blanks spaces (c :: v) ↔
    (hyphen = true ∨ (if c = ' ' then spaces + 1 else 0) ≤ 4) ∧
      Narrow hyphen (blanks + 1) (if c = ' ' then spaces + 1 else 0) v := by
  have hne : c ≠ '-' := fun heq => by
    rw [heq] at hc
    exact absurd hc (by decide)
  rw [Narrow, if_neg hne, if_pos hc]

theorem narrow_other (hne : c ≠ '-') (hc : isBlank c = false) : Narrow hyphen blanks spaces (c :: v) ↔
    (hyphen = true → blanks ≤ 4) ∧ Narrow false 0 0 v := by
  rw [Narrow, if_neg hne, if_neg (by simp [hc])]

theorem narrow_hyphen : Narrow hyphen blanks spaces ('-' :: v) ↔
    blanks ≤ (if hyphen then 8 else 4) ∧ Narrow true 0 0 v := by
  rw [Narrow, if_pos rfl]

/-- A run of blanks is narrow behind a hyphen, or if it is short enough. -/
theorem narrow_append (hu : ∀ c ∈ u, isBlank c = true) (hspaces : hyphen = true ∨ spaces + u.length ≤ 4)
    (hv : ∀ s ≤ spaces + u.length, Narrow hyphen (blanks + u.length) s v) :
    Narrow hyphen blanks spaces (u ++ v) := by
  induction u generalizing blanks spaces with
  | nil => exact hv spaces (Nat.le_refl _)
  | cons c u ih =>
      rw [List.length_cons] at hspaces hv
      have hle : (if c = ' ' then spaces + 1 else 0) ≤ spaces + 1 := by split <;> omega
      refine (narrow_blank (hu c List.mem_cons_self)).2 ⟨hspaces.imp_right (fun h => by omega), ?_⟩
      refine ih (fun d hd => hu d (List.mem_cons_of_mem c hd)) (hspaces.imp_right (fun h => by omega))
        (fun s hs => ?_)
      rw [Nat.add_assoc, Nat.add_comm 1]
      exact hv s (by omega)

/-- What is known of the run of blanks behind a word of a piece that stands in a tidy row. -/
def Piece.Behind : Piece → Bool → Nat → Nat → Prop
  | .hyphen, hyphen, blanks, _ => hyphen = true ∧ blanks ≤ 4
  | .space, hyphen, _, spaces => hyphen = false ∧ spaces ≤ 4
  | .char c, hyphen, blanks, spaces => hyphen = false ∧ spaces = 0 ∧ (isBlank c = false → blanks = 0)

theorem Piece.Behind.eq_false (h : p.Behind hyphen blanks spaces) (hne : p ≠ .hyphen) : hyphen = false := by
  cases p with
  | hyphen => exact absurd rfl hne
  | space => exact h.1
  | char c => exact h.1

theorem Piece.Behind.le_four (h : p.Behind hyphen blanks spaces) (htrue : hyphen = true) : blanks ≤ 4 := by
  cases p with
  | hyphen => exact h.2
  | space => exact absurd (h.1.symm.trans htrue) Bool.false_ne_true
  | char c => exact absurd (h.1.symm.trans htrue) Bool.false_ne_true

/-- If there is no blank in front there is room for four. -/
theorem Piece.Behind.room (h : p.Behind hyphen blanks spaces) (hblank : p.blank = false) {n : Nat}
    (hn : n ≤ 4) : (hyphen = true ∨ spaces + n ≤ 4) ∧ blanks + n ≤ if hyphen then 8 else 4 := by
  cases p with
  | hyphen =>
      obtain ⟨rfl, hblanks⟩ := h
      exact ⟨.inl rfl, by rw [if_pos rfl]; omega⟩
  | space => exact absurd hblank (by simp [Piece.blank])
  | char d =>
      obtain ⟨rfl, rfl, hblanks⟩ := h
      rw [hblanks hblank, if_neg Bool.false_ne_true]
      exact ⟨.inr (by omega), by omega⟩

/-- One more piece leaves a word narrow. -/
theorem narrow_piece (hq : q ≠ .char '-' ∧ q ≠ .char ' ') (hapart : p.Apart q)
    (hp : p.Behind hyphen blanks spaces) (hu : u ∈ q.language)
    (hv : ∀ h b s, q.Behind h b s → Narrow h b s v) : Narrow hyphen blanks spaces (u ++ v) := by
  obtain ⟨hbehind, hbefore, hspaces⟩ := hapart
  -- a blank starts no run behind a hyphen, a space comes behind a character, a hyphen behind no blank
  cases q with
  | char c =>
      obtain rfl : u = [c] := hu
      have hhyphen : c ≠ '-' := fun heq => hq.1 (heq ▸ rfl)
      have hspace : c ≠ ' ' := fun heq => hq.2 (heq ▸ rfl)
      cases hc : isBlank c with
      | true =>
          have hnot : p ≠ .hyphen := fun heq => Bool.false_ne_true ((hbehind heq).symm.trans hc)
          refine (narrow_blank hc).2 ⟨.inr ?_, hv _ _ _ ⟨hp.eq_false hnot, if_neg hspace, ?_⟩⟩
          · rw [if_neg hspace]
            omega
          · simp [hc]
      | false => exact (narrow_other hhyphen hc).2 ⟨hp.le_four, hv _ _ _ ⟨rfl, rfl, fun _ => rfl⟩⟩
  | space =>
      obtain ⟨-, hlength, hblank⟩ := hu
      cases p with
      | hyphen => exact absurd (hbehind rfl) (by simp [Piece.blank])
      | space => exact absurd ⟨rfl, rfl⟩ hspaces
      | char d =>
          obtain ⟨hfalse, rfl, -⟩ := hp
          exact narrow_append hblank (.inr (by omega)) (fun s hs => hv _ _ _ ⟨hfalse, by omega⟩)
  | hyphen =>
      obtain ⟨_, hleft, right, ⟨-, hright, hblank'⟩, rfl⟩ := Language.mem_mul.1 hu
      obtain ⟨left, ⟨-, hlength, hblank⟩, _, rfl, rfl⟩ := Language.mem_mul.1 hleft
      obtain ⟨hspaces, hblanks⟩ := hp.room (hbefore rfl) hlength
      have hend : Narrow true 0 0 (right ++ v) :=
        narrow_append hblank' (.inl rfl) (fun s _ => hv _ _ _ ⟨rfl, by omega⟩)
      rw [List.append_assoc, List.append_assoc]
      exact narrow_append hblank hspaces (fun s _ => narrow_hyphen.2 ⟨hblanks, hend⟩)

theorem narrow_row (h : Tidy (p :: ps)) (hproper : Proper ps) (hp : p.Behind hyphen blanks spaces)
    (hw : w ∈ rowLanguage ps) : Narrow hyphen blanks spaces w := by
  induction ps generalizing p hyphen blanks spaces w with
  | nil =>
      obtain rfl : w = [] := hw
      exact hp.le_four
  | cons q ps ih =>
      rw [rowLanguage_cons] at hw
      obtain ⟨u, hu, v, hv, rfl⟩ := Language.mem_mul.1 hw
      obtain ⟨hapart, htidy⟩ := List.isChain_cons_cons.1 h
      obtain ⟨hq, hrest⟩ := List.forall_mem_cons.1 hproper
      exact narrow_piece hq hapart hp hu (fun _ _ _ hbehind => ih htidy hrest hbehind hv)

end Reading

/-- A letter is apart from everything. -/
theorem tidy_letter (h : Tidy ps) : Tidy (.char 'x' :: ps) :=
  List.isChain_cons.2 ⟨fun _ _ => ⟨by simp, fun _ => by decide, by simp⟩, h⟩

/-- **The words of tidy rows are narrow.** -/
theorem narrow_of_mem (htidy : Tidy ps) (hproper : Proper ps) (hw : w ∈ rowLanguage ps) :
    Narrow false 0 0 w := by
  have hletter : (Piece.char 'x').Behind false 0 0 := ⟨rfl, rfl, fun _ => rfl⟩
  exact narrow_row (tidy_letter htidy) hproper hletter hw

/-! ### Widest words -/

/-- Four spaces. -/
def fourSpaces : Text := List.replicate 4 ' '

/-- The longest word of a piece that has only spaces for blanks. -/
def Piece.widest : Piece → Text
  | .char c => [c]
  | .space => fourSpaces
  | .hyphen => fourSpaces ++ '-' :: fourSpaces

theorem widest_mem_language (p : Piece) : p.widest ∈ p.language := by
  have hblanks : ∀ n ≤ 4, fourSpaces ∈ blankRuns n 4 := fun n hn =>
    ⟨hn, Nat.le_refl 4, fun c hc => by rw [List.eq_of_mem_replicate hc]; decide⟩
  cases p with
  | char c => rfl
  | space => exact hblanks 1 (by omega)
  | hyphen =>
      have hleft := Language.append_mem_mul (hblanks 0 (by omega)) (Set.mem_singleton ['-'])
      rw [Piece.widest, List.append_cons]
      exact Language.append_mem_mul hleft (hblanks 0 (by omega))

theorem widest_mem_rowLanguage (ps : List Piece) : ps.flatMap Piece.widest ∈ rowLanguage ps := by
  induction ps with
  | nil => rfl
  | cons p ps ih =>
      rw [List.flatMap_cons, rowLanguage_cons]
      exact Language.append_mem_mul (widest_mem_language p) ih

section Reading

variable {hyphen : Bool} {blanks spaces : Nat}

/-- Behind anything but a hyphen, no space may stand in front of four more. -/
theorem narrow_fourSpaces (h : Narrow hyphen blanks spaces (fourSpaces ++ v)) :
    (hyphen = true ∨ spaces = 0) ∧ Narrow hyphen (blanks + 4) (spaces + 4) v := by
  have hspace : isBlank ' ' = true := by decide
  simp only [fourSpaces, List.replicate, List.cons_append, List.nil_append, narrow_blank hspace, if_pos] at h
  obtain ⟨-, -, -, hfour, hv⟩ := h
  exact ⟨hfour.imp_right (fun hle => by omega), hv⟩

/-- Five blanks behind a hyphen are too many in front of a widest word. -/
theorem not_narrow_of_five (hproper : Proper ps) (h : 5 ≤ blanks) :
    ¬ Narrow true blanks spaces (ps.flatMap Piece.widest) := by
  intro hnarrow
  induction ps generalizing blanks spaces with
  | nil =>
      have hle : blanks ≤ 4 := hnarrow rfl
      omega
  | cons p ps ih =>
      obtain ⟨hp, hrest⟩ := List.forall_mem_cons.1 hproper
      rw [List.flatMap_cons] at hnarrow
      cases p with
      | char c =>
          cases hc : isBlank c with
          | true => exact ih hrest (by omega) ((narrow_blank hc).1 hnarrow).2
          | false =>
              have hne : c ≠ '-' := fun heq => hp.1 (heq ▸ rfl)
              have hle := ((narrow_other hne hc).1 hnarrow).1 rfl
              omega
      | space => exact ih hrest (by omega) (narrow_fourSpaces hnarrow).2
      | hyphen =>
          rw [Piece.widest, List.append_assoc, List.cons_append] at hnarrow
          have hle := (narrow_hyphen.1 (narrow_fourSpaces hnarrow).2).1
          rw [if_pos rfl] at hle
          omega

/-- What is known of the run of blanks behind the widest word of a piece. -/
def Piece.Leaves : Piece → Bool → Nat → Nat → Prop
  | .hyphen, hyphen, blanks, _ => hyphen = true ∧ 4 ≤ blanks
  | .space, hyphen, blanks, spaces => hyphen = false ∧ 1 ≤ blanks ∧ 1 ≤ spaces
  | .char c, hyphen, blanks, _ => hyphen = false ∧ (isBlank c = true → 1 ≤ blanks)

theorem Piece.Leaves.eq_false (h : p.Leaves hyphen blanks spaces) (hne : p ≠ .hyphen) : hyphen = false := by
  cases p with
  | hyphen => exact absurd rfl hne
  | space => exact h.1
  | char c => exact h.1

/-- Four spaces and a hyphen are too many behind a blank. -/
theorem Piece.Leaves.blank_eq_false (h : p.Leaves hyphen blanks spaces) (hfour : hyphen = true ∨ spaces = 0)
    (hle : blanks + 4 ≤ if hyphen then 8 else 4) : p.blank = false := by
  cases p with
  | hyphen => rfl
  | space =>
      obtain ⟨rfl, -, hspaces⟩ := h
      exact absurd (hfour.resolve_left Bool.false_ne_true) (by omega)
  | char d =>
      obtain ⟨rfl, hblanks⟩ := h
      rw [if_neg Bool.false_ne_true] at hle
      exact Bool.eq_false_of_not_eq_true (fun hd => absurd (hblanks hd) (by omega))

/-- If the widest word is narrow, the next piece is apart from the one in front. -/
theorem apart_of_widest (hproper : Proper (q :: ps)) (hp : p.Leaves hyphen blanks spaces)
    (h : Narrow hyphen blanks spaces (q.widest ++ ps.flatMap Piece.widest)) :
    p.Apart q ∧ ∃ h' b s, q.Leaves h' b s ∧ Narrow h' b s (ps.flatMap Piece.widest) := by
  obtain ⟨hq, hrest⟩ := List.forall_mem_cons.1 hproper
  cases q with
  | char c =>
      cases hc : isBlank c with
      | true =>
          have hnext := ((narrow_blank hc).1 h).2
          have hnot : p ≠ .hyphen := by
            rintro rfl
            obtain ⟨rfl, hblanks⟩ := hp
            exact not_narrow_of_five hrest (by omega) hnext
          exact ⟨⟨fun heq => absurd heq hnot, by simp, by simp⟩, _, _, _,
            ⟨hp.eq_false hnot, fun _ => by omega⟩, hnext⟩
      | false =>
          have hne : c ≠ '-' := fun heq => hq.1 (heq ▸ rfl)
          have hnext := ((narrow_other hne hc).1 h).2
          exact ⟨⟨fun _ => hc, by simp, by simp⟩, _, _, _, ⟨rfl, by simp [hc]⟩, hnext⟩
  | space =>
      obtain ⟨hfour, hnext⟩ := narrow_fourSpaces h
      cases p with
      | hyphen =>
          obtain ⟨rfl, hblanks⟩ := hp
          exact absurd hnext (not_narrow_of_five hrest (by omega))
      | space =>
          obtain ⟨rfl, -, hspaces⟩ := hp
          exact absurd (hfour.resolve_left Bool.false_ne_true) (by omega)
      | char d => exact ⟨⟨by simp, by simp, by simp⟩, _, _, _, ⟨hp.1, by omega, by omega⟩, hnext⟩
  | hyphen =>
      rw [Piece.widest, List.append_assoc, List.cons_append] at h
      obtain ⟨hfour, hmiddle⟩ := narrow_fourSpaces h
      obtain ⟨hle, hbehind⟩ := narrow_hyphen.1 hmiddle
      have hnext := (narrow_fourSpaces hbehind).2
      have hblank := hp.blank_eq_false hfour hle
      exact ⟨⟨fun _ => rfl, fun _ => hblank, by simp⟩, _, _, _, ⟨rfl, by omega⟩, hnext⟩

theorem tidy_cons_of_widest (hproper : Proper ps) (hp : p.Leaves hyphen blanks spaces)
    (h : Narrow hyphen blanks spaces (ps.flatMap Piece.widest)) : Tidy (p :: ps) := by
  induction ps generalizing p hyphen blanks spaces with
  | nil => exact List.isChain_singleton p
  | cons q ps ih =>
      rw [List.flatMap_cons] at h
      obtain ⟨hapart, _, _, _, hleaves, hnext⟩ := apart_of_widest hproper hp h
      have hrest := (List.forall_mem_cons.1 hproper).2
      exact List.isChain_cons_cons.2 ⟨hapart, ih hrest hleaves hnext⟩

end Reading

/-- **Only of tidy rows is the widest word narrow.** -/
theorem tidy_of_widest (hproper : Proper ps) (h : Narrow false 0 0 (ps.flatMap Piece.widest)) : Tidy ps := by
  have hletter : (Piece.char 'x').Leaves false 0 0 := ⟨rfl, by decide⟩
  exact (tidy_cons_of_widest hproper hletter h).tail

/-! ### Folding -/

/-- **A lexicon accepts what its texts accept one by one** exactly if it is not empty and none of them is
escaped differently when it is cut where it parts from the others. -/
theorem pattern_accepts_iff {p : Pattern} {q : Text → Pattern}
    (hp : Pattern.compile false (anchored (pattern escape list)) = .ok p)
    (hq : ∀ e ∈ list, Pattern.compile false (anchored (escape e)) = .ok (q e)) :
    (∀ w, p.occursIn w = true ↔ ∃ e ∈ list, (q e).occursIn w = true) ↔
      list ≠ [] ∧ ∀ e ∈ list, (cuts list e).flatMap escape = escape e := by
  have hone : ∀ e ∈ list, ∀ w, (q e).occursIn w = true ↔ w ∈ rowLanguage (pieces e) := fun e he w =>
    occursIn_row _ (by rw [← escape_eq]; exact hq e he) w
  constructor
  · intro hall
    have hne : list ≠ [] := by
      rintro rfl
      obtain ⟨e, he, -⟩ := (hall []).1 ((occursIn_row [] hp []).2 rfl)
      exact List.not_mem_nil he
    refine ⟨hne, fun e he => ?_⟩
    have hwidest := widest_mem_rowLanguage (cutPieces list e)
    obtain ⟨e', he', hw⟩ := (hall _).1 ((occursIn_pattern hne hp _).2 ⟨e, he, hwidest⟩)
    have hnarrow := narrow_of_mem (tidy_pieces e') (proper_pieces e') ((hone e' he' _).1 hw)
    have htidy := tidy_of_widest (proper_cutPieces list e) hnarrow
    rw [← flatMap_write_cutPieces, (cutPieces_eq_iff list e).2 htidy, escape_eq]
  · rintro ⟨hne, hcuts⟩ w
    rw [occursIn_pattern hne hp]
    refine exists_congr (fun e => and_congr_right (fun he => ?_))
    -- the row of the parts has the same pattern, so it is not needed that it is the same row
    have hrow : Pattern.compile false (anchored ((cutPieces list e).flatMap Piece.write)) = .ok (q e) := by
      rw [flatMap_write_cutPieces, hcuts e he]
      exact hq e he
    exact (occursIn_row _ hrow w).symm

theorem exists_compiled (list : List Text) (p : Pattern)
    (h : ∀ e ∈ list, (Pattern.compile false (anchored (escape e))).isOk = true) :
    ∃ q : Text → Pattern, ∀ e ∈ list, Pattern.compile false (anchored (escape e)) = .ok (q e) := by
  refine ⟨fun e => (Pattern.compile false (anchored (escape e))).toOption.getD p, fun e he => ?_⟩
  obtain ⟨r, hr⟩ := exists_of_isOk (h e he)
  simp only [hr]
  rfl

/-- Names that part behind a single space can be folded. -/
theorem pattern_accepts_names : ∃ (p : Pattern) (q : Text → Pattern),
    Pattern.compile false (anchored (pattern escape ["New York".toList, "New Orleans".toList])) = .ok p ∧
      ∀ w, p.occursIn w = true ↔
        ∃ e ∈ ["New York".toList, "New Orleans".toList], (q e).occursIn w = true := by
  obtain ⟨p, hp⟩ := exists_of_isOk (show (Pattern.compile false (anchored
    (pattern escape ["New York".toList, "New Orleans".toList]))).isOk = true by decide +kernel)
  obtain ⟨q, hq⟩ := exists_compiled ["New York".toList, "New Orleans".toList] p (by decide +kernel)
  exact ⟨p, q, hp, (pattern_accepts_iff hp hq).2 ⟨by simp, by decide⟩⟩

/-- Texts that part behind a loose hyphen cannot: a hyphen without blanks is not accepted any more. -/
theorem pattern_accepts_less : ¬ ∀ (list : List Text) (p : Pattern) (q : Text → Pattern),
    Pattern.compile false (anchored (pattern escape list)) = .ok p →
      (∀ e ∈ list, Pattern.compile false (anchored (escape e)) = .ok (q e)) →
        ∀ w, p.occursIn w = true ↔ ∃ e ∈ list, (q e).occursIn w = true := by
  intro h
  obtain ⟨p, hp⟩ := exists_of_isOk (show (Pattern.compile false (anchored
    (pattern escape ["a - b".toList, "a - c".toList]))).isOk = true by decide +kernel)
  obtain ⟨q, hq⟩ := exists_compiled ["a - b".toList, "a - c".toList] p (by decide +kernel)
  have hfolded : (Pattern.compile false (anchored
      (pattern escape ["a - b".toList, "a - c".toList]))).toOption.map (·.occursIn "a-b".toList) =
        some false := by decide +kernel
  have halone : (Pattern.compile false (anchored (escape "a - b".toList))).toOption.map
      (·.occursIn "a-b".toList) = some true := by decide +kernel
  rw [hp] at hfolded
  rw [hq _ List.mem_cons_self] at halone
  have haccepts := (h _ p q hp hq "a-b".toList).2 ⟨_, List.mem_cons_self, Option.some.inj halone⟩
  exact Bool.false_ne_true ((Option.some.inj hfolded).symm.trans haccepts)

end ChartParsing.Lexicon
