import ChartParsing.Proofs.Pattern.Making
import ChartParsing.Proofs.Pattern.Steps

/-!
# Pieces of escaped texts

The escaping function writes a text as a row of pieces: characters, loose spaces and loose hyphens.
`pieces` finds them in the text itself, and `Piece.write` writes each of them by itself.

* **`escape_eq`**: an escaped text is written piece by piece.
* **`Piece.reads`**, **`Piece.means`**: each piece is read as its parts, and these stand for its nodes.
* **`pieces_of_plain`**: in a text without hyphens and spaces the pieces are its characters.
-/

namespace ChartParsing.Lexicon

open Pattern

variable {c : Char} {t held : Text} {behind inside : Bool}

/-! ### Pieces -/

/-- What an escaped text is made of. -/
inductive Piece where
  | char (c : Char)
  /-- One to four blanks. -/
  | space
  /-- A hyphen between up to four blanks on either side. -/
  | hyphen
deriving DecidableEq, Repr

/-- The pattern of a piece. -/
def Piece.write : Piece → Text
  | .char c => escapeSpecial [c]
  | .space => looseSpace
  | .hyphen => looseHyphen

/-- The characters and hyphens of a text.  Blanks around a hyphen are part of it; `behind` says that it was
just in front, and `held` are blanks that may turn out to stand in front of one. -/
def hyphenated (behind : Bool) (held : Text) : Text → List Piece
  | [] => held.map .char
  | c :: rest =>
      if c = '-' then .hyphen :: hyphenated true [] rest
      else if isBlank c then
        (if behind then hyphenated true [] rest else hyphenated false (held ++ [c]) rest)
      else held.map .char ++ .char c :: hyphenated false [] rest

/-- Makes one piece of each run of spaces; `inside` says that it was made already. -/
def spaced (inside : Bool) : List Piece → List Piece
  | [] => []
  | p :: rest =>
      if p = .char ' ' then
        (if inside then spaced true rest else .space :: spaced true rest)
      else p :: spaced false rest

/-- The pieces of a text. -/
def pieces (t : Text) : List Piece := spaced false (hyphenated false [] t)

/-! ### Hyphens -/

theorem escapeSpecial_cons (c : Char) (t : Text) :
    escapeSpecial (c :: t) = escapeSpecial [c] ++ escapeSpecial t := by
  simp [escapeSpecial]

theorem escapeSpecial_of_special (h : isSpecial c = true) : escapeSpecial [c] = ['\\', c] := by
  simp [escapeSpecial, h]

theorem escapeSpecial_of_not_special (h : isSpecial c = false) : escapeSpecial [c] = [c] := by
  simp [escapeSpecial, h]

theorem isSpecial_of_isBlank (h : isBlank c = true) : isSpecial c = false := by
  have hspecial : ['-', '[', ']', '/', '\x7b', '\x7d', '(', ')', '*', '+', '?', '.', '\\', '^', '$',
      '|'].all (fun d => !isBlank d) = true := by decide
  by_contra hc
  have hmem := List.contains_iff_mem.1 (Bool.eq_true_of_not_eq_false hc)
  have hnot := List.all_eq_true.1 hspecial c hmem
  rw [h] at hnot
  exact Bool.false_ne_true hnot

/-- No hyphen stands in an escaped text without a backslash in front. -/
theorem head?_escapeSpecial (t : Text) : (escapeSpecial t).head? ≠ some '-' := by
  cases t with
  | nil => simp [escapeSpecial]
  | cons c t =>
      rw [escapeSpecial_cons]
      cases hc : isSpecial c with
      | true =>
          rw [escapeSpecial_of_special hc]
          simp
      | false =>
          rw [escapeSpecial_of_not_special hc]
          intro hhead
          obtain rfl := Option.some.inj hhead
          exact absurd hc (by decide)

/-- A character that is no blank and does not stand for a hyphen. -/
theorem loosenHyphens_cons (hc : isBlank c = false) (hne : t.head? ≠ some '-') :
    loosenHyphens behind held (c :: t) = held ++ c :: loosenHyphens false [] t := by
  rw [loosenHyphens]
  · rw [if_neg (by simp [hc])]
  · rintro rest rfl rfl
    exact hne rfl

theorem loosenHyphens_blank (hc : isBlank c = true) : loosenHyphens behind held (c :: t) =
    if behind then loosenHyphens true [] t else loosenHyphens false (held ++ [c]) t := by
  rw [loosenHyphens]
  · rw [if_pos hc]
  · rintro rest rfl rfl
    exact absurd hc (by decide)

theorem flatMap_write_of_blanks (h : ∀ c ∈ held, isBlank c = true) :
    (held.map Piece.char).flatMap Piece.write = held := by
  rw [List.flatMap_map]
  have hself : ∀ c ∈ held, Piece.write (.char c) = [c] := fun c hc =>
    escapeSpecial_of_not_special (isSpecial_of_isBlank (h c hc))
  rw [List.flatMap_congr hself, List.flatMap_singleton']

/-- Loosening hyphens finds the hyphens of the text. -/
theorem loosenHyphens_escapeSpecial (h : ∀ c ∈ held, isBlank c = true) (t : Text) :
    loosenHyphens behind held (escapeSpecial t) = (hyphenated behind held t).flatMap Piece.write := by
  induction t generalizing behind held with
  | nil => exact (flatMap_write_of_blanks h).symm
  | cons c t ih =>
      have hnil : ∀ c ∈ ([] : Text), isBlank c = true := fun c hc => absurd hc List.not_mem_nil
      rw [escapeSpecial_cons, hyphenated]
      by_cases hhyphen : c = '-'
      · subst hhyphen
        rw [if_pos rfl, List.flatMap_cons, ← ih hnil, escapeSpecial_of_special rfl]
        rfl
      · rw [if_neg hhyphen]
        cases hblank : isBlank c with
        | true =>
            rw [if_pos rfl, escapeSpecial_of_not_special (isSpecial_of_isBlank hblank), List.singleton_append,
              loosenHyphens_blank hblank]
            cases behind with
            | true => exact ih hnil
            | false =>
                refine ih (fun d hd => ?_)
                rcases List.mem_append.1 hd with hd | hd
                · exact h d hd
                · rw [List.mem_singleton.1 hd, hblank]
        | false =>
            rw [if_neg Bool.false_ne_true, List.flatMap_append, flatMap_write_of_blanks h,
              List.flatMap_cons, ← ih hnil, Piece.write]
            cases hspecial : isSpecial c with
            | true =>
                rw [escapeSpecial_of_special hspecial]
                have hhead : (c :: escapeSpecial t).head? ≠ some '-' := fun heq =>
                  hhyphen (Option.some.inj heq)
                rw [List.cons_append, List.singleton_append, loosenHyphens_cons (by decide) hhead,
                  loosenHyphens_cons hblank (head?_escapeSpecial t)]
                rfl
            | false =>
                rw [escapeSpecial_of_not_special hspecial, List.singleton_append,
                  loosenHyphens_cons hblank (head?_escapeSpecial t)]
                rfl

/-! ### Spaces -/

theorem loosenSpaces_append {w : Text} (hne : w ≠ []) (hw : ' ' ∉ w) (k : Text) :
    loosenSpaces inside (w ++ k) = w ++ loosenSpaces false k := by
  induction w generalizing inside with
  | nil => exact absurd rfl hne
  | cons c w ih =>
      rw [List.mem_cons, not_or] at hw
      rw [List.cons_append, loosenSpaces, if_neg (Ne.symm hw.1), List.cons_append]
      cases w with
      | nil => rfl
      | cons d w => rw [ih (by simp) hw.2]

theorem write_ne_nil (p : Piece) : p.write ≠ [] := by
  cases p with
  | char c =>
      rw [Piece.write]
      cases h : isSpecial c with
      | true => simp [escapeSpecial_of_special h]
      | false => simp [escapeSpecial_of_not_special h]
  | space => decide
  | hyphen => decide

theorem not_mem_write {p : Piece} (h : p ≠ .char ' ') : ' ' ∉ p.write := by
  cases p with
  | char c =>
      have hc : ' ' ≠ c := fun heq => h (by rw [heq])
      rw [Piece.write]
      cases hspecial : isSpecial c with
      | true => simp [escapeSpecial_of_special hspecial, hc]
      | false => simp [escapeSpecial_of_not_special hspecial, hc]
  | space => decide
  | hyphen => decide

/-- Loosening spaces makes one piece of each run. -/
theorem loosenSpaces_flatMap (ps : List Piece) :
    loosenSpaces inside (ps.flatMap Piece.write) = (spaced inside ps).flatMap Piece.write := by
  induction ps generalizing inside with
  | nil => rfl
  | cons p ps ih =>
      rw [List.flatMap_cons, spaced]
      by_cases hp : p = .char ' '
      · subst hp
        rw [if_pos rfl]
        have hspace : Piece.write (.char ' ') = [' '] := rfl
        rw [hspace, List.singleton_append, loosenSpaces, if_pos rfl]
        cases inside with
        | true => exact ih
        | false =>
            rw [if_neg Bool.false_ne_true, if_neg Bool.false_ne_true, ih]
            rfl
      · rw [if_neg hp, loosenSpaces_append (write_ne_nil p) (not_mem_write hp), ih, List.flatMap_cons]

/-- **An escaped text is written piece by piece.** -/
theorem escape_eq (t : Text) : escape t = (pieces t).flatMap Piece.write := by
  rw [escape, loosenHyphens_escapeSpecial (fun c hc => absurd hc List.not_mem_nil),
    loosenSpaces_flatMap]
  rfl

/-- Without hyphens and spaces the pieces are the characters. -/
theorem pieces_of_plain (h : ∀ c ∈ t, c ≠ '-' ∧ c ≠ ' ') : pieces t = t.map .char := by
  have hhyphens : ∀ held : Text, hyphenated false held t = (held ++ t).map .char := by
    induction t with
    | nil => exact fun held => by simp [hyphenated]
    | cons c t ih =>
        intro held
        have hrest := ih (fun d hd => h d (List.mem_cons_of_mem c hd))
        rw [hyphenated, if_neg (h c List.mem_cons_self).1, hrest, hrest]
        split <;> simp
  have hspaces : spaced false (t.map .char) = t.map .char := by
    clear hhyphens
    induction t with
    | nil => rfl
    | cons c t ih =>
        have hc : Piece.char c ≠ .char ' ' := fun heq =>
          (h c List.mem_cons_self).2 (Piece.char.inj heq)
        rw [List.map_cons, spaced, if_neg hc, ih (fun d hd => h d (List.mem_cons_of_mem c hd))]
  rw [pieces, hhyphens, List.nil_append, hspaces]

/-! ### Parts and nodes -/

/-- Blanks, at least this many and at most four. -/
def blanksPart (min : Nat) : Ast := .repetition min (some 4) true (.shorthand .space false)

/-- The parts that a piece is read as. -/
def Piece.parts : Piece → List Ast
  | .char c => [.literal ⟨c, false⟩]
  | .space => [blanksPart 1]
  | .hyphen => [blanksPart 0, .literal ⟨'-', false⟩, blanksPart 0]

/-- Blanks, at least this many and at most four, without flags. -/
def blanksNode (min : Nat) : Node := .repetition min (some 4) true (.set blanks)

/-- The nodes that a piece stands for. -/
def Piece.nodes : Piece → List Node
  | .char c => [.literal [c]]
  | .space => [blanksNode 1]
  | .hyphen => [blanksNode 0, .literal ['-'], blanksNode 0]

theorem reads_blanks {digit : Char} {min : Nat} (h : digit = '0' ∧ min = 0 ∨ digit = '1' ∧ min = 1) :
    Reads ['\\', 's', '\x7b', digit, ',', '4', '\x7d'] [blanksPart min] := by
  refine .of_leads (by decide) (fun s k hignore hrest hk => ?_)
  have hclass := leads_blanks (s := s) hignore hrest
  exact hclass.trans (leads_count hignore rfl rfl h rfl hk)

theorem reads_char (c : Char) : Reads (escapeSpecial [c]) [.literal ⟨c, false⟩] := by
  cases h : isSpecial c with
  | true =>
      rw [escapeSpecial_of_special h]
      exact .of_leads (by decide) (fun s k hignore hrest _ => leads_backslash hignore h hrest)
  | false =>
      have hsigns : ['(', ')', '|', '[', '?', '*', '+', '\x7b', '\\', '.', '^', '$'].all isSpecial = true := by
        decide
      have hsign : isSign c = false := by
        by_contra hc
        have hmem := List.contains_iff_mem.1 (Bool.eq_true_of_not_eq_false hc)
        exact Bool.false_ne_true (h.symm.trans (List.all_eq_true.1 hsigns c hmem))
      have hne : c ≠ '?' := by
        rintro rfl
        exact absurd h (by decide)
      rw [escapeSpecial_of_not_special h]
      exact .of_leads hne (fun s k hignore hrest _ => leads_literal hignore hsign hrest)

/-- **A piece is read as its parts.** -/
theorem Piece.reads (p : Piece) : Reads p.write p.parts := by
  cases p with
  | char c => exact reads_char c
  | space => exact reads_blanks (.inr ⟨rfl, rfl⟩)
  | hyphen =>
      have hblanks := reads_blanks (.inl ⟨rfl, rfl⟩)
      exact (hblanks.append (reads_char '-')).append hblanks

/-- Without flags the parts stand for the nodes, and no flags come of it. -/
def Means (parts : List Ast) (nodes : List Node) : Prop :=
  toNodes (Flags.initial false) parts = .ok (nodes, Flags.initial false)

theorem Means.append {parts parts' : List Ast} {nodes nodes' : List Node} (h : Means parts nodes)
    (h' : Means parts' nodes') : Means (parts ++ parts') (nodes ++ nodes') := by
  unfold Means at *
  generalize Flags.initial false = fl at *
  -- the flags in between may differ, so the induction is for those behind the first parts
  have hall : ∀ (parts : List Ast) (nodes : List Node) (fl₀ : Flags), toNodes fl₀ parts = .ok (nodes, fl) →
      toNodes fl₀ (parts ++ parts') = .ok (nodes ++ nodes', fl) := by
    intro parts
    induction parts with
    | nil =>
        intro nodes fl₀ hnodes
        obtain ⟨rfl, rfl⟩ := Prod.mk.inj (Except.ok.inj hnodes)
        exact h'
    | cons part rest ih =>
        intro nodes fl₀ hnodes
        rw [List.cons_append, toNodes]
        rw [toNodes] at hnodes
        cases hpart : Ast.toNodeUnder fl₀ part with
        | error e => simp [hpart, bind, Except.bind] at hnodes
        | ok found =>
            obtain ⟨n, fl₁⟩ := found
            cases hrest : toNodes fl₁ rest with
            | error e => simp [hpart, hrest, bind, Except.bind] at hnodes
            | ok others =>
                obtain ⟨ns, fl₂⟩ := others
                simp only [hpart, hrest, bind, Except.bind, Except.ok.injEq, Prod.mk.injEq] at hnodes
                obtain ⟨rfl, rfl⟩ := hnodes
                simp [ih ns fl₁ hrest, bind, Except.bind]
  exact hall parts nodes fl h

theorem Means.flatMap {α : Type} {parts : α → List Ast} {nodes : α → List Node} {list : List α}
    (h : ∀ a ∈ list, Means (parts a) (nodes a)) : Means (list.flatMap parts) (list.flatMap nodes) := by
  induction list with
  | nil => rfl
  | cons a rest ih =>
      exact (h a List.mem_cons_self).append (ih (fun b hb => h b (List.mem_cons_of_mem a hb)))

/-- **The parts of a piece stand for its nodes.** -/
theorem Piece.means (p : Piece) : Means p.parts p.nodes := by
  cases p <;> rfl

end ChartParsing.Lexicon
