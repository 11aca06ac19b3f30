import ChartParsing.Decimal.Layout
import ChartParsing.Decimal.Reader
import ChartParsing.Grammar.Lexeme
import ChartParsing.Proofs.Unicode.Membership
import Mathlib.Data.List.Basic

/-!
# Words that are found again

For each sort of word: a word of this sort that stands in front of a text is found there, with the
text as the rest, as long as the text does not go on with characters of the word.  `Parted` says
what is enough for all sorts: a blank, a comment or the end comes next, and what comes after blanks
could not belong to an option.

* **`delimited?_escape`**, **`unescape_escape`**: any text can be written between quotes.
* **`delimited?_of_paired`**: a pattern can be written between slashes if none of its backslashes is
  left without a character.
* **`readInt?_intText`**: integers of 64 bits are read as they are written.
* **`items?_append`**: lists with commas.
-/

namespace ChartParsing

open CharSet

variable {w t : Text} {c : Char}

/-! ### Beginnings -/

namespace Text

theorem dropPrefix?_append (w t : Text) : dropPrefix? (w ++ t) w = some t := by
  induction w with
  | nil => cases t <;> rfl
  | cons x xs ih =>
      unfold dropPrefix?
      rw [List.cons_append]
      dsimp only
      rw [if_pos rfl, ih]

theorem dropPrefix?_of_head {d : Char} (h : ∀ x, t.head? = some x → x ≠ d) (w : Text) :
    dropPrefix? t (d :: w) = none := by
  cases t with
  | nil => rfl
  | cons x xs =>
      unfold dropPrefix?
      rw [if_neg (h x rfl)]

theorem dropBlanks_of_head (h : ∀ x, t.head? = some x → isBlank x = false) : t.dropBlanks = t := by
  cases t with
  | nil => rfl
  | cons x xs => simp [dropBlanks, h x rfl]

theorem dropBlanks_append {blanks : Text} (h : blanks.all isBlank = true) (t : Text) :
    dropBlanks (blanks ++ t) = t.dropBlanks := by
  unfold dropBlanks
  rw [List.dropWhile_append_of_pos (List.all_eq_true.1 h)]

/-- The text begins with a character that is not blank. -/
def Solid (t : Text) : Prop := ∃ x, t.head? = some x ∧ isBlank x = false

theorem Solid.append (h : Solid w) (t : Text) : Solid (w ++ t) := by
  obtain ⟨x, hx, hblank⟩ := h
  exact ⟨x, by rw [List.head?_append, hx]; rfl, hblank⟩

theorem Solid.dropBlanks_eq (h : Solid t) : t.dropBlanks = t := by
  obtain ⟨x, hx, hblank⟩ := h
  exact dropBlanks_of_head (fun y hy => Option.some.inj (hx.symm.trans hy) ▸ hblank)

end Text

open Text

namespace Lexeme

/-! ### Characters of words -/

/-- A blank, a comma, a comment or the end comes next. -/
def Ends (t : Text) : Prop := ∀ c, t.head? = some c → EndsWord c

/-- A blank, a comment or the end comes next, and behind blanks nothing that could belong to an option. -/
structure Parted (t : Text) : Prop where
  ends : Ends t
  next : ∀ c, t.dropBlanks.head? = some c → c ≠ ',' ∧ c ≠ ':' ∧ c ≠ '-'

theorem isActionChar_of_ends (h : EndsWord c) : isActionChar c = false := by
  refine h.forall (P := fun c => isActionChar c = false) ?_
  decide +kernel

theorem isEntityChar_of_ends (h : EndsWord c) : isEntityChar c = false := by
  have := isActionChar_of_ends h
  simp only [isActionChar, Bool.or_eq_false_iff] at this
  exact this.1.1

theorem isNameChar_of_ends (h : EndsWord c) : isNameChar c = false := by
  have := isEntityChar_of_ends h
  simp only [isEntityChar, Bool.or_eq_false_iff] at this
  exact this.1

theorem not_blank_of_isActionChar (h : isActionChar c = true) : isBlank c = false := by
  by_contra hb
  have := isActionChar_of_ends (.inl (by simpa using hb))
  simp [this] at h

theorem isActionChar_of_isEntityChar (h : isEntityChar c = true) : isActionChar c = true := by
  simp [isActionChar, h]

theorem isEntityChar_of_isNameChar (h : isNameChar c = true) : isEntityChar c = true := by
  simp [isEntityChar, h]

theorem isNameChar_of_startsName (h : startsName c = true) : isNameChar c = true := by
  simp only [startsName, isNameChar, Char.isAlphanum, Bool.or_eq_true] at h ⊢
  tauto

theorem not_blank_of_isNameChar (h : isNameChar c = true) : isBlank c = false :=
  not_blank_of_isActionChar (isActionChar_of_isEntityChar (isEntityChar_of_isNameChar h))

/-! ### Rows and names -/

/-- A row is found up to a character that is not part of it. -/
theorem row?_append {p : Char → Bool} (hne : w ≠ []) (hall : ∀ x ∈ w, p x = true)
    (hstop : ∀ x, t.head? = some x → p x = false) : row? p (w ++ t) = some (w, t) := by
  have htake : t.takeWhile p = [] := by
    cases t with
    | nil => rfl
    | cons x xs => simp [hstop x rfl]
  have hdrop : t.dropWhile p = t := by
    cases t with
    | nil => rfl
    | cons x xs => simp [hstop x rfl]
  unfold row?
  rw [List.takeWhile_append_of_pos hall, List.dropWhile_append_of_pos hall, htake, hdrop,
    List.append_nil]
  cases w with
  | nil => exact absurd rfl hne
  | cons x xs => rfl

/-- The text is a name. -/
structure IsName (w : Text) : Prop where
  starts : ∃ x, w.head? = some x ∧ startsName x = true
  all : ∀ x ∈ w, isNameChar x = true

instance (w : Text) : Decidable (IsName w) :=
  decidable_of_iff (w.head?.any startsName = true ∧ w.all isNameChar = true)
    ⟨fun h => ⟨(Option.any_eq_true _ _).1 h.1, List.all_eq_true.1 h.2⟩,
      fun h => ⟨(Option.any_eq_true _ _).2 h.starts, List.all_eq_true.2 h.all⟩⟩

theorem IsName.ne_nil (h : IsName w) : w ≠ [] := by
  obtain ⟨x, hx, -⟩ := h.starts
  rintro rfl
  simp at hx

theorem name?_append (h : IsName w) (hstop : ∀ x, t.head? = some x → isNameChar x = false) :
    name? (w ++ t) = some (w, t) := by
  obtain ⟨x, hx, hstarts⟩ := h.starts
  cases w with
  | nil => simp at hx
  | cons y ys =>
      obtain rfl := Option.some.inj hx
      have hrow := row?_append h.ne_nil h.all hstop
      unfold name?
      rw [List.cons_append] at hrow ⊢
      dsimp only
      rw [if_pos hstarts, hrow]

/-- A rule starts with a name and an arrow behind it, and not with a name and something else. -/
theorem isRuleStart_append (h : IsName w) (hstop : ∀ x, t.head? = some x → isNameChar x = false) :
    isRuleStart (w ++ t) = (dropBlanks t).startsWith "->".toList := by
  unfold isRuleStart
  rw [name?_append h hstop]

theorem isRuleStart_of_head (h : ∀ x, t.head? = some x → startsName x = false) :
    isRuleStart t = false := by
  unfold isRuleStart name?
  cases t with
  | nil => rfl
  | cons x xs => simp [h x rfl]

/-! ### Bracketed words -/

/-- A backslash in front of every quote and every backslash. -/
def escape : Text → Text
  | [] => []
  | x :: xs => if x = '"' ∨ x = '\\' then '\\' :: x :: escape xs else x :: escape xs

theorem delimited?_close (d : Char) (t : Text) : delimited? d (d :: t) = some ([], t) := by
  unfold delimited?
  simp

theorem delimited?_cons {d x : Char} (hx : x ≠ d) (hslash : x ≠ '\\') {body rest : Text}
    (h : delimited? d t = some (body, rest)) : delimited? d (x :: t) = some (x :: body, rest) := by
  unfold delimited?
  rw [if_neg hx, if_neg hslash, h]
  rfl

theorem delimited?_escaped {d x : Char} (hd : d ≠ '\\') (hx : x ≠ '\n') {body rest : Text}
    (h : delimited? d t = some (body, rest)) :
    delimited? d ('\\' :: x :: t) = some ('\\' :: x :: body, rest) := by
  unfold delimited?
  rw [if_neg (Ne.symm hd), if_pos rfl]
  dsimp only
  rw [if_neg hx, h]
  rfl

theorem delimited?_escape (s t : Text) : delimited? '"' (escape s ++ '"' :: t) = some (escape s, t) := by
  induction s with
  | nil => exact delimited?_close '"' t
  | cons x xs ih =>
      unfold escape
      split
      · next h =>
          have hx : x ≠ '\n' := by
            rintro rfl
            simp at h
          exact delimited?_escaped (by decide) hx ih
      · next h =>
          obtain ⟨hquote, hslash⟩ := not_or.1 h
          exact delimited?_cons hquote hslash ih

theorem unescape_escape (s : Text) : unescape (escape s) = s := by
  induction s with
  | nil => rfl
  | cons x xs ih =>
      unfold escape
      split
      · simp [unescape, ih]
      · next h =>
          obtain ⟨-, hslash⟩ := not_or.1 h
          have hcons : unescape (x :: escape xs) = x :: unescape (escape xs) := by
            rw [unescape]
            · rintro rfl
              exact absurd rfl hslash
            · intro c rest hx
              exact absurd hx hslash
          rw [hcons, ih]

theorem literal?_append (s t : Text) : literal? ('"' :: escape s ++ '"' :: t) = some (s, t) := by
  unfold literal? between?
  simp [delimited?_escape, unescape_escape]

/-- Read from the left, every backslash stands in front of a character of its own.  So it is unless a text
ends in an odd number of backslashes. -/
def paired : Text → Bool
  | [] => true
  | ['\\'] => false
  | '\\' :: _ :: rest => paired rest
  | _ :: rest => paired rest

theorem delimited?_of_paired {s : Text} (hslash : '/' ∉ s) (hline : '\n' ∉ s)
    (hpaired : paired s = true) (t : Text) : delimited? '/' (s ++ '/' :: t) = some (s, t) := by
  induction s using paired.induct with
  | case1 => exact delimited?_close '/' t
  | case2 => simp [paired] at hpaired
  | case3 x rest ih =>
      simp only [List.mem_cons, not_or] at hslash hline
      exact delimited?_escaped (by decide) (Ne.symm hline.2.1)
        (ih hslash.2.2 hline.2.2 (by simpa [paired] using hpaired))
  | case4 x rest hnil hcons ih =>
      simp only [List.mem_cons, not_or] at hslash hline
      have hx : x ≠ '\\' := by
        rintro rfl
        cases rest with
        | nil => exact hnil rfl rfl
        | cons y ys => exact hcons y ys rfl rfl
      exact delimited?_cons (Ne.symm hslash.1) hx
        (ih hslash.2 hline.2 (by rwa [paired] at hpaired <;> assumption))

theorem unescapeSlashes_of_not_mem {s : Text} (h : '/' ∉ s) : unescapeSlashes s = s := by
  induction s using unescapeSlashes.induct with
  | case1 => rfl
  | case2 rest ih => simp at h
  | case3 x rest hne ih =>
      rw [unescapeSlashes, ih (fun hmem => h (List.mem_cons_of_mem _ hmem))]
      exact hne

theorem pattern?_append {s : Text} (hslash : '/' ∉ s) (hline : '\n' ∉ s)
    (hpaired : paired s = true) (t : Text) : pattern? ('/' :: s ++ '/' :: t) = some (s, t) := by
  unfold pattern? between?
  simp [delimited?_of_paired hslash hline hpaired, unescapeSlashes_of_not_mem hslash]

/-- A word between an opening and a closing text is found, with blanks around it or without. -/
theorem bracketed?_append (opening closing : String) (blanks : Text) {p : Char → Bool}
    (hblanks : blanks.all isBlank = true) (hne : w ≠ []) (hall : ∀ x ∈ w, p x = true)
    (hp : ∀ x, p x = true → isBlank x = false)
    (hclosing : ∀ x, closing.toList.head? = some x → p x = false ∧ isBlank x = false)
    (hopen : closing.toList ≠ []) (t : Text) :
    bracketed? opening closing p
      (opening.toList ++ (blanks ++ (w ++ (blanks ++ (closing.toList ++ t))))) = some (w, t) := by
  have hclose : ∀ x, (closing.toList ++ t).head? = some x → p x = false ∧ isBlank x = false := by
    intro x hx
    rw [List.head?_append_of_ne_nil _ hopen] at hx
    exact hclosing x hx
  have hword : (w ++ (blanks ++ (closing.toList ++ t))).dropBlanks =
      w ++ (blanks ++ (closing.toList ++ t)) := by
    refine Text.dropBlanks_of_head (fun x hx => ?_)
    rw [List.head?_append_of_ne_nil _ hne] at hx
    exact hp x (hall x (List.mem_of_head? hx))
  have hrow : row? p (w ++ (blanks ++ (closing.toList ++ t))) =
      some (w, blanks ++ (closing.toList ++ t)) := by
    refine row?_append hne hall (fun x hx => ?_)
    cases blanks with
    | nil => exact (hclose x hx).1
    | cons b bs =>
        obtain rfl := Option.some.inj hx
        by_contra hpb
        have hblank := hp b (by simpa using hpb)
        simp [List.all_eq_true.1 hblanks b List.mem_cons_self] at hblank
  unfold bracketed?
  rw [dropPrefix?_append]
  dsimp only
  rw [Text.dropBlanks_append hblanks, hword, hrow]
  dsimp only
  rw [Text.dropBlanks_append hblanks, Text.dropBlanks_of_head (fun x hx => (hclose x hx).2),
    dropPrefix?_append]
  rfl

/-! ### Values of options -/

theorem flag?_append (h : Ends t) : flag? ("true".toList ++ t) = some (true, t) := by
  have hfirst : oneOf? ["true", "false"] ("true".toList ++ t) = some ("true", t) := by
    simp only [oneOf?, List.findSome?_cons, dropPrefix?_append, Option.map_some]
  have hword : t.head?.any CharClass.word.contains = false := by
    cases t with
    | nil => rfl
    | cons x xs =>
        rw [List.head?_cons, Option.any_some]
        exact CharClass.clear_word.spare x (h x rfl)
  unfold flag?
  rw [hfirst]
  simp [hword]

theorem colon?_append (h : Solid t) (blanks : Text) (hblanks : blanks.all isBlank = true) :
    colon? (':' :: (blanks ++ t)) = some t := by
  have hcolon : dropBlanks (':' :: (blanks ++ t)) = [':'] ++ (blanks ++ t) :=
    Solid.dropBlanks_eq ⟨':', rfl, by decide⟩
  unfold colon?
  rw [hcolon, dropPrefix?_append, Option.map_some, dropBlanks_append hblanks, h.dropBlanks_eq]

theorem colon?_eq_none (h : ∀ x, (dropBlanks t).head? = some x → x ≠ ':') : colon? t = none := by
  unfold colon?
  rw [dropPrefix?_of_head h]
  rfl

/-! ### Integers -/

theorem isDigit_eq (c : Char) : Decimal.isDigit c = c.isDigit := by
  rw [Bool.eq_iff_iff]
  simp [Decimal.isDigit, Char.isDigit, Char.le_def]

theorem toList_intText (p : Int) : (Decimal.intText p).toList =
    if p < 0 then '-' :: Nat.toDigits 10 p.natAbs else Nat.toDigits 10 p.natAbs := by
  unfold Decimal.intText Decimal.natText
  split <;> simp

theorem digitsValue_toDigits (n : Nat) : Decimal.digitsValue (Nat.toDigits 10 n) = n :=
  Nat.ofDigitChars_ten_toDigits

theorem isDigit_of_mem_toDigits {n : Nat} (h : c ∈ Nat.toDigits 10 n) : c.isDigit = true :=
  Nat.isDigit_of_mem_toDigits (by decide) (by decide) h

/-- An integer of 64 bits is read as what it was written for. -/
theorem readInt?_intText {p : Int} (hmin : Decimal.minInt ≤ p) (hmax : p ≤ Decimal.maxInt) :
    Decimal.readInt? (Decimal.intText p) = some p := by
  have hdigits : Nat.toDigits 10 p.natAbs ≠ [] ∧
      (Nat.toDigits 10 p.natAbs).all Decimal.isDigit = true := by
    refine ⟨Nat.toDigits_ne_nil, List.all_eq_true.2 (fun c hc => ?_)⟩
    rw [isDigit_eq]
    exact isDigit_of_mem_toDigits hc
  unfold Decimal.readInt?
  rw [toList_intText]
  by_cases hp : p < 0
  · rw [if_pos hp]
    have hvalue : -(p.natAbs : Int) = p := by omega
    simp only [Decimal.splitSign, if_pos hdigits, digitsValue_toDigits, if_true, hvalue]
    rw [if_pos ⟨hmin, hmax⟩]
  · rw [if_neg hp]
    have hvalue : (p.natAbs : Int) = p := by omega
    have hsign : Decimal.splitSign (Nat.toDigits 10 p.natAbs) =
        (false, Nat.toDigits 10 p.natAbs) := by
      unfold Decimal.splitSign
      split
      · next rest h =>
          have := isDigit_of_mem_toDigits (c := '-') (by rw [h]; exact List.mem_cons_self)
          simp at this
      · next rest h =>
          have := isDigit_of_mem_toDigits (c := '+') (by rw [h]; exact List.mem_cons_self)
          simp at this
      · rfl
    rw [hsign]
    simp only [if_pos hdigits, digitsValue_toDigits, Bool.false_eq_true, if_false, hvalue]
    rw [if_pos ⟨hmin, hmax⟩]

/-- An integer is found in front of anything that ends words. -/
theorem integer?_append (p : Int) (h : Ends t) :
    integer? ((Decimal.intText p).toList ++ t) = some ((Decimal.intText p).toList, t) := by
  have hrow : row? CharClass.digits.contains (Nat.toDigits 10 p.natAbs ++ t) =
      some (Nat.toDigits 10 p.natAbs, t) :=
    row?_append Nat.toDigits_ne_nil
      (fun x hx => CharClass.contains_digits (isDigit_of_mem_toDigits hx))
      (fun x hx => CharClass.clear_digits.spare x (h x hx))
  rw [toList_intText]
  by_cases hp : p < 0
  · rw [if_pos hp, List.cons_append]
    have hminus : ∀ rest : Text, integer? ('-' :: rest) =
        (row? CharClass.digits.contains rest).map (fun p => ('-' :: p.1, p.2)) := fun _ => rfl
    rw [hminus, hrow]
    rfl
  · rw [if_neg hp]
    unfold integer?
    split
    · next rest hcons =>
        have hmem : '-' ∈ Nat.toDigits 10 p.natAbs := by
          have hhead := congrArg List.head? hcons
          rw [List.head?_append_of_ne_nil _ Nat.toDigits_ne_nil] at hhead
          exact List.mem_of_head? hhead
        have := isDigit_of_mem_toDigits hmem
        simp at this
    · exact hrow

theorem solid_intText (p : Int) : Solid (Decimal.intText p).toList := by
  rw [toList_intText]
  split
  · exact ⟨'-', rfl, by decide⟩
  · cases hdigits : Nat.toDigits 10 p.natAbs with
    | nil => exact absurd hdigits Nat.toDigits_ne_nil
    | cons x xs =>
        have hx : x.isDigit = true := isDigit_of_mem_toDigits (n := p.natAbs) (by simp [hdigits])
        refine ⟨x, rfl, not_blank_of_isActionChar ?_⟩
        simp [isActionChar, isEntityChar, isNameChar, Char.isAlphanum, hx]

/-! ### Lists -/

section Lists

variable {α β : Type} {item? : Text → Option (α × Text)} {write : β → Text} {value : β → α}

/-- Several things, each behind a comma and a blank. -/
def afterCommas (write : β → Text) (list : List β) : Text :=
  list.flatMap (fun b => ',' :: ' ' :: write b)

theorem ends_afterCommas {list : List β} (h : Ends t) : Ends (afterCommas write list ++ t) := by
  cases list with
  | nil => exact h
  | cons b rest =>
      intro x hx
      obtain rfl := Option.some.inj hx
      exact .inr (.inr rfl)

theorem moreItems_append {list : List β}
    (hitem : ∀ b ∈ list, ∀ rest, Ends rest → item? (write b ++ rest) = some (value b, rest))
    (hsolid : ∀ b ∈ list, Solid (write b))
    (h : Parted t) {fuel : Nat} (hfuel : list.length ≤ fuel) :
    moreItems item? fuel (afterCommas write list ++ t) = (list.map value, t) := by
  induction list generalizing fuel with
  | nil =>
      cases fuel with
      | zero => rfl
      | succ fuel =>
          have hcomma : dropPrefix? (dropBlanks t) [','] = none :=
            dropPrefix?_of_head (fun x hx => (h.next x hx).1) []
          unfold moreItems afterCommas
          rw [List.flatMap_nil, List.nil_append, hcomma]
          rfl
  | cons b rest ih =>
      obtain ⟨fuel, rfl⟩ := Nat.exists_eq_succ_of_ne_zero
        (Nat.ne_zero_of_lt (Nat.lt_of_lt_of_le (Nat.succ_pos rest.length) hfuel))
      have hrest := ih (fun b' hb => hitem b' (List.mem_cons_of_mem _ hb))
        (fun b' hb => hsolid b' (List.mem_cons_of_mem _ hb)) (by simpa using hfuel)
      have hcomma : dropBlanks (afterCommas write (b :: rest) ++ t) =
          [','] ++ ([' '] ++ (write b ++ (afterCommas write rest ++ t))) := by
        rw [Solid.dropBlanks_eq ⟨',', rfl, by decide⟩]
        simp [afterCommas]
      have hword : dropBlanks ([' '] ++ (write b ++ (afterCommas write rest ++ t))) =
          write b ++ (afterCommas write rest ++ t) := by
        rw [dropBlanks_append (by decide),
          ((hsolid b List.mem_cons_self).append _).dropBlanks_eq]
      unfold moreItems
      rw [hcomma, dropPrefix?_append]
      dsimp only
      rw [hword, hitem b List.mem_cons_self _ (ends_afterCommas h.ends)]
      dsimp only
      rw [hrest]
      rfl

/-- A list of things is found, if each of them is. -/
theorem items?_append {b : β} {list : List β}
    (hitem : ∀ b' ∈ b :: list, ∀ rest, Ends rest →
      item? (write b' ++ rest) = some (value b', rest))
    (hsolid : ∀ b' ∈ b :: list, Solid (write b'))
    (h : Parted t) : items? item? (write b ++ (afterCommas write list ++ t)) =
      some ((b :: list).map value, t) := by
  have hfuel : list.length ≤ (afterCommas write list ++ t).length := by
    have hlength : list.length ≤ (afterCommas write list).length := by
      unfold afterCommas
      induction list with
      | nil => exact Nat.le_refl 0
      | cons b' rest ih =>
          have := ih (fun b'' hb => hitem b'' (by simp at hb ⊢; tauto))
            (fun b'' hb => hsolid b'' (by simp at hb ⊢; tauto))
          simp only [List.flatMap_cons, List.length_append, List.length_cons]
          omega
    simp only [List.length_append]
    omega
  unfold items?
  rw [hitem b List.mem_cons_self _ (ends_afterCommas h.ends), Option.map_some]
  dsimp only
  rw [moreItems_append (fun b' hb => hitem b' (List.mem_cons_of_mem _ hb))
    (fun b' hb => hsolid b' (List.mem_cons_of_mem _ hb)) h hfuel]
  rfl

end Lists

end Lexeme

end ChartParsing
