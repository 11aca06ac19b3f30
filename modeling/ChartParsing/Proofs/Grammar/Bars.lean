import ChartParsing.Proofs.Grammar.Readers

/-!
# Bars between alternatives

Two bars in a grammar text stand between alternatives, unless they are part of a literal, of a pattern or of
a comment.  `barsFrom` counts them by going through the text, one character after the other, with nothing in
mind but the `Place` where one is; it knows nothing of names, options and rules.

Main statement: **`ReadsRule.bars`**.  A rule's text has one alternative more than it has bars.
-/

namespace ChartParsing.Source

open Text Lexeme

variable {t rest : Text}

/-! ### Counting bars -/

/-- Where in a grammar text one is. -/
inductive Place where
  /-- Outside of literals, patterns and comments. -/
  | outside
  /-- As outside, behind one bar. -/
  | bar
  | comment
  /-- In a literal or a pattern that goes up to the delimiter. -/
  | quoted (delimiter : Char)
  /-- As in a literal or a pattern, behind a backslash. -/
  | escaped (delimiter : Char)
deriving DecidableEq

/-- Where one is behind a character outside that is no bar. -/
def Place.opened (c : Char) : Place :=
  if c = '"' ∨ c = '/' then .quoted c else if c = '#' then .comment else .outside

/-- Where one is behind the next character. -/
def Place.next : Place → Char → Place
  | .outside, c => if c = '|' then .bar else opened c
  | .bar, c => if c = '|' then .outside else opened c
  | .comment, c => if c = '\n' then .outside else .comment
  | .quoted d, c => if c = d then .outside else if c = '\\' then .escaped d else .quoted d
  | .escaped d, _ => .quoted d

/-- Where one is behind a text. -/
def Place.behind (p : Place) (t : Text) : Place := t.foldl Place.next p

/-- How many times two bars stand between alternatives. -/
def barsFrom : Place → Text → Nat
  | _, [] => 0
  | p, c :: cs => (if p = .bar ∧ c = '|' then 1 else 0) + barsFrom (p.next c) cs

theorem barsFrom_append (p : Place) (t u : Text) :
    barsFrom p (t ++ u) = barsFrom p t + barsFrom (p.behind t) u := by
  induction t generalizing p with
  | nil => exact (Nat.zero_add _).symm
  | cons c cs ih =>
      rw [List.cons_append, barsFrom, barsFrom, ih, Nat.add_assoc]
      rfl

theorem behind_append (p : Place) (t u : Text) : p.behind (t ++ u) = (p.behind t).behind u :=
  List.foldl_append

/-! ### Passing through a text -/

/-- Between the text and its rest there are `n` bars, and the rest does not start in the middle of
anything. -/
def Passes (n : Nat) (rest t : Text) : Prop :=
  ∃ w, t = w ++ rest ∧ barsFrom .outside w = n ∧ (Place.behind .outside w = .outside ∨ rest = [])

theorem Passes.refl (t : Text) : Passes 0 t t := ⟨[], rfl, rfl, .inl rfl⟩

theorem Passes.trans {m n : Nat} {middle : Text} (h : Passes m middle t) (h' : Passes n rest middle) :
    Passes (m + n) rest t := by
  obtain ⟨w, rfl, hm, hw⟩ := h
  obtain ⟨w', rfl, hn, hw'⟩ := h'
  refine ⟨w ++ w', (List.append_assoc w w' rest).symm, ?_, ?_⟩
  · rw [barsFrom_append]
    rcases hw with hw | hnil
    · rw [hw, hm, hn]
    · obtain rfl := (List.append_eq_nil_iff.1 hnil).1
      rw [hm, ← hn]
      rfl
  · rcases hw with hw | hnil
    · rw [behind_append, hw]
      exact hw'
    · exact .inr (List.append_eq_nil_iff.1 hnil).2

/-- Nothing but these characters has anything to do with bars. -/
def marks : List Char := ['"', '/', '#', '|']

theorem next_outside_of_not_mem {c : Char} (hc : c ∉ marks) : Place.next .outside c = .outside := by
  unfold marks at hc
  simp only [List.mem_cons, List.not_mem_nil, or_false, not_or] at hc
  obtain ⟨hquote, hslash, hsign, hbar⟩ := hc
  simp [Place.next, Place.opened, hquote, hslash, hsign, hbar]

/-- None of the marks stands in the text. -/
def Plain (w : Text) : Prop := w.all (fun c => !marks.contains c) = true

instance (w : Text) : Decidable (Plain w) :=
  inferInstanceAs (Decidable (w.all (fun c => !marks.contains c) = true))

theorem plain_iff {w : Text} : Plain w ↔ ∀ c ∈ w, c ∉ marks := by
  simp [Plain]

theorem Passes.of_plain {w : Text} (hplain : Plain w) (h : t = w ++ rest) : Passes 0 rest t := by
  have hall : barsFrom .outside w = 0 ∧ Place.behind .outside w = .outside := by
    have hw := plain_iff.1 hplain
    clear h hplain
    induction w with
    | nil => exact ⟨rfl, rfl⟩
    | cons c cs ih =>
        obtain ⟨hbars, hbehind⟩ := ih (fun x hx => hw x (List.mem_cons_of_mem c hx))
        have hc := next_outside_of_not_mem (hw c List.mem_cons_self)
        refine ⟨?_, ?_⟩
        · rw [barsFrom, hc, hbars, if_neg (fun h => by simp at h)]
        · rw [Place.behind, List.foldl_cons, hc]
          exact hbehind
  exact ⟨w, h, hall.1, .inl hall.2⟩

theorem Passes.of_dropPrefix? {p : Text} (hp : Plain p) (h : t.dropPrefix? p = some rest) :
    Passes 0 rest t :=
  .of_plain hp (eq_append_of_dropPrefix? h)

/-- None of the marks satisfies `p`. -/
def Unmarked (p : Char → Bool) : Prop := marks.all (fun c => !p c) = true

instance (p : Char → Bool) : Decidable (Unmarked p) :=
  inferInstanceAs (Decidable (marks.all (fun c => !p c) = true))

theorem Unmarked.not_mem {p : Char → Bool} (hp : Unmarked p) {c : Char} (hc : p c = true) : c ∉ marks :=
  fun hmem => by simpa [hc] using List.all_eq_true.1 hp c hmem

theorem unmarked_isBlank : Unmarked isBlank := by decide

theorem unmarked_isNameChar : Unmarked isNameChar := by decide

theorem unmarked_isEntityChar : Unmarked isEntityChar := by decide

theorem unmarked_isActionChar : Unmarked isActionChar := by decide

set_option maxRecDepth 100000 in
theorem unmarked_digits : Unmarked CharClass.digits.contains :=
  CharSet.runs_ofTable (P := fun runs => Unmarked (fun c => CharSet.hasCode c.toNat runs))
    (by decide +kernel)

theorem passes_dropBlanks (t : Text) : Passes 0 t.dropBlanks t := by
  refine .of_plain (w := t.takeWhile isBlank) (plain_iff.2 (fun c hc => unmarked_isBlank.not_mem ?_))
    List.takeWhile_append_dropWhile.symm
  exact List.all_eq_true.1 List.all_takeWhile c hc

/-! ### Words -/

section Words

variable {p : Char → Bool} {w : Text}

theorem passes_of_row? (hp : Unmarked p) (h : row? p t = some (w, rest)) : Passes 0 rest t := by
  obtain ⟨happend, -, hall, -⟩ := row?_eq_some h
  exact .of_plain (plain_iff.2 (fun c hc => hp.not_mem (hall c hc))) happend

theorem passes_of_name? (h : name? t = some (w, rest)) : Passes 0 rest t := by
  obtain ⟨happend, hname, -⟩ := name?_eq_some h
  exact .of_plain (plain_iff.2 (fun c hc => unmarked_isNameChar.not_mem (hname.2 c hc))) happend

theorem passes_of_bracketed? {opening closing : String} (hopening : Plain opening.toList)
    (hclosing : Plain closing.toList) (hp : Unmarked p)
    (h : bracketed? opening closing p t = some (w, rest)) : Passes 0 rest t := by
  obtain ⟨inner, left, hinner, hrow, hclose⟩ := bracketed?_eq_some h
  have hword : Passes 0 left t :=
    ((Passes.of_dropPrefix? hopening hinner).trans (passes_dropBlanks inner)).trans
      (passes_of_row? hp hrow)
  exact (hword.trans (passes_dropBlanks left)).trans (.of_dropPrefix? hclosing hclose)

theorem passes_of_colon? (h : colon? t = some rest) : Passes 0 rest t := by
  obtain ⟨inner, hinner, rfl⟩ := colon?_eq_some h
  have hcolon : Passes 0 inner t.dropBlanks := .of_plain (w := [':']) (by decide) hinner
  exact ((passes_dropBlanks t).trans hcolon).trans (passes_dropBlanks inner)

theorem passes_of_flag? {flag : Bool} (h : flag? t = some (flag, rest)) : Passes 0 rest t := by
  unfold flag? at h
  split at h
  · simp at h
  · next word left hword =>
      split at h
      · simp at h
      · obtain ⟨-, rfl⟩ := Prod.mk.inj (Option.some.inj h)
        obtain ⟨hmem, hdrop⟩ := oneOf?_eq_some hword
        refine .of_dropPrefix? ?_ hdrop
        simp only [List.mem_cons, List.not_mem_nil, or_false] at hmem
        obtain rfl | rfl := hmem <;> decide

theorem passes_of_integer? (h : integer? t = some (w, rest)) : Passes 0 rest t := by
  rcases integer?_eq_some h with ⟨inner, digits, rfl, hrow, -⟩ | ⟨-, hrow⟩
  · have hminus : Passes 0 inner ('-' :: inner) := .of_plain (w := ['-']) (by decide) rfl
    exact hminus.trans (passes_of_row? unmarked_digits hrow)
  · exact passes_of_row? unmarked_digits hrow

theorem passes_of_decimal? (h : decimal? t = some (w, rest)) : Passes 0 rest t := by
  obtain ⟨whole, left, hint, ⟨inner, digits, rfl, hrow, -⟩ | ⟨-, rfl, -⟩⟩ := decimal?_eq_some h
  · have hpoint : Passes 0 inner ('.' :: inner) := .of_plain (w := ['.']) (by decide) rfl
    exact ((passes_of_integer? hint).trans hpoint).trans (passes_of_row? unmarked_digits hrow)
  · exact passes_of_integer? hint

theorem passes_of_precedence? {q : Lexeme.Precedence} (h : precedence? t = some (q, rest)) :
    Passes 0 rest t := by
  obtain ⟨left, inner, hrow, hcolon, hvalue, -⟩ := precedence?_eq_some h
  exact ((passes_of_row? unmarked_isNameChar hrow).trans (passes_of_colon? hcolon)).trans
    (passes_of_integer? hvalue)

variable {α : Type} {item? : Text → Option (α × Text)} {list : List α}

theorem passes_moreItems (hitem : ∀ {t a r}, item? t = some (a, r) → Passes 0 r t) (fuel : Nat)
    (t : Text) : Passes 0 (moreItems item? fuel t).2 t := by
  induction fuel generalizing t with
  | zero => exact .refl t
  | succ fuel ih =>
      unfold moreItems
      cases hcomma : t.dropBlanks.dropPrefix? [','] with
      | none => exact .refl t
      | some inner =>
          dsimp only
          cases hfirst : item? inner.dropBlanks with
          | none => exact .refl t
          | some found =>
              have hinner : Passes 0 inner t :=
                (passes_dropBlanks t).trans (.of_dropPrefix? (by decide) hcomma)
              exact ((hinner.trans (passes_dropBlanks inner)).trans (hitem hfirst)).trans (ih found.2)

theorem passes_of_items? (hitem : ∀ {t a r}, item? t = some (a, r) → Passes 0 r t)
    (h : items? item? t = some (list, rest)) : Passes 0 rest t := by
  obtain ⟨first, left, others, hfirst, hmore, -⟩ := items?_eq_some h
  have hothers := passes_moreItems hitem left.length left
  rw [hmore] at hothers
  exact (hitem hfirst).trans hothers

end Words

/-! ### Literals, patterns and comments -/

/-- A text up to its delimiter ends where the delimiter is found. -/
theorem quoted_of_delimited? {d : Char} {body : Text}
    (h : delimited? d t = some (body, rest)) : ∃ w, t = w ++ rest ∧
      barsFrom (.quoted d) w = 0 ∧ Place.behind (.quoted d) w = .outside := by
  induction t using delimited?.induct d generalizing body with
  | case1 => simp [delimited?] at h
  | case2 cs =>
      rw [delimited?_close] at h
      obtain ⟨rfl, rfl⟩ := Prod.mk.inj (Option.some.inj h)
      exact ⟨[d], rfl, by simp [barsFrom], by simp [Place.behind, Place.next]⟩
  | case3 hd => simp [delimited?, hd] at h
  | case4 ds hd => simp [delimited?, hd] at h
  | case5 x ds hx hne ih =>
      unfold delimited? at h
      rw [if_neg hne, if_pos rfl] at h
      dsimp only at h
      rw [if_neg hx] at h
      obtain ⟨⟨inner, left⟩, hinner, heq⟩ := Option.map_eq_some_iff.1 h
      obtain ⟨rfl, rfl⟩ := Prod.mk.inj heq
      obtain ⟨w, rfl, hbars, hbehind⟩ := ih hinner
      refine ⟨'\\' :: x :: w, rfl, ?_, ?_⟩
      · simpa [barsFrom, Place.next, hne] using hbars
      · simpa [Place.behind, Place.next, hne] using hbehind
  | case6 x cs hx hslash ih =>
      unfold delimited? at h
      rw [if_neg hx, if_neg hslash] at h
      obtain ⟨⟨inner, left⟩, hinner, heq⟩ := Option.map_eq_some_iff.1 h
      obtain ⟨rfl, rfl⟩ := Prod.mk.inj heq
      obtain ⟨w, rfl, hbars, hbehind⟩ := ih hinner
      refine ⟨x :: w, rfl, ?_, ?_⟩
      · simpa [barsFrom, Place.next, hx, hslash] using hbars
      · simpa [Place.behind, Place.next, hx, hslash] using hbehind

theorem passes_of_between? {d : Char} {body : Text} (hd : d = '"' ∨ d = '/')
    (h : between? d t = some (body, rest)) : Passes 0 rest t := by
  obtain ⟨inner, rfl, hinner⟩ := between?_eq_some h
  have hopen : Place.next .outside d = .quoted d := by
    obtain rfl | rfl := hd <;> rfl
  obtain ⟨w, rfl, hbars, hbehind⟩ := quoted_of_delimited? hinner
  refine ⟨d :: w, rfl, ?_, .inl ?_⟩
  · rw [barsFrom, hopen, hbars, if_neg (fun h => by simp at h)]
  · rw [Place.behind, List.foldl_cons, hopen]
    exact hbehind

theorem passes_of_literal? {w : Text} (h : literal? t = some (w, rest)) : Passes 0 rest t := by
  obtain ⟨⟨body, left⟩, hbody, heq⟩ := Option.map_eq_some_iff.1 h
  obtain ⟨-, rfl⟩ := Prod.mk.inj heq
  exact passes_of_between? (.inl rfl) hbody

theorem passes_of_pattern? {w : Text} (h : pattern? t = some (w, rest)) : Passes 0 rest t := by
  obtain ⟨⟨body, left⟩, hbody, heq⟩ := Option.map_eq_some_iff.1 h
  obtain ⟨-, rfl⟩ := Prod.mk.inj heq
  exact passes_of_between? (.inr rfl) hbody

/-- A comment that is open at the end of the text is behind everything else. -/
theorem passes_dropSpaceFrom (inComment : Bool) (t : Text) : ∃ w,
    t = w ++ dropSpaceFrom inComment t ∧ barsFrom (if inComment then .comment else .outside) w = 0 ∧
      (Place.behind (if inComment then .comment else .outside) w = .outside ∨
        dropSpaceFrom inComment t = []) := by
  induction t generalizing inComment with
  | nil => exact ⟨[], rfl, rfl, .inr rfl⟩
  | cons c cs ih =>
      have hstep {p : Place} (inComment' : Bool)
          (hp : p.next c = if inComment' then .comment else .outside) (hbar : p ≠ .bar)
          (hdrop : dropSpaceFrom inComment (c :: cs) = dropSpaceFrom inComment' cs) : ∃ w,
          c :: cs = w ++ dropSpaceFrom inComment (c :: cs) ∧ barsFrom p w = 0 ∧
            (p.behind w = .outside ∨ dropSpaceFrom inComment (c :: cs) = []) := by
        obtain ⟨w, hw, hbars, hbehind⟩ := ih inComment'
        rw [hdrop]
        refine ⟨c :: w, by rw [List.cons_append, ← hw], ?_, ?_⟩
        · rw [barsFrom, hp, hbars, if_neg (fun h => hbar h.1)]
        · rw [Place.behind, List.foldl_cons, hp]
          exact hbehind
      cases inComment with
      | true =>
          refine hstep (decide (c ≠ '\n')) ?_ (by decide) (by simp [dropSpaceFrom])
          by_cases hc : c = '\n' <;> simp [Place.next, hc]
      | false =>
          by_cases hblank : isBlank c = true
          · exact hstep false
              (next_outside_of_not_mem (unmarked_isBlank.not_mem hblank)) (by decide)
              (by simp [dropSpaceFrom, hblank])
          · by_cases hsign : c = '#'
            · subst hsign
              exact hstep true rfl (by decide) (by simp [dropSpaceFrom, hblank])
            · have hstop : dropSpaceFrom false (c :: cs) = c :: cs := by
                simp [dropSpaceFrom, hblank, hsign]
              exact ⟨[], by rw [hstop]; rfl, rfl, .inl rfl⟩

theorem passes_dropSpace (t : Text) : Passes 0 (dropSpace t) t := passes_dropSpaceFrom false t

/-! ### Rules -/

section Rules

variable {v : Vocabulary} {r r' : Rule} {rules : List Rule} {lhs : String}

theorem ReadsOption.passes {key : OptionKey} {o : RuleOption} (h : ReadsOption key t o rest) :
    Passes 0 rest t := by
  cases h with
  | entity h => exact passes_of_flag? h
  | weight h _ => exact passes_of_decimal? h
  | priority h _ => exact passes_of_integer? h
  | precedence h _ => exact passes_of_items? passes_of_precedence? h
  | left h => exact passes_of_items? (passes_of_row? unmarked_isNameChar) h
  | right h => exact passes_of_items? (passes_of_row? unmarked_isNameChar) h
  | non h => exact passes_of_items? (passes_of_row? unmarked_isNameChar) h

theorem passes_of_optionKey? {key : OptionKey} (h : optionKey? t = some (key, rest)) :
    Passes 0 rest t := by
  obtain ⟨left, hdrop, hcolon⟩ := optionKey?_eq_some h
  have hword : Plain key.word.toList := by cases key <;> decide
  exact (Passes.of_dropPrefix? hword hdrop).trans (passes_of_colon? hcolon)

/-- An item has no bars. -/
theorem ReadsItem.passes {item : Item} (h : ReadsItem v t item rest) : Passes 0 rest t := by
  cases h with
  | option hkey ho => exact (passes_of_optionKey? hkey).trans ho.passes
  | action _ hname _ =>
      exact passes_of_bracketed? (by decide) (by decide) unmarked_isActionChar hname
  | literal _ _ htext => exact passes_of_literal? htext
  | pattern _ _ _ hsource _ => exact passes_of_pattern? hsource
  | entity _ _ _ _ hname _ =>
      exact passes_of_bracketed? (by decide) (by decide) unmarked_isEntityChar hname
  | gap _ _ _ _ _ hname _ =>
      exact passes_of_bracketed? (by decide) (by decide) unmarked_isEntityChar hname
  | nonterminal _ _ _ _ _ _ hname => exact passes_of_name? hname

theorem ReadsItems.passes (h : ReadsItems v r t r' rest) : Passes 0 rest t := by
  induction h with
  | done _ => exact passes_dropSpace _
  | item _ hitem _ _ ih => exact ((passes_dropSpace _).trans hitem.passes).trans ih

theorem passes_bar (h : t.dropPrefix? bar = some rest) : Passes 1 rest t :=
  ⟨bar, eq_append_of_dropPrefix? h, by decide, .inl (by decide)⟩

/-- Each bar has an alternative behind it. -/
theorem ReadsAlternatives.passes (h : ReadsAlternatives v lhs t rules rest) :
    ∃ n, Passes n rest t ∧ rules.length = n + 1 := by
  induction h with
  | last h _ => exact ⟨0, h.passes, rfl⟩
  | bar h hbar _ ih =>
      obtain ⟨n, hpasses, hlength⟩ := ih
      refine ⟨0 + 1 + n, (h.passes.trans (passes_bar hbar)).trans hpasses, ?_⟩
      rw [List.length_cons, hlength]
      omega

/-- **A rule's text has one alternative more than it has bars.** -/
theorem ReadsRule.bars (h : ReadsRule v t rules rest) :
    ∃ w, t = w ++ rest ∧ rules.length = barsFrom .outside w + 1 := by
  obtain ⟨name, left, inner, hname, harrow, halternatives⟩ := h
  obtain ⟨n, hpasses, hlength⟩ := halternatives.passes
  have hhead : Passes 0 inner t :=
    ((passes_of_name? hname).trans (passes_dropSpace left)).trans (.of_dropPrefix? (by decide) harrow)
  obtain ⟨w, hw, hbars, -⟩ := hhead.trans hpasses
  exact ⟨w, hw, by rw [hbars, hlength, Nat.zero_add]⟩

end Rules

end ChartParsing.Source
