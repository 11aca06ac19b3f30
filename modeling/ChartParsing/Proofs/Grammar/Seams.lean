import ChartParsing.Proofs.Grammar.Readers

/-!
# Seams of grammar texts

Where two grammar texts are put together with a line feed, the readers of the first text now see more behind
it: a `Seam`.  What they took from the first text they still take.  A line feed belongs to no word, and
the only words that look behind blanks, those of options and brackets, find nothing there that would do.

* **`Seam.readsItem`**: an item is read as before, if what follows it was read too (`Clean`).
* **`Seam.isRuleStart`**, **`Seam.endsAlternative`**: alternatives end where they did.
-/

namespace ChartParsing

open Lexeme Text

/-- A line feed, and behind blanks the end, a comment or a name. -/
structure Seam (s : Text) : Prop where
  line : s.head? = some '\n'
  next : ∀ c, s.dropBlanks.head? = some c → c = '#' ∨ startsName c = true

variable {s t rest w body : Text} {p : Char → Bool}

/-! ### Beginnings -/

namespace Text

theorem dropPrefix?_append_right {q : Text} (h : t.dropPrefix? q = some rest) (s : Text) :
    (t ++ s).dropPrefix? q = some (rest ++ s) := by
  rw [eq_append_of_dropPrefix? h, List.append_assoc]
  exact dropPrefix?_append q (rest ++ s)

theorem dropBlanks_append_right (h : t.dropBlanks ≠ []) (s : Text) :
    (t ++ s).dropBlanks = t.dropBlanks ++ s := by
  unfold dropBlanks at h ⊢
  rw [List.dropWhile_append, if_neg (fun hnil => h (List.isEmpty_iff.1 hnil))]

theorem dropBlanks_append_of_eq_nil (h : t.dropBlanks = []) (s : Text) :
    (t ++ s).dropBlanks = s.dropBlanks := by
  unfold dropBlanks at h ⊢
  rw [List.dropWhile_append, if_pos (List.isEmpty_iff.2 h)]

/-- A text begins with one character only. -/
theorem forall_head {P : Char → Prop} {c : Char} (hc : t.head? = some c) (h : P c) :
    ∀ x, t.head? = some x → P x := by
  intro x hx
  exact Option.some.inj (hc.symm.trans hx) ▸ h

end Text

theorem ne_nil_of_dropPrefix? {q : Text} (hq : q ≠ []) (h : t.dropPrefix? q = some rest) :
    t ≠ [] := by
  rintro rfl
  cases q with
  | nil => exact hq rfl
  | cons x xs => simp [Text.dropPrefix?] at h

namespace Seam

variable (hs : Seam s)
include hs

theorem ne_nil : s ≠ [] := by
  intro h
  have hline := hs.line
  simp [h] at hline

/-- Behind the blanks of a seam comes neither of these characters. -/
theorem dropBlanks_ne {d : Char} (hd : d ≠ '#' ∧ startsName d = false) (c : Char)
    (hc : s.dropBlanks.head? = some c) : c ≠ d := by
  rintro rfl
  rcases hs.next c hc with h | h
  · exact hd.1 h
  · exact absurd h (by simp [hd.2])

theorem dropPrefix?_eq_none {q : Text} (hq : '\n' ∉ q) (h : t.dropPrefix? q = none) :
    (t ++ s).dropPrefix? q = none := by
  induction q generalizing t with
  | nil => cases t <;> simp [Text.dropPrefix?] at h
  | cons x xs ih =>
      cases t with
      | nil =>
          refine dropPrefix?_of_head (fun c hc => ?_) xs
          rintro rfl
          obtain rfl := Option.some.inj (hs.line.symm.trans hc)
          exact hq (by simp)
      | cons c cs =>
          rw [List.cons_append]
          unfold Text.dropPrefix? at h ⊢
          by_cases hc : c = x
          · rw [if_pos hc] at h ⊢
            exact ih (fun hmem => hq (List.mem_cons_of_mem x hmem)) h
          · rw [if_neg hc]

theorem startsWith_append {q : Text} (hq : '\n' ∉ q) : (t ++ s).startsWith q = t.startsWith q := by
  unfold Text.startsWith
  cases h : t.dropPrefix? q with
  | none => rw [hs.dropPrefix?_eq_none hq h]
  | some rest =>
      rw [dropPrefix?_append_right h s]
      rfl

/-! ### Words -/

theorem row? (hp : p '\n' = false) (h : row? p t = some (w, rest)) :
    Lexeme.row? p (t ++ s) = some (w, rest ++ s) := by
  obtain ⟨rfl, hne, hall, hstop⟩ := row?_eq_some h
  rw [List.append_assoc]
  refine row?_append hne hall (fun x hx => ?_)
  cases rest with
  | nil =>
      obtain rfl := Option.some.inj (hs.line.symm.trans hx)
      exact hp
  | cons y ys => exact hstop x hx

theorem row?_eq_none (hp : p '\n' = false) (h : Lexeme.row? p t = none) :
    Lexeme.row? p (t ++ s) = none := by
  have htake : (t ++ s).takeWhile p = [] := by
    cases t with
    | nil =>
        cases hcons : s with
        | nil => rfl
        | cons x xs =>
            obtain rfl : '\n' = x := Option.some.inj (hs.line.symm.trans (by rw [hcons]; rfl))
            simp [hp]
    | cons c cs =>
        unfold Lexeme.row? at h
        by_cases hc : p c = true
        · rw [List.takeWhile_cons_of_pos hc] at h
          simp at h
        · rw [List.cons_append, List.takeWhile_cons_of_neg hc]
  unfold Lexeme.row?
  rw [htake]

theorem name? (h : name? t = some (w, rest)) : Lexeme.name? (t ++ s) = some (w, rest ++ s) := by
  obtain ⟨rfl, hname, hstop⟩ := name?_eq_some h
  rw [List.append_assoc]
  refine name?_append hname (fun x hx => ?_)
  cases rest with
  | nil =>
      obtain rfl := Option.some.inj (hs.line.symm.trans hx)
      decide
  | cons y ys => exact hstop x hx

/-- A rule starts where it did. -/
theorem isRuleStart : isRuleStart (t ++ s) = Lexeme.isRuleStart t := by
  cases h : Lexeme.name? t with
  | none =>
      have hhead : ∀ x, (t ++ s).head? = some x → startsName x = false := by
        intro x hx
        cases t with
        | nil =>
            obtain rfl := Option.some.inj (hs.line.symm.trans hx)
            decide
        | cons c cs =>
            obtain rfl : c = x := Option.some.inj hx
            by_contra hstarts
            rw [Bool.not_eq_false] at hstarts
            unfold Lexeme.name? Lexeme.row? at h
            dsimp only at h
            rw [if_pos hstarts, List.takeWhile_cons_of_pos (isNameChar_of_startsName hstarts)] at h
            simp at h
      rw [isRuleStart_of_head hhead]
      unfold Lexeme.isRuleStart
      rw [h]
  | some found =>
      obtain ⟨name, left⟩ := found
      unfold Lexeme.isRuleStart
      rw [hs.name? h, h]
      dsimp only
      by_cases hleft : left.dropBlanks = []
      · rw [dropBlanks_append_of_eq_nil hleft, hleft]
        exact startsWith_of_head (d := '-') (hs.dropBlanks_ne (by decide)) ['>']
      · rw [dropBlanks_append_right hleft]
        exact hs.startsWith_append (by decide)

/-- An alternative ends where it did. -/
theorem endsAlternative (hne : t ≠ []) :
    Source.endsAlternative (t ++ s) = Source.endsAlternative t := by
  have hempty : (t ++ s).isEmpty = t.isEmpty := by
    rw [List.isEmpty_eq_false_iff.2 hne, List.isEmpty_eq_false_iff]
    exact fun h => hne (List.append_eq_nil_iff.1 h).1
  unfold Source.endsAlternative
  rw [hempty, hs.startsWith_append (by decide), hs.isRuleStart]

omit hs in
theorem delimited?_append_right {d : Char} (h : delimited? d t = some (body, rest)) (s : Text) :
    delimited? d (t ++ s) = some (body, rest ++ s) := by
  induction t using delimited?.induct d generalizing body with
  | case1 => simp [delimited?] at h
  | case2 cs =>
      rw [delimited?_close] at h
      obtain ⟨rfl, rfl⟩ := Prod.mk.inj (Option.some.inj h)
      exact delimited?_close d _
  | case3 hd => simp [delimited?, hd] at h
  | case4 ds hd => simp [delimited?, hd] at h
  | case5 x ds hx hd ih =>
      unfold delimited? at h
      rw [if_neg hd, if_pos rfl] at h
      dsimp only at h
      rw [if_neg hx] at h
      obtain ⟨⟨inner, left⟩, hinner, heq⟩ := Option.map_eq_some_iff.1 h
      obtain ⟨rfl, rfl⟩ := Prod.mk.inj heq
      exact delimited?_escaped (Ne.symm hd) hx (ih hinner)
  | case6 x cs hx hslash ih =>
      unfold delimited? at h
      rw [if_neg hx, if_neg hslash] at h
      obtain ⟨⟨inner, left⟩, hinner, heq⟩ := Option.map_eq_some_iff.1 h
      obtain ⟨rfl, rfl⟩ := Prod.mk.inj heq
      exact delimited?_cons hx hslash (ih hinner)

omit hs in
theorem between?_append_right {d : Char} (h : between? d t = some (body, rest)) (s : Text) :
    between? d (t ++ s) = some (body, rest ++ s) := by
  obtain ⟨inner, rfl, hinner⟩ := between?_eq_some h
  unfold between?
  rw [List.cons_append]
  dsimp only
  rw [if_pos rfl, delimited?_append_right hinner s]

omit hs in
theorem literal?_append_right (h : literal? t = some (w, rest)) (s : Text) :
    literal? (t ++ s) = some (w, rest ++ s) := by
  obtain ⟨⟨body, left⟩, hbody, heq⟩ := Option.map_eq_some_iff.1 h
  obtain ⟨rfl, rfl⟩ := Prod.mk.inj heq
  unfold literal?
  rw [between?_append_right hbody s]
  rfl

omit hs in
theorem pattern?_append_right (h : pattern? t = some (w, rest)) (s : Text) :
    pattern? (t ++ s) = some (w, rest ++ s) := by
  obtain ⟨⟨body, left⟩, hbody, heq⟩ := Option.map_eq_some_iff.1 h
  obtain ⟨rfl, rfl⟩ := Prod.mk.inj heq
  unfold pattern?
  rw [between?_append_right hbody s]
  rfl

theorem bracketed? {opening closing : String} (hp : p '\n' = false) (hclosing : closing.toList ≠ [])
    (h : bracketed? opening closing p t = some (w, rest)) :
    Lexeme.bracketed? opening closing p (t ++ s) = some (w, rest ++ s) := by
  obtain ⟨inner, left, hinner, hrow, hclose⟩ := bracketed?_eq_some h
  have hword : inner.dropBlanks ≠ [] := by
    obtain ⟨happend, hne, -⟩ := row?_eq_some hrow
    rw [happend]
    exact fun hnil => hne (List.append_eq_nil_iff.1 hnil).1
  have hleft : left.dropBlanks ≠ [] := ne_nil_of_dropPrefix? hclosing hclose
  unfold Lexeme.bracketed?
  rw [dropPrefix?_append_right hinner s]
  dsimp only
  rw [dropBlanks_append_right hword, hs.row? hp hrow]
  dsimp only
  rw [dropBlanks_append_right hleft, dropPrefix?_append_right hclose s]
  rfl

/-! ### Values of options -/

omit hs in
theorem colon?_append_right (h : colon? t = some rest) (hne : rest ≠ []) (s : Text) :
    colon? (t ++ s) = some (rest ++ s) := by
  obtain ⟨inner, hinner, rfl⟩ := colon?_eq_some h
  unfold colon?
  rw [dropBlanks_append_right (by simp [hinner]), hinner]
  show (Text.dropPrefix? ([':'] ++ (inner ++ s)) [':']).map Text.dropBlanks = _
  rw [dropPrefix?_append, Option.map_some, dropBlanks_append_right hne]

theorem colon?_eq_none (h : colon? t = none) : colon? (t ++ s) = none := by
  have hdrop : t.dropBlanks.dropPrefix? [':'] = none := Option.map_eq_none_iff.1 h
  unfold colon?
  by_cases ht : t.dropBlanks = []
  · rw [dropBlanks_append_of_eq_nil ht,
      dropPrefix?_of_head (hs.dropBlanks_ne (by decide)) []]
    rfl
  · rw [dropBlanks_append_right ht, hs.dropPrefix?_eq_none (by decide) hdrop]
    rfl

theorem oneOf? {words : List String} {word : String} (hwords : ∀ x ∈ words, '\n' ∉ x.toList)
    (h : oneOf? words t = some (word, rest)) :
    Lexeme.oneOf? words (t ++ s) = some (word, rest ++ s) := by
  obtain ⟨before, x, after, rfl, hx, hbefore⟩ := List.findSome?_eq_some_iff.1 h
  obtain ⟨r, hr, heq⟩ := Option.map_eq_some_iff.1 hx
  obtain ⟨rfl, rfl⟩ := Prod.mk.inj heq
  refine List.findSome?_eq_some_iff.2 ⟨before, x, after, rfl, ?_, fun y hy => ?_⟩
  · rw [dropPrefix?_append_right hr s]
    rfl
  · have hnone := Option.map_eq_none_iff.1 (hbefore y hy)
    rw [hs.dropPrefix?_eq_none (hwords y (by simp [hy])) hnone]
    rfl

theorem flag? {flag : Bool} (h : flag? t = some (flag, rest)) :
    Lexeme.flag? (t ++ s) = some (flag, rest ++ s) := by
  unfold Lexeme.flag? at h ⊢
  cases hword : Lexeme.oneOf? ["true", "false"] t with
  | none => simp [hword] at h
  | some found =>
      obtain ⟨word, left⟩ := found
      rw [hword] at h
      rw [hs.oneOf? (by simp) hword]
      dsimp only at h ⊢
      have hhead : (left ++ s).head?.any CharClass.word.contains =
          left.head?.any CharClass.word.contains := by
        cases left with
        | nil =>
            rw [List.nil_append, hs.line, Option.any_some,
              CharClass.clear_word.spare '\n' (.inl (by decide))]
            rfl
        | cons c cs => rfl
      rw [hhead]
      by_cases hany : left.head?.any CharClass.word.contains = true
      · rw [if_pos hany] at h
        simp at h
      · rw [if_neg hany] at h ⊢
        obtain ⟨rfl, rfl⟩ := Prod.mk.inj (Option.some.inj h)
        rfl

omit hs in
theorem digits_lineFeed : CharClass.digits.contains '\n' = false :=
  CharClass.clear_digits.spare '\n' (.inl (by decide))

theorem integer? (h : integer? t = some (w, rest)) :
    Lexeme.integer? (t ++ s) = some (w, rest ++ s) := by
  rcases integer?_eq_some h with ⟨inner, digits, rfl, hrow, rfl⟩ | ⟨hhead, hrow⟩
  · show (Lexeme.row? CharClass.digits.contains (inner ++ s)).map _ = _
    rw [hs.row? digits_lineFeed hrow]
    rfl
  · have hrow' := hs.row? digits_lineFeed hrow
    unfold Lexeme.integer?
    split
    · next inner heq =>
        cases t with
        | nil =>
            have hne := (row?_eq_some hrow).2.1
            have happend := (row?_eq_some hrow).1
            exact absurd (List.append_eq_nil_iff.1 happend.symm).1 hne
        | cons c cs => exact absurd (congrArg some (List.cons.inj heq).1) hhead
    · exact hrow'

theorem decimal? (h : decimal? t = some (w, rest)) :
    Lexeme.decimal? (t ++ s) = some (w, rest ++ s) := by
  obtain ⟨whole, left, hint, ⟨inner, digits, rfl, hrow, rfl⟩ | ⟨rfl, rfl, hpoint⟩⟩ :=
    decimal?_eq_some h
  · exact decimal?_of_point (hs.integer? hint) (hs.row? digits_lineFeed hrow)
  · refine decimal?_of_whole (hs.integer? hint) (fun inner heq => ?_)
    cases rest with
    | nil =>
        have hhead := congrArg List.head? heq
        rw [List.nil_append, hs.line] at hhead
        exact absurd (Option.some.inj hhead) (by decide)
    | cons c cs =>
        obtain ⟨rfl, rfl⟩ := List.cons.inj heq
        exact hs.row?_eq_none digits_lineFeed (hpoint cs rfl)

/-! ### Lists -/

section Lists

variable {α : Type} {item? : Text → Option (α × Text)} {list : List α}

/-- A list ends where it did, unless a comma comes next there. -/
theorem moreItems (hshort : ∀ {t a r}, item? t = some (a, r) → Remains r t)
    (hitem : ∀ {t a r}, item? t = some (a, r) → item? (t ++ s) = some (a, r ++ s))
    {fuel more : Nat} (hfuel : t.length ≤ fuel) (hmore : (t ++ s).length ≤ more)
    (h : moreItems item? fuel t = (list, rest))
    (hcomma : ∀ c, rest.dropBlanks.head? = some c → c ≠ ',') :
    Lexeme.moreItems item? more (t ++ s) = (list, rest ++ s) := by
  induction fuel generalizing t list more with
  | zero =>
      obtain rfl := List.eq_nil_of_length_eq_zero (Nat.le_zero.1 hfuel)
      obtain ⟨rfl, rfl⟩ := Prod.mk.inj h
      cases more with
      | zero => rfl
      | succ more =>
          unfold Lexeme.moreItems
          rw [List.nil_append, dropPrefix?_of_head (hs.dropBlanks_ne (by decide)) []]
  | succ fuel ih =>
      obtain ⟨more, rfl⟩ : ∃ k, more = k + 1 := by
        have hpos := List.length_pos_iff.2 hs.ne_nil
        rw [List.length_append] at hmore
        exact ⟨more - 1, by omega⟩
      unfold Lexeme.moreItems at h ⊢
      cases hdrop : t.dropBlanks.dropPrefix? [','] with
      | none =>
          rw [hdrop] at h
          obtain ⟨rfl, rfl⟩ := Prod.mk.inj h
          by_cases ht : t.dropBlanks = []
          · rw [dropBlanks_append_of_eq_nil ht,
              dropPrefix?_of_head (hs.dropBlanks_ne (by decide)) []]
          · rw [dropBlanks_append_right ht, hs.dropPrefix?_eq_none (by decide) hdrop]
      | some inner =>
          rw [hdrop] at h
          dsimp only at h
          cases hfirst : item? inner.dropBlanks with
          | none =>
              -- the comma would be left behind the list
              rw [hfirst] at h
              obtain ⟨-, rfl⟩ := Prod.mk.inj h
              refine absurd rfl (hcomma ',' ?_)
              rw [eq_append_of_dropPrefix? hdrop]
              rfl
          | some found =>
              obtain ⟨first, left⟩ := found
              rw [hfirst] at h
              obtain ⟨rfl, hleft⟩ := Prod.mk.inj h
              have hne : t.dropBlanks ≠ [] := ne_nil_of_dropPrefix? (by simp) hdrop
              have hword : inner.dropBlanks ≠ [] := by
                intro hnil
                have hshorter := (hshort hfirst).shorter
                simp [hnil] at hshorter
              have hlength : left.length < t.length :=
                ((hshort hfirst).trans_suffix ((dropBlanks_suffix inner).trans
                  ((dropPrefix?_suffix hdrop).trans (dropBlanks_suffix t)))).shorter
              rw [List.length_append] at hmore
              have hmore' : (left ++ s).length ≤ more := by
                rw [List.length_append]
                omega
              have hrest := ih (by omega) hmore' (Prod.ext rfl hleft)
              rw [dropBlanks_append_right hne, dropPrefix?_append_right hdrop s]
              dsimp only
              rw [dropBlanks_append_right hword, hitem hfirst]
              dsimp only
              rw [hrest]

theorem items? (hshort : ∀ {t a r}, item? t = some (a, r) → Remains r t)
    (hitem : ∀ {t a r}, item? t = some (a, r) → item? (t ++ s) = some (a, r ++ s))
    (h : items? item? t = some (list, rest))
    (hcomma : ∀ c, rest.dropBlanks.head? = some c → c ≠ ',') :
    Lexeme.items? item? (t ++ s) = some (list, rest ++ s) := by
  obtain ⟨first, left, others, hfirst, hmore, rfl⟩ := items?_eq_some h
  unfold Lexeme.items?
  rw [hitem hfirst, Option.map_some]
  dsimp only
  rw [hs.moreItems hshort hitem (Nat.le_refl _) (Nat.le_refl _) hmore hcomma]

end Lists

theorem precedence? {q : Precedence} (h : precedence? t = some (q, rest)) :
    Lexeme.precedence? (t ++ s) = some (q, rest ++ s) := by
  obtain ⟨left, inner, hrow, hcolon, hvalue, hwritten⟩ := precedence?_eq_some h
  have hne : inner ≠ [] := by
    rintro rfl
    exact absurd (integer?_remains hvalue).shorter (Nat.not_lt_zero _)
  have hlength : (t ++ s).length - (rest ++ s).length = t.length - rest.length := by
    rw [List.length_append, List.length_append]
    omega
  have htake : (t ++ s).take (t.length - rest.length) = q.written := by
    rw [hwritten]
    exact List.take_append_of_le_length (Nat.sub_le _ _)
  unfold Lexeme.precedence?
  rw [hs.row? (by decide) hrow]
  dsimp only
  rw [colon?_append_right hcolon hne s]
  dsimp only
  rw [hs.integer? hvalue, Option.map_some, hlength, htake]

end Seam

namespace Source

/-! ### Items -/

/-- What follows an item goes on neither with a bracket nor, behind blanks, with a comma. -/
structure Clean (t : Text) : Prop where
  bracket : ∀ c, t.head? = some c → c ≠ '('
  comma : ∀ c, t.dropBlanks.head? = some c → c ≠ ','

variable {v : Vocabulary} {item : Item} {r r' : Rule} {key : OptionKey} {o : RuleOption}

/-- The first character of an item. -/
theorem ReadsItem.head (h : ReadsItem v t item rest) :
    ∃ c, t.head? = some c ∧ (c ∈ ['\x7b', '"', '/'] ∨ startsName c = true) := by
  have hprefix {q left : Text} {c : Char} (hdrop : t.dropPrefix? q = some left)
      (hq : q.head? = some c) : t.head? = some c := by
    rw [eq_append_of_dropPrefix? hdrop, List.head?_append, hq]
    rfl
  cases h with
  | option hkey _ =>
      obtain ⟨left, hdrop, -⟩ := optionKey?_eq_some hkey
      obtain ⟨x, hx, hstarts⟩ := (OptionKey.isName _).starts
      exact ⟨x, hprefix hdrop hx, .inr hstarts⟩
  | action _ hname _ =>
      obtain ⟨inner, left, hdrop, -⟩ := bracketed?_eq_some hname
      exact ⟨'\x7b', hprefix hdrop rfl, .inl (by simp)⟩
  | literal _ _ htext =>
      obtain ⟨⟨body, left⟩, hbody, -⟩ := Option.map_eq_some_iff.1 htext
      obtain ⟨inner, rfl, -⟩ := between?_eq_some hbody
      exact ⟨'"', rfl, .inl (by simp)⟩
  | pattern _ _ _ hsource _ =>
      obtain ⟨⟨body, left⟩, hbody, -⟩ := Option.map_eq_some_iff.1 hsource
      obtain ⟨inner, rfl, -⟩ := between?_eq_some hbody
      exact ⟨'/', rfl, .inl (by simp)⟩
  | entity _ _ _ _ hname _ =>
      obtain ⟨inner, left, hdrop, -⟩ := bracketed?_eq_some hname
      exact ⟨'E', hprefix hdrop rfl, .inr (by decide)⟩
  | gap _ _ _ _ _ hname _ =>
      obtain ⟨inner, left, hdrop, -⟩ := bracketed?_eq_some hname
      exact ⟨'A', hprefix hdrop rfl, .inr (by decide)⟩
  | nonterminal _ _ _ _ _ _ hname =>
      obtain ⟨happend, hword, -⟩ := name?_eq_some hname
      obtain ⟨x, hx, hstarts⟩ := hword.starts
      refine ⟨x, ?_, .inr hstarts⟩
      rw [happend, List.head?_append, hx]
      rfl

end Source

namespace Seam

open Source

variable (hs : Seam s) {v : Vocabulary} {item : Source.Item} {key : OptionKey} {o : RuleOption}
include hs

omit hs in
theorem lineFeed_not_mem_word (key : OptionKey) : '\n' ∉ key.word.toList := by
  cases key <;> decide

theorem bind_colon?_eq_none (h : (t.dropPrefix? key.word.toList).bind colon? = none) :
    ((t ++ s).dropPrefix? key.word.toList).bind colon? = none := by
  cases hdrop : t.dropPrefix? key.word.toList with
  | none =>
      rw [hs.dropPrefix?_eq_none (lineFeed_not_mem_word key) hdrop]
      rfl
  | some left =>
      rw [hdrop] at h
      rw [dropPrefix?_append_right hdrop s]
      exact hs.colon?_eq_none h

theorem optionKey?_eq_none (h : optionKey? t = none) : optionKey? (t ++ s) = none := by
  rw [optionKey?_eq] at h ⊢
  refine List.findSome?_eq_none_iff.2 (fun key hkey => Option.map_eq_none_iff.2 ?_)
  exact hs.bind_colon?_eq_none (Option.map_eq_none_iff.1 (List.findSome?_eq_none_iff.1 h key hkey))

theorem optionKey? (h : optionKey? t = some (key, rest)) (hne : rest ≠ []) :
    Source.optionKey? (t ++ s) = some (key, rest ++ s) := by
  rw [optionKey?_eq] at h ⊢
  obtain ⟨before, key', after, hall, hkey, hbefore⟩ := List.findSome?_eq_some_iff.1 h
  obtain ⟨r, hr, heq⟩ := Option.map_eq_some_iff.1 hkey
  obtain ⟨rfl, rfl⟩ := Prod.mk.inj heq
  obtain ⟨left, hdrop, hcolon⟩ := Option.bind_eq_some_iff.1 hr
  refine List.findSome?_eq_some_iff.2 ⟨before, key', after, hall, ?_, fun other hother => ?_⟩
  · rw [dropPrefix?_append_right hdrop s, Option.bind_some, colon?_append_right hcolon hne s]
    rfl
  · exact Option.map_eq_none_iff.2
      (hs.bind_colon?_eq_none (Option.map_eq_none_iff.1 (hbefore other hother)))

theorem readsOption (h : ReadsOption key t o rest) (hclean : Clean rest) :
    ReadsOption key (t ++ s) o (rest ++ s) := by
  have hclasses {list : List Text} (h : classes? t = some (list, rest)) :
      classes? (t ++ s) = some (list, rest ++ s) :=
    hs.items? row?_remains (hs.row? (by decide)) h hclean.comma
  cases h with
  | entity h => exact .entity (hs.flag? h)
  | weight h hw => exact .weight (hs.decimal? h) hw
  | priority h hp => exact .priority (hs.integer? h) hp
  | precedence h hc =>
      exact .precedence (hs.items? precedence?_remains hs.precedence? h hclean.comma) hc
  | left h => exact .left (hclasses h)
  | right h => exact .right (hclasses h)
  | non h => exact .non (hclasses h)

/-- A word with a bracket does not stand here, if a name was read. -/
theorem bracketed?_of_name? {word : Text} (hword : IsName word) {opening closing : String}
    (hopening : opening.toList = word ++ ['(']) (hname : Lexeme.name? t = some (w, rest))
    (hclean : Clean rest) : Lexeme.bracketed? opening closing p (t ++ s) = none := by
  have hdrop : t.dropPrefix? opening.toList = none := by
    by_contra hne
    obtain ⟨inner, hinner⟩ := Option.ne_none_iff_exists'.1 hne
    have ht : t = word ++ ('(' :: inner) := by
      rw [eq_append_of_dropPrefix? hinner, hopening, List.append_assoc]
      rfl
    have hsame := name?_append (t := '(' :: inner) hword
      (fun x hx => Option.some.inj hx ▸ (by decide))
    rw [← ht, hname] at hsame
    obtain ⟨-, hrest⟩ := Prod.mk.inj (Option.some.inj hsame)
    exact hclean.bracket '(' (by rw [hrest]; rfl) rfl
  have hline : '\n' ∉ opening.toList := by
    rw [hopening, List.mem_append]
    rintro (h | h)
    · exact absurd (hword.all _ h) (by decide)
    · exact absurd h (by decide)
  unfold Lexeme.bracketed?
  rw [hs.dropPrefix?_eq_none hline hdrop]

/-- **An item is read as before**, if what follows it goes on like something that is read too. -/
theorem readsItem (h : ReadsItem v t item rest) (hclean : Clean rest) :
    ReadsItem v (t ++ s) item (rest ++ s) := by
  cases h with
  | option hkey ho =>
      refine .option (hs.optionKey? hkey ?_) (hs.readsOption ho hclean)
      rintro rfl
      exact absurd ho.remains.shorter (Nat.not_lt_zero _)
  | action hkey hname ha =>
      exact .action (hs.optionKey?_eq_none hkey) (hs.bracketed? (by decide) (by decide) hname) ha
  | literal hkey haction htext =>
      obtain ⟨⟨body, left⟩, hbody, -⟩ := Option.map_eq_some_iff.1 htext
      obtain ⟨inner, rfl, -⟩ := between?_eq_some hbody
      refine .literal (hs.optionKey?_eq_none hkey) (action?_of_head (fun x hx => ?_))
        (literal?_append_right htext s)
      exact Option.some.inj hx ▸ (by decide)
  | pattern hkey haction hliteral hsource hcompile =>
      obtain ⟨⟨body, left⟩, hbody, -⟩ := Option.map_eq_some_iff.1 hsource
      obtain ⟨inner, rfl, -⟩ := between?_eq_some hbody
      refine .pattern (hs.optionKey?_eq_none hkey) (action?_of_head (fun x hx => ?_))
        (literal?_of_head (fun x hx => ?_)) (pattern?_append_right hsource s) hcompile
      · exact Option.some.inj hx ▸ (by decide)
      · exact Option.some.inj hx ▸ (by decide)
  | entity hkey haction hliteral hpattern hname hsymbol =>
      obtain ⟨inner, left, hdrop, -⟩ := bracketed?_eq_some hname
      have hhead : ∀ x, (t ++ s).head? = some x → startsName x = true := by
        intro x hx
        rw [eq_append_of_dropPrefix? hdrop] at hx
        obtain rfl : 'E' = x := Option.some.inj hx
        decide
      obtain ⟨haction', hliteral', hpattern'⟩ := not_quoted_of_head hhead
      exact .entity (hs.optionKey?_eq_none hkey) haction' hliteral' hpattern'
        (hs.bracketed? (by decide) (by decide) hname) hsymbol
  | gap hkey haction hliteral hpattern hentity hname hsymbol =>
      obtain ⟨inner, left, hdrop, -⟩ := bracketed?_eq_some hname
      have hfirst : ∀ x, (t ++ s).head? = some x → x = 'A' := by
        intro x hx
        rw [eq_append_of_dropPrefix? hdrop] at hx
        exact (Option.some.inj hx).symm
      obtain ⟨haction', hliteral', hpattern'⟩ :=
        not_quoted_of_head (fun x hx => hfirst x hx ▸ (by decide))
      have hentity' : entity? (t ++ s) = none := by
        unfold entity? Lexeme.bracketed?
        rw [show "EntityTerminal(".toList = 'E' :: "ntityTerminal(".toList from rfl,
          dropPrefix?_of_head (fun x hx => hfirst x hx ▸ (by decide))]
      exact .gap (hs.optionKey?_eq_none hkey) haction' hliteral' hpattern' hentity'
        (hs.bracketed? (by decide) (by decide) hname) hsymbol
  | nonterminal hkey haction hliteral hpattern hentity hgap hname =>
      obtain ⟨happend, hword, -⟩ := name?_eq_some hname
      obtain ⟨x, hx, hstarts⟩ := hword.starts
      have hhead : ∀ y, (t ++ s).head? = some y → startsName y = true := by
        intro y hy
        rw [happend, List.append_assoc, List.head?_append, hx] at hy
        exact Option.some.inj hy ▸ hstarts
      obtain ⟨haction', hliteral', hpattern'⟩ := not_quoted_of_head hhead
      have hentity' : IsName "EntityTerminal".toList := by decide
      have hgap' : IsName "ApproxTerminal".toList := by decide
      exact .nonterminal (hs.optionKey?_eq_none hkey) haction' hliteral' hpattern'
        (hs.bracketed?_of_name? hentity' rfl hname hclean)
        (hs.bracketed?_of_name? hgap' rfl hname hclean) (hs.name? hname)

end Seam

end ChartParsing
