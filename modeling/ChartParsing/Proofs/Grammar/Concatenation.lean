import ChartParsing.Proofs.Grammar.Additions
import ChartParsing.Proofs.Grammar.Loading
import ChartParsing.Proofs.Grammar.Seams

/-!
# Grammar texts one behind the other

A text that was put together of two is read as the rules of the first and then those of the second, unless
the last alternative of the first one does not end where the second one begins.  It ends where `isRuleStart`
sees a name with an arrow behind it, and blanks between them at most; the reader of rules takes comments
there too.  `Heads` says that this makes no difference for a text.

* **`ReadsRules.append`**: then the rules of both texts are read.
* **`ReadsRules.not_append`**: if it makes a difference, nothing is read behind a text with a rule.

Main statement: **`extend_append`**.  A comment between a name and its arrow is such a case:
**`extend_append_comment`**.
-/

namespace ChartParsing

open Lexeme Text

variable {s t rest left : Text}

/-! ### Space -/

namespace Lexeme

/-- The space at the end of a text goes on with that at the start of the next line. -/
theorem dropSpaceFrom_append (inComment : Bool) (t b : Text) :
    dropSpaceFrom inComment (t ++ '\n' :: b) =
      if dropSpaceFrom inComment t = [] then dropSpace b
      else dropSpaceFrom inComment t ++ '\n' :: b := by
  induction t generalizing inComment with
  | nil =>
      have hline : dropSpaceFrom inComment ('\n' :: b) = dropSpace b := by cases inComment <;> rfl
      rw [List.nil_append, hline, if_pos]
      rfl
  | cons c cs ih =>
      rw [List.cons_append]
      unfold dropSpaceFrom
      by_cases hcomment : inComment = true
      · rw [if_pos hcomment, if_pos hcomment]
        exact ih _
      · rw [if_neg hcomment, if_neg hcomment]
        by_cases hblank : isBlank c = true
        · rw [if_pos hblank, if_pos hblank]
          exact ih _
        · rw [if_neg hblank, if_neg hblank]
          by_cases hsign : c = '#'
          · rw [if_pos hsign, if_pos hsign]
            exact ih _
          · rw [if_neg hsign, if_neg hsign, if_neg (by simp)]
            rfl

/-- Where no comment begins the space is a row of blanks. -/
theorem dropSpace_eq_dropBlanks (h : ∀ c, t.dropBlanks.head? = some c → c ≠ '#') :
    dropSpace t = t.dropBlanks := by
  induction t with
  | nil => rfl
  | cons c cs ih =>
      by_cases hblank : isBlank c = true
      · have hcons : dropBlanks (c :: cs) = dropBlanks cs := List.dropWhile_cons_of_pos hblank
        rw [hcons] at h ⊢
        rw [← ih h]
        show dropSpaceFrom false (c :: cs) = _
        rw [dropSpaceFrom, if_neg (by decide), if_pos hblank]
        rfl
      · have hcons : dropBlanks (c :: cs) = c :: cs := List.dropWhile_cons_of_neg hblank
        rw [hcons] at h ⊢
        show dropSpaceFrom false (c :: cs) = _
        rw [dropSpaceFrom, if_neg (by decide), if_neg hblank, if_neg (h c rfl)]

/-- Behind space there is no more of it. -/
theorem head_dropSpaceFrom (inComment : Bool) (t : Text) (c : Char)
    (h : (dropSpaceFrom inComment t).head? = some c) : isBlank c = false ∧ c ≠ '#' := by
  induction t generalizing inComment with
  | nil => simp [dropSpaceFrom] at h
  | cons x xs ih =>
      unfold dropSpaceFrom at h
      by_cases hcomment : inComment = true
      · rw [if_pos hcomment] at h
        exact ih _ h
      · rw [if_neg hcomment] at h
        by_cases hblank : isBlank x = true
        · rw [if_pos hblank] at h
          exact ih _ h
        · rw [if_neg hblank] at h
          by_cases hsign : x = '#'
          · rw [if_pos hsign] at h
            exact ih _ h
          · rw [if_neg hsign] at h
            obtain rfl := Option.some.inj h
            exact ⟨by simpa using hblank, hsign⟩

theorem dropSpace_of_head (h : ∀ c, t.head? = some c → isBlank c = false ∧ c ≠ '#') :
    dropSpace t = t := by
  cases t with
  | nil => rfl
  | cons c cs =>
      obtain ⟨hblank, hsign⟩ := h c rfl
      show dropSpaceFrom false (c :: cs) = _
      rw [dropSpaceFrom, if_neg (by decide), if_neg (by simp [hblank]), if_neg hsign]

theorem dropSpace_dropSpace (t : Text) : dropSpace (dropSpace t) = dropSpace t :=
  dropSpace_of_head (head_dropSpaceFrom false t)

end Lexeme

theorem Seam.line_eq (hs : Seam s) : ∃ b, s = '\n' :: b := by
  have hline := hs.line
  cases s with
  | nil => simp at hline
  | cons c cs => exact ⟨cs, by rw [Option.some.inj hline]⟩

namespace Source

variable {v : Vocabulary} {lhs : String} {item item' : Item} {r r' r'' : Rule}
  {rules rules' others : List Rule}

/-- The text has no rule, or its first rule starts where `isRuleStart` sees it. -/
def Heads (t : Text) : Prop := dropSpace t = [] ∨ isRuleStart (dropSpace t) = true

/-! ### Seams -/

theorem dropSpace_append_seam (hs : Seam s) (h : dropSpace t = []) :
    dropSpace (t ++ s) = dropSpace s := by
  obtain ⟨b, rfl⟩ := hs.line_eq
  unfold dropSpace at h ⊢
  rw [dropSpaceFrom_append, if_pos h]
  rfl

theorem dropSpace_append_right (hs : Seam s) (h : dropSpace t ≠ []) :
    dropSpace (t ++ s) = dropSpace t ++ s := by
  obtain ⟨b, rfl⟩ := hs.line_eq
  unfold dropSpace at h ⊢
  rw [dropSpaceFrom_append, if_neg h]

/-! ### What is read is read once -/

theorem ReadsItem.unique (h : ReadsItem v t item rest) (h' : ReadsItem v t item' left) :
    item = item' ∧ rest = left :=
  Prod.mk.inj (Except.ok.inj ((readItem_eq_ok_iff.2 h).symm.trans (readItem_eq_ok_iff.2 h')))

theorem ReadsItems.unique (h : ReadsItems v r t r' rest) (h' : ReadsItems v r t r'' left) :
    r' = r'' ∧ rest = left := by
  have hread := (readItems_eq_ok_iff (Nat.le_refl t.length)).2 h
  have hread' := (readItems_eq_ok_iff (Nat.le_refl t.length)).2 h'
  exact Prod.mk.inj (Except.ok.inj (hread.symm.trans hread'))

theorem ReadsRule.unique (h : ReadsRule v t rules rest) (h' : ReadsRule v t rules' left) :
    rules = rules' ∧ rest = left :=
  Prod.mk.inj (Except.ok.inj ((readRule_eq_ok_iff.2 h).symm.trans (readRule_eq_ok_iff.2 h')))

/-- Space in front makes no difference. -/
theorem ReadsItems.congr {t' : Text} (h : ReadsItems v r t r' rest)
    (ht : dropSpace t' = dropSpace t) : ReadsItems v r t' r' rest := by
  cases h with
  | done hends =>
      rw [← ht]
      exact .done (ht ▸ hends)
  | item hgoes hitem hadd hrest => exact .item (ht ▸ hgoes) (ht ▸ hitem) hadd hrest

theorem ReadsRules.congr {t' : Text} (h : ReadsRules v t rules) (ht : dropSpace t' = dropSpace t) :
    ReadsRules v t' rules := by
  cases h with
  | done hnil => exact .done (ht.trans hnil)
  | rule hne hrule hrest => exact .rule (ht ▸ hne) (ht ▸ hrule) hrest

/-- Only space is read as no rule. -/
theorem readsRules_nil_iff : ReadsRules v t [] ↔ dropSpace t = [] := by
  constructor
  · intro h
    generalize hrules : ([] : List Rule) = rules at h
    cases h with
    | done ht => exact ht
    | rule _ hrule _ => exact absurd (List.append_eq_nil_iff.1 hrules.symm).1 hrule.ne_nil
  · exact .done

/-! ### Ends -/

/-- What ends an alternative begins with a bar or a name, if it is not empty. -/
theorem head_of_endsAlternative (h : endsAlternative t = true) (c : Char) (hc : t.head? = some c) :
    c = '|' ∨ startsName c = true := by
  by_contra hnot
  obtain ⟨hbar, hname⟩ := not_or.1 hnot
  have hempty : t.isEmpty = false := by
    rw [List.isEmpty_eq_false_iff]
    rintro rfl
    simp at hc
  have hstarts : startsWith t bar = false := startsWith_of_head (forall_head hc hbar) ['|']
  have hrule : isRuleStart t = false := isRuleStart_of_head (forall_head hc (by simpa using hname))
  rw [endsAlternative, hempty, hstarts, hrule] at h
  exact absurd h (by decide)

/-- What is read on goes on neither with a bracket nor with a comma. -/
theorem ReadsItems.clean (h : ReadsItems v r t r' rest) : Clean t := by
  have hhead : ∀ c, (dropSpace t).head? = some c → c ≠ '(' ∧ c ≠ ',' := by
    intro c hc
    cases h with
    | done hends =>
        rcases head_of_endsAlternative hends c hc with rfl | hstarts
        · decide
        · exact ⟨by rintro rfl; exact absurd hstarts (by decide),
            by rintro rfl; exact absurd hstarts (by decide)⟩
    | item _ hitem _ _ =>
        obtain ⟨x, hx, hcase⟩ := hitem.head
        obtain rfl : c = x := Option.some.inj (hc.symm.trans hx)
        constructor
        · rintro rfl
          exact absurd hcase (by decide)
        · rintro rfl
          exact absurd hcase (by decide)
  refine ⟨fun c hc => ?_, fun c hc => ?_⟩
  · rintro rfl
    have hspace : dropSpace t = t := dropSpace_of_head (forall_head hc (by decide))
    exact (hhead '(' (by rw [hspace]; exact hc)).1 rfl
  · rintro rfl
    have hspace : dropSpace t = t.dropBlanks := dropSpace_eq_dropBlanks (forall_head hc (by decide))
    exact (hhead ',' (by rw [hspace]; exact hc)).2 rfl

theorem ReadsItem.ne_nil (h : ReadsItem v t item rest) : t ≠ [] := by
  obtain ⟨c, hc, -⟩ := h.head
  rintro rfl
  simp at hc

/-- Behind the alternatives of a rule is the end of the text or another rule. -/
theorem ReadsAlternatives.ends (h : ReadsAlternatives v lhs t rules rest) :
    rest = [] ∨ isRuleStart rest = true := by
  induction h with
  | @last t rest r h hbar =>
      have hends := h.ends
      have hnot : startsWith rest Source.bar = false := by rw [Text.startsWith, hbar]; rfl
      rw [endsAlternative, hnot, Bool.or_false, Bool.or_eq_true] at hends
      exact hends.imp_left List.isEmpty_iff.1
  | bar _ _ _ ih => exact ih

/-- A rule starts with a name, so with no space. -/
theorem dropSpace_of_isRuleStart (h : isRuleStart t = true) : dropSpace t = t := by
  refine dropSpace_of_head (fun c hc => ?_)
  have hstarts : startsName c = true := by
    by_contra hnot
    rw [isRuleStart_of_head (forall_head hc (by simpa using hnot))] at h
    exact absurd h (by decide)
  refine ⟨not_blank_of_isNameChar (isNameChar_of_startsName hstarts), ?_⟩
  rintro rfl
  exact absurd hstarts (by decide)

theorem Heads.endsAlternative (h : Heads s) : endsAlternative (dropSpace s) = true := by
  unfold Source.endsAlternative
  rcases h with hnil | hstart
  · rw [hnil]
    rfl
  · rw [hstart, Bool.or_true]

theorem Heads.dropPrefix?_bar (h : Heads s) : (dropSpace s).dropPrefix? bar = none := by
  rcases h with hnil | hstart
  · rw [hnil]
    rfl
  · refine dropPrefix?_of_head (d := '|') (fun c hc => ?_) ['|']
    rintro rfl
    rw [isRuleStart_of_head (forall_head hc (by decide))] at hstart
    exact absurd hstart (by decide)

/-! ### Names in front of comments -/

/-- Were there no comment behind the name, the arrow would be seen. -/
theorem comment_of_not_isRuleStart {name tail inner : Text} (hname : name? t = some (name, tail))
    (harrow : (dropSpace tail).dropPrefix? "->".toList = some inner) (hstart : ¬ isRuleStart t = true) :
    tail.dropBlanks.head? = some '#' := by
  by_contra hnot
  have hspace : dropSpace tail = tail.dropBlanks :=
    dropSpace_eq_dropBlanks (fun c hc hsign => hnot (hsign ▸ hc))
  refine hstart ?_
  unfold isRuleStart
  rw [hname]
  show tail.dropBlanks.startsWith "->".toList = true
  rw [← hspace, Text.startsWith, harrow]
  rfl

/-- Neither blanks nor comments are part of a word. -/
theorem parted_of_comment (h : t.dropBlanks.head? = some '#') : Parted t := by
  refine ⟨fun c hc => ?_, forall_head h (by decide)⟩
  by_cases hblank : isBlank c = true
  · exact .inl hblank
  · have hsame : t.dropBlanks = t := dropBlanks_of_head (forall_head hc (by simpa using hblank))
    rw [hsame, hc] at h
    exact .inr (.inl (Option.some.inj h))

/-- An arrow is neither an item nor the end of an alternative. -/
theorem not_readsItems_arrow {inner : Text} (ht : dropSpace t = '-' :: '>' :: inner) :
    ¬ ReadsItems v r t r' rest := by
  intro h
  cases h with
  | done hends =>
      rw [ht] at hends
      rcases head_of_endsAlternative hends '-' rfl with hdash | hdash
      · exact absurd hdash (by decide)
      · exact absurd hdash (by decide)
  | item _ hitem _ _ =>
      obtain ⟨x, hx, hcase⟩ := hitem.head
      rw [ht] at hx
      obtain rfl := Option.some.inj hx
      exact absurd hcase (by decide)

/-- A name in front of a comment is read as a nonterminal, and the arrow behind it as nothing. -/
theorem not_readsItems (hheads : ¬ Heads s) (hrule : ReadsRule v (dropSpace s) rules left) :
    ¬ ReadsItems v r s r' rest := by
  obtain ⟨name, tail, inner, hname, harrow, -⟩ := hrule
  obtain ⟨hne, hstart⟩ := not_or.1 hheads
  obtain ⟨happend, hword, -⟩ := name?_eq_some hname
  have hitem : ReadsItem v (dropSpace s) (.symbol (.nonterminal (String.ofList name))) tail := by
    have hname' : IsName (String.ofList name).toList := by rwa [String.toList_ofList]
    have hread := readItem_nonterminal (v := v) hname'
      (parted_of_comment (comment_of_not_isRuleStart hname harrow hstart))
    rw [String.toList_ofList, ← happend] at hread
    exact readItem_eq_ok_iff.1 hread
  intro h
  cases h with
  | done hends =>
      have hempty : (dropSpace s).isEmpty = false := List.isEmpty_eq_false_iff.2 hne
      obtain ⟨x, hx, hstarts⟩ := hword.starts
      have hhead : (dropSpace s).head? = some x := by
        rw [happend, List.head?_append, hx]
        rfl
      have hbar : startsWith (dropSpace s) bar = false := by
        refine startsWith_of_head (forall_head hhead ?_) ['|']
        rintro rfl
        exact absurd hstarts (by decide)
      rw [endsAlternative, hempty, hbar] at hends
      exact hstart hends
  | item _ hitem' _ hrest =>
      obtain ⟨rfl, rfl⟩ := hitem.unique hitem'
      exact not_readsItems_arrow (eq_append_of_dropPrefix? harrow) hrest

/-! ### Texts that go on -/

section Seam

variable (hs : Seam s)
include hs

/-- Items that stop in front of more text stop there too. -/
theorem ReadsItems.append (h : ReadsItems v r t r' rest) (hne : rest ≠ []) :
    ReadsItems v r (t ++ s) r' (rest ++ s) := by
  induction h with
  | @done r t hends =>
      have hspace := dropSpace_append_right hs hne
      rw [← hspace]
      exact .done (by rw [hspace, hs.endsAlternative hne]; exact hends)
  | @item r next r' t left rest item hgoes hitem hadd hrest ih =>
      have hspace := dropSpace_append_right hs hitem.ne_nil
      refine .item ?_ ?_ hadd (ih hne)
      · rw [hspace, hs.endsAlternative hitem.ne_nil]
        exact hgoes
      · rw [hspace]
        exact hs.readsItem hitem hrest.clean

/-- Items that go on to the end of the text go on behind it. -/
theorem ReadsItems.append_iff (h : ReadsItems v r t r' []) :
    ReadsItems v r (t ++ s) r'' rest ↔ ReadsItems v r' s r'' rest := by
  generalize hnil : ([] : Text) = stop at h
  induction h with
  | @done r t hends =>
      have hspace := dropSpace_append_seam hs hnil.symm
      exact ⟨fun h => h.congr hspace.symm, fun h => h.congr hspace⟩
  | @item r next r' t left stop item hgoes hitem hadd hrest ih =>
      have hspace := dropSpace_append_right hs hitem.ne_nil
      have hgoes' : endsAlternative (dropSpace (t ++ s)) = false := by
        rw [hspace, hs.endsAlternative hitem.ne_nil]
        exact hgoes
      have hitem' : ReadsItem v (dropSpace (t ++ s)) item (left ++ s) := by
        rw [hspace]
        exact hs.readsItem hitem hrest.clean
      rw [← ih hnil]
      constructor
      · intro h
        cases h with
        | done hends => exact absurd (hends.symm.trans hgoes') (by decide)
        | item _ hitem'' hadd' hrest' =>
            obtain ⟨rfl, rfl⟩ := hitem'.unique hitem''
            obtain rfl := Except.ok.inj (hadd.symm.trans hadd')
            exact hrest'
      · exact fun h => .item hgoes' hitem' hadd h

/-- Behind alternatives that take the whole text the next text begins. -/
theorem ReadsAlternatives.append (h : ReadsAlternatives v lhs t rules rest)
    (hheads : rest = [] → Heads s) :
    ReadsAlternatives v lhs (t ++ s) rules (if rest = [] then dropSpace s else rest ++ s) := by
  induction h with
  | @last t rest r h hbar =>
      by_cases hnil : rest = []
      · subst hnil
        rw [if_pos rfl]
        refine .last ((h.append_iff hs).2 (.done (hheads rfl).endsAlternative)) ?_
        exact (hheads rfl).dropPrefix?_bar
      · rw [if_neg hnil]
        exact .last (h.append hs hnil) (hs.dropPrefix?_eq_none (by decide) hbar)
  | @bar t left next rest r rules h hbar hrest ih =>
      have hne : left ≠ [] := ne_nil_of_dropPrefix? (by decide) hbar
      exact .bar (h.append hs hne) (dropPrefix?_append_right hbar s) (ih hheads)

theorem ReadsRule.append (h : ReadsRule v t rules rest) (hheads : rest = [] → Heads s) :
    ReadsRule v (t ++ s) rules (if rest = [] then dropSpace s else rest ++ s) := by
  obtain ⟨name, left, inner, hname, harrow, halternatives⟩ := h
  refine ⟨name, left ++ s, inner ++ s, hs.name? hname, ?_, halternatives.append hs hheads⟩
  rw [dropSpace_append_right hs (ne_nil_of_dropPrefix? (by decide) harrow)]
  exact dropPrefix?_append_right harrow s

/-- **The rules of both texts are read.** -/
theorem ReadsRules.append (h : ReadsRules v t rules) (hb : ReadsRules v s others)
    (hheads : Heads s) : ReadsRules v (t ++ s) (rules ++ others) := by
  induction h with
  | @done t ht => exact hb.congr (dropSpace_append_seam hs ht)
  | @rule t rest rules more ht hrule hrest ih =>
      have hspace := dropSpace_append_right hs ht
      rw [List.append_assoc]
      refine .rule (by simp [hspace, ht]) (hspace ▸ hrule.append hs (fun _ => hheads)) ?_
      by_cases hnil : rest = []
      · subst hnil
        rw [if_pos rfl]
        exact ih.congr (dropSpace_dropSpace s)
      · rw [if_neg hnil]
        exact ih

/-! ### Texts that do not go on -/

variable (hstuck : ∀ r r' rest, ¬ ReadsItems v r s r' rest)
include hstuck

theorem ReadsAlternatives.not_append (h : ReadsAlternatives v lhs t rules []) :
    ¬ ReadsAlternatives v lhs (t ++ s) rules' rest := by
  generalize hnil : ([] : Text) = stop at h
  induction h generalizing rules' with
  | last h _ =>
      subst hnil
      intro h'
      cases h' with
      | last h' _ => exact hstuck _ _ _ ((h.append_iff hs).1 h')
      | bar h' _ _ => exact hstuck _ _ _ ((h.append_iff hs).1 h')
  | bar h hbar _ ih =>
      have hne := ne_nil_of_dropPrefix? (by decide) hbar
      have hgoes := dropPrefix?_append_right hbar s
      intro h'
      cases h' with
      | last h' hlast =>
          obtain ⟨-, rfl⟩ := (h.append hs hne).unique h'
          exact absurd (hgoes.symm.trans hlast) (by simp)
      | bar h' hbar' hrest' =>
          obtain ⟨-, rfl⟩ := (h.append hs hne).unique h'
          obtain rfl := Option.some.inj (hgoes.symm.trans hbar')
          exact ih hnil hrest'

/-- **Nothing is read** behind a text with a rule. -/
theorem ReadsRules.not_append (h : ReadsRules v t rules) (hne : rules ≠ []) :
    ¬ ReadsRules v (t ++ s) rules' := by
  induction h generalizing rules' with
  | done _ => exact absurd rfl hne
  | @rule t rest rules others ht hrule hrest ih =>
      have hspace := dropSpace_append_right hs ht
      intro h'
      cases h' with
      | done hnil => simp [hspace, ht] at hnil
      | @rule _ rest' rules'' others' _ hrule' hrest' =>
          rw [hspace] at hrule'
          obtain ⟨name, left, inner, hname, harrow, halternatives⟩ := hrule
          by_cases hnil : rest = []
          · subst hnil
            obtain ⟨name', left', inner', hname', harrow', halternatives'⟩ := hrule'
            obtain ⟨rfl, rfl⟩ := Prod.mk.inj (Option.some.inj ((hs.name? hname).symm.trans hname'))
            rw [dropSpace_append_right hs (ne_nil_of_dropPrefix? (by decide) harrow),
              dropPrefix?_append_right harrow s] at harrow'
            obtain rfl := Option.some.inj harrow'
            exact halternatives.not_append hs hstuck halternatives'
          · have happend := ReadsRule.append hs (t := dropSpace t) (v := v)
              ⟨name, left, inner, hname, harrow, halternatives⟩ (fun h => absurd h hnil)
            rw [if_neg hnil] at happend
            obtain ⟨-, rfl⟩ := happend.unique hrule'
            have hstart := halternatives.ends.resolve_left hnil
            refine ih (fun hothers => ?_) hrest'
            subst hothers
            exact hnil ((dropSpace_of_isRuleStart hstart).symm.trans (readsRules_nil_iff.1 hrest))

end Seam

/-! ### Line feeds -/

theorem dropSpace_lineFeed (b : Text) : dropSpace ('\n' :: b) = dropSpace b := rfl

/-- A text of rules may stand behind a line feed. -/
theorem ReadsRules.seam {b : Text} (h : ReadsRules v b rules) : Seam ('\n' :: b) := by
  refine ⟨rfl, fun c hc => ?_⟩
  have hblanks : Text.dropBlanks ('\n' :: b) = b.dropBlanks := List.dropWhile_cons_of_pos (by decide)
  rw [hblanks] at hc
  by_cases hsign : c = '#'
  · exact .inl hsign
  · have hspace : dropSpace b = b.dropBlanks := dropSpace_eq_dropBlanks (forall_head hc hsign)
    cases h with
    | done ht => simp [← hspace, ht] at hc
    | rule _ hrule _ =>
        obtain ⟨name, left, inner, hname, -⟩ := hrule
        obtain ⟨happend, hword, -⟩ := name?_eq_some hname
        obtain ⟨x, hx, hstarts⟩ := hword.starts
        rw [← hspace, happend, List.head?_append, hx] at hc
        exact .inr (Option.some.inj hc ▸ hstarts)

/-- The first text has no rule, or the second one starts where the last rule of the first one ends. -/
def Joins (t b : Text) : Prop := dropSpace t = [] ∨ Heads b

instance (t b : Text) : Decidable (Joins t b) :=
  inferInstanceAs (Decidable (_ ∨ _ ∨ _))

/-- **What is read of two texts** in two lines. -/
theorem readRules_append {b : Text} (ht : readRules v t = .ok rules)
    (hb : readRules v b = .ok others) :
    (Joins t b → readRules v (t ++ '\n' :: b) = .ok (rules ++ others)) ∧
      (¬ Joins t b → ∃ e, readRules v (t ++ '\n' :: b) = .error e) := by
  have hreads := readRules_eq_ok_iff.1 ht
  have hreads' := readRules_eq_ok_iff.1 hb
  have hs := hreads'.seam
  have hline : ReadsRules v ('\n' :: b) others := hreads'.congr (dropSpace_lineFeed b)
  constructor
  · intro hjoins
    rw [readRules_eq_ok_iff]
    rcases hjoins with hnone | hheads
    · obtain rfl := Except.ok.inj (ht.symm.trans (readRules_eq_ok_iff.2 (.done hnone)))
      exact hline.congr (dropSpace_append_seam hs hnone)
    · exact hreads.append hs hline hheads
  · intro hjoins
    obtain ⟨hnone, hheads⟩ := not_or.1 hjoins
    have hne : rules ≠ [] := by
      rintro rfl
      exact hnone (readsRules_nil_iff.1 hreads)
    cases hread : readRules v (t ++ '\n' :: b) with
    | error e => exact ⟨e, rfl⟩
    | ok all =>
        refine absurd (readRules_eq_ok_iff.1 hread) (hreads.not_append hs (fun _ _ _ => ?_) hne)
        cases hline with
        | done hnil => exact absurd (Or.inl hnil) hheads
        | rule _ hrule _ => exact not_readsItems hheads hrule

end Source

/-! ### Grammars -/

namespace Grammar

variable {v : Vocabulary} {g g₁ g₂ : Grammar} {n₁ n₂ : Nat}

theorem append_line (a b : String) : (a ++ "\n" ++ b).toList = a.toList ++ '\n' :: b.toList := by
  rw [String.toList_append, String.toList_append, List.append_assoc]
  rfl

theorem extend_eq_ok {source : String} {result : Grammar × Nat} :
    g.extend v source = .ok result ↔
      ∃ rules, Source.readRules v source.toList = .ok rules ∧ g.addAll rules = result := by
  rw [extend, Source.bind_eq_ok]
  simp only [Except.ok.injEq]

theorem extend_of_readRules {source : String} {rules : List Rule} (g : Grammar)
    (h : Source.readRules v source.toList = .ok rules) :
    g.extend v source = .ok ((g.addAll rules).1, (g.addAll rules).2) :=
  extend_eq_ok.2 ⟨rules, h, rfl⟩

/-- **Two texts that load** one after the other load together and do the same, if they join, and do not load
together if not. -/
theorem extend_append (v : Vocabulary) (g : Grammar) (a b : String) {g₁ g₂ : Grammar} {n₁ n₂ : Nat}
    (ha : g.extend v a = .ok (g₁, n₁)) (hb : g₁.extend v b = .ok (g₂, n₂)) :
    (Source.Joins a.toList b.toList → g.extend v (a ++ "\n" ++ b) = .ok (g₂, n₁ + n₂)) ∧
      (¬ Source.Joins a.toList b.toList → ∃ e, g.extend v (a ++ "\n" ++ b) = .error e) := by
  obtain ⟨rules, hrules, hadd⟩ := extend_eq_ok.1 ha
  obtain ⟨others, hothers, hadd'⟩ := extend_eq_ok.1 hb
  obtain ⟨hjoined, hapart⟩ := Source.readRules_append hrules hothers
  constructor
  · intro hjoins
    refine extend_eq_ok.2 ⟨rules ++ others, append_line a b ▸ hjoined hjoins, ?_⟩
    rw [addAll_append, hadd, hadd']
  · intro hjoins
    obtain ⟨e, he⟩ := hapart hjoins
    refine ⟨e, ?_⟩
    rw [extend, append_line, he]
    rfl

theorem extend_append_lines : ∃ g₁ n₁ g₂ n₂, empty.extend .empty "S -> A" = .ok (g₁, n₁) ∧
    g₁.extend .empty "A -> \"b\"" = .ok (g₂, n₂) ∧
      empty.extend .empty ("S -> A" ++ "\n" ++ "A -> \"b\"") = .ok (g₂, n₁ + n₂) := by
  obtain ⟨rules, hrules⟩ := exists_of_isOk
    (show (Source.readRules .empty "S -> A".toList).isOk = true by decide +kernel)
  obtain ⟨others, hothers⟩ := exists_of_isOk
    (show (Source.readRules .empty "A -> \"b\"".toList).isOk = true by decide +kernel)
  have ha := extend_of_readRules empty hrules
  have hb := extend_of_readRules (empty.addAll rules).1 hothers
  exact ⟨_, _, _, _, ha, hb, (extend_append .empty empty _ _ ha hb).1 (by decide +kernel)⟩

/-- A comment between a name and its arrow is fine, but not behind another rule. -/
theorem extend_append_comment : ¬ ∀ (v : Vocabulary) (g : Grammar) (a b : String)
    (g₁ g₂ : Grammar) (n₁ n₂ : Nat), g.extend v a = .ok (g₁, n₁) → g₁.extend v b = .ok (g₂, n₂) →
      g.extend v (a ++ "\n" ++ b) = .ok (g₂, n₁ + n₂) := by
  intro h
  obtain ⟨rules, hrules⟩ := exists_of_isOk
    (show (Source.readRules .empty "S -> \"a\"".toList).isOk = true by decide +kernel)
  obtain ⟨others, hothers⟩ := exists_of_isOk
    (show (Source.readRules .empty "A # c\n-> \"b\"".toList).isOk = true by decide +kernel)
  have hapart : ¬ Source.Joins "S -> \"a\"".toList "A # c\n-> \"b\"".toList := by decide +kernel
  obtain ⟨e, he⟩ := (Source.readRules_append hrules hothers).2 hapart
  obtain ⟨all, hall, -⟩ := extend_eq_ok.1 (h .empty empty _ _ _ _ _ _
    (extend_of_readRules empty hrules) (extend_of_readRules (empty.addAll rules).1 hothers))
  rw [append_line] at hall
  exact absurd (he.symm.trans hall) (by simp)

end Grammar

end ChartParsing
