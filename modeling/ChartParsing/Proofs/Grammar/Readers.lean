import ChartParsing.Proofs.Grammar.Items

/-!
# What the readers of grammar texts take

Whatever a reader takes from a text, it leaves a proper suffix of it (`Remains`).  So the lengths of texts are
fuel enough for all loops, and what is read can be said without fuel: `ReadsItems`, `ReadsAlternatives` and
`ReadsRules` say which text is read as what.

* **`readItem_eq_ok_iff`**: the seven sorts of items, each with what makes the reader come to it.
* **`readItems_eq_ok_iff`**, **`readAlternatives_eq_ok_iff`**, **`readRules_eq_ok_iff`**: a reader with enough
  fuel succeeds exactly with what is read.
-/

namespace ChartParsing

variable {t rest : Text}

/-! ### Rests -/

namespace Text

/-- The text is a proper suffix of the other one. -/
structure Remains (rest t : Text) : Prop where
  suffix : rest <:+ t
  shorter : rest.length < t.length

theorem Remains.of_append {w : Text} (hne : w ≠ []) (h : t = w ++ rest) : Remains rest t where
  suffix := ⟨w, h.symm⟩
  shorter := by
    have hw := List.length_pos_iff.2 hne
    rw [h, List.length_append]
    omega

theorem Remains.trans_suffix {middle : Text} (h : Remains rest middle) (ht : middle <:+ t) :
    Remains rest t where
  suffix := h.suffix.trans ht
  shorter := Nat.lt_of_lt_of_le h.shorter ht.length_le

theorem Remains.of_suffix {middle : Text} (h : rest <:+ middle) (ht : Remains middle t) :
    Remains rest t where
  suffix := h.trans ht.suffix
  shorter := Nat.lt_of_le_of_lt h.length_le ht.shorter

theorem dropBlanks_suffix (t : Text) : t.dropBlanks <:+ t := List.dropWhile_suffix isBlank

theorem remains_of_dropPrefix? {p : Text} (hne : p ≠ []) (h : t.dropPrefix? p = some rest) :
    Remains rest t :=
  .of_append hne (eq_append_of_dropPrefix? h)

end Text

open Text

namespace Lexeme

variable {w body : Text} {p : Char → Bool}

theorem dropSpaceFrom_suffix (inComment : Bool) (t : Text) : dropSpaceFrom inComment t <:+ t := by
  induction t generalizing inComment with
  | nil => exact List.suffix_refl []
  | cons c cs ih =>
      unfold dropSpaceFrom
      by_cases hcomment : inComment = true
      · rw [if_pos hcomment]
        exact (ih _).trans (List.suffix_cons c cs)
      · rw [if_neg hcomment]
        by_cases hblank : isBlank c = true
        · rw [if_pos hblank]
          exact (ih _).trans (List.suffix_cons c cs)
        · rw [if_neg hblank]
          by_cases hsign : c = '#'
          · rw [if_pos hsign]
            exact (ih _).trans (List.suffix_cons c cs)
          · simp only [if_neg hsign, List.suffix_refl]

theorem dropSpace_suffix (t : Text) : dropSpace t <:+ t := dropSpaceFrom_suffix false t

/-! ### Words -/

/-- A row is taken as far as it goes. -/
theorem row?_eq_some (h : row? p t = some (w, rest)) : t = w ++ rest ∧ w ≠ [] ∧
    (∀ x ∈ w, p x = true) ∧ ∀ x, rest.head? = some x → p x = false := by
  unfold row? at h
  cases hw : t.takeWhile p with
  | nil => simp [hw] at h
  | cons x xs =>
      rw [hw] at h
      obtain ⟨rfl, rfl⟩ := Prod.mk.inj (Option.some.inj h)
      refine ⟨by rw [← hw, List.takeWhile_append_dropWhile], by simp, fun y hy => ?_, fun y hy => ?_⟩
      · rw [← hw] at hy
        exact List.all_eq_true.1 List.all_takeWhile y hy
      · have hnot := List.head?_dropWhile_not p t
        rw [hy] at hnot
        simpa using hnot

theorem row?_remains (h : row? p t = some (w, rest)) : Remains rest t :=
  have hrow := row?_eq_some h
  .of_append hrow.2.1 hrow.1

theorem name?_eq_some (h : name? t = some (w, rest)) : t = w ++ rest ∧ IsName w ∧
    ∀ x, rest.head? = some x → isNameChar x = false := by
  unfold name? at h
  cases t with
  | nil => simp at h
  | cons c cs =>
      dsimp only at h
      by_cases hc : startsName c = true
      · rw [if_pos hc] at h
        obtain ⟨happend, hne, hall, hstop⟩ := row?_eq_some h
        refine ⟨happend, ⟨⟨c, ?_, hc⟩, hall⟩, hstop⟩
        have hhead := congrArg List.head? happend
        rw [List.head?_append_of_ne_nil _ hne] at hhead
        exact hhead.symm
      · rw [if_neg hc] at h
        simp at h

theorem name?_remains (h : name? t = some (w, rest)) : Remains rest t :=
  have hname := name?_eq_some h
  .of_append hname.2.1.ne_nil hname.1

/-- A text goes up to its delimiter. -/
theorem delimited?_eq_some {d : Char} (h : delimited? d t = some (body, rest)) :
    t = body ++ d :: rest := by
  induction t using delimited?.induct d generalizing body with
  | case1 => simp [delimited?] at h
  | case2 cs =>
      rw [delimited?_close] at h
      obtain ⟨rfl, rfl⟩ := Prod.mk.inj (Option.some.inj h)
      rfl
  | case3 hd => simp [delimited?, hd] at h
  | case4 ds hd => simp [delimited?, hd] at h
  | case5 x ds hx hd ih =>
      unfold delimited? at h
      rw [if_neg hd, if_pos rfl] at h
      dsimp only at h
      rw [if_neg hx] at h
      obtain ⟨⟨inner, left⟩, hinner, heq⟩ := Option.map_eq_some_iff.1 h
      obtain ⟨rfl, rfl⟩ := Prod.mk.inj heq
      rw [ih hinner]
      rfl
  | case6 x cs hx hslash ih =>
      unfold delimited? at h
      rw [if_neg hx, if_neg hslash] at h
      obtain ⟨⟨inner, left⟩, hinner, heq⟩ := Option.map_eq_some_iff.1 h
      obtain ⟨rfl, rfl⟩ := Prod.mk.inj heq
      rw [ih hinner]
      rfl

theorem between?_eq_some {d : Char} (h : between? d t = some (body, rest)) :
    ∃ inner, t = d :: inner ∧ delimited? d inner = some (body, rest) := by
  cases t with
  | nil => simp [between?] at h
  | cons c cs =>
      unfold between? at h
      dsimp only at h
      by_cases hc : c = d
      · rw [if_pos hc] at h
        exact ⟨cs, by rw [hc], h⟩
      · rw [if_neg hc] at h
        simp at h

theorem between?_remains {d : Char} (h : between? d t = some (body, rest)) : Remains rest t := by
  obtain ⟨inner, rfl, hinner⟩ := between?_eq_some h
  exact .of_append (w := d :: (body ++ [d])) (by simp) (by rw [delimited?_eq_some hinner]; simp)

theorem literal?_remains (h : literal? t = some (w, rest)) : Remains rest t := by
  obtain ⟨⟨body, left⟩, hbody, heq⟩ := Option.map_eq_some_iff.1 h
  obtain ⟨-, rfl⟩ := Prod.mk.inj heq
  exact between?_remains hbody

theorem pattern?_remains (h : pattern? t = some (w, rest)) : Remains rest t := by
  obtain ⟨⟨body, left⟩, hbody, heq⟩ := Option.map_eq_some_iff.1 h
  obtain ⟨-, rfl⟩ := Prod.mk.inj heq
  exact between?_remains hbody

/-- Between an opening and a closing text stands a row, with blanks around it. -/
theorem bracketed?_eq_some {opening closing : String}
    (h : bracketed? opening closing p t = some (w, rest)) : ∃ inner left,
      t.dropPrefix? opening.toList = some inner ∧ row? p inner.dropBlanks = some (w, left) ∧
        left.dropBlanks.dropPrefix? closing.toList = some rest := by
  unfold bracketed? at h
  cases hinner : t.dropPrefix? opening.toList with
  | none => simp [hinner] at h
  | some inner =>
      rw [hinner] at h
      dsimp only at h
      cases hrow : row? p inner.dropBlanks with
      | none => simp [hrow] at h
      | some found =>
          obtain ⟨word, left⟩ := found
          rw [hrow] at h
          obtain ⟨r, hr, heq⟩ := Option.map_eq_some_iff.1 h
          obtain ⟨rfl, rfl⟩ := Prod.mk.inj heq
          exact ⟨inner, left, rfl, hrow, hr⟩

theorem dropPrefix?_suffix {q : Text} (h : t.dropPrefix? q = some rest) : rest <:+ t :=
  ⟨q, (eq_append_of_dropPrefix? h).symm⟩

theorem bracketed?_remains {opening closing : String}
    (h : bracketed? opening closing p t = some (w, rest)) : Remains rest t := by
  obtain ⟨inner, left, hinner, hrow, hclose⟩ := bracketed?_eq_some h
  have hleft : Remains left t :=
    (row?_remains hrow).trans_suffix ((dropBlanks_suffix inner).trans (dropPrefix?_suffix hinner))
  exact .of_suffix ((dropPrefix?_suffix hclose).trans (dropBlanks_suffix left)) hleft

/-! ### Values of options -/

theorem colon?_eq_some (h : colon? t = some rest) :
    ∃ inner : Text, t.dropBlanks = ':' :: inner ∧ rest = inner.dropBlanks := by
  obtain ⟨inner, hinner, rfl⟩ := Option.map_eq_some_iff.1 h
  exact ⟨inner, eq_append_of_dropPrefix? hinner, rfl⟩

theorem colon?_remains (h : colon? t = some rest) : Remains rest t := by
  obtain ⟨inner, hinner, rfl⟩ := colon?_eq_some h
  have hcolon : Remains inner t.dropBlanks := .of_append (w := [':']) (by simp) hinner
  exact .of_suffix (dropBlanks_suffix inner) (hcolon.trans_suffix (dropBlanks_suffix t))

theorem oneOf?_eq_some {words : List String} {word : String}
    (h : oneOf? words t = some (word, rest)) :
    word ∈ words ∧ t.dropPrefix? word.toList = some rest := by
  obtain ⟨w, hw, hdrop⟩ := List.exists_of_findSome?_eq_some h
  obtain ⟨r, hr, heq⟩ := Option.map_eq_some_iff.1 hdrop
  obtain ⟨rfl, rfl⟩ := Prod.mk.inj heq
  exact ⟨hw, hr⟩

theorem flag?_remains {flag : Bool} (h : flag? t = some (flag, rest)) : Remains rest t := by
  unfold flag? at h
  cases hword : oneOf? ["true", "false"] t with
  | none => simp [hword] at h
  | some found =>
      obtain ⟨word, left⟩ := found
      rw [hword] at h
      dsimp only at h
      split at h
      · simp at h
      · obtain ⟨-, rfl⟩ := Prod.mk.inj (Option.some.inj h)
        obtain ⟨hmem, hdrop⟩ := oneOf?_eq_some hword
        refine remains_of_dropPrefix? ?_ hdrop
        simp only [List.mem_cons, List.not_mem_nil, or_false] at hmem
        obtain rfl | rfl := hmem <;> decide

/-- An integer is a row of digits, perhaps behind a minus sign. -/
theorem integer?_eq_some (h : integer? t = some (w, rest)) :
    (∃ inner digits, t = '-' :: inner ∧ row? CharClass.digits.contains inner = some (digits, rest) ∧
        w = '-' :: digits) ∨
      (t.head? ≠ some '-' ∧ row? CharClass.digits.contains t = some (w, rest)) := by
  unfold integer? at h
  split at h
  · next inner =>
      obtain ⟨⟨digits, left⟩, hrow, heq⟩ := Option.map_eq_some_iff.1 h
      obtain ⟨rfl, rfl⟩ := Prod.mk.inj heq
      exact .inl ⟨inner, digits, rfl, hrow, rfl⟩
  · next hne =>
      refine .inr ⟨fun hhead => ?_, h⟩
      cases t with
      | nil => simp at hhead
      | cons c cs => exact hne cs (by rw [Option.some.inj hhead])

theorem integer?_remains (h : integer? t = some (w, rest)) : Remains rest t := by
  rcases integer?_eq_some h with ⟨inner, digits, rfl, hrow, -⟩ | ⟨-, hrow⟩
  · exact (row?_remains hrow).trans_suffix (List.suffix_cons _ _)
  · exact row?_remains hrow

theorem decimal?_eq_some (h : decimal? t = some (w, rest)) : ∃ whole left,
    integer? t = some (whole, left) ∧
      ((∃ inner digits, left = '.' :: inner ∧
          row? CharClass.digits.contains inner = some (digits, rest) ∧ w = whole ++ '.' :: digits) ∨
        (w = whole ∧ rest = left ∧
          ∀ inner, left = '.' :: inner → row? CharClass.digits.contains inner = none)) := by
  unfold decimal? at h
  split at h
  · simp at h
  · next whole inner hint =>
      split at h
      · next digits r hrow =>
          obtain ⟨rfl, rfl⟩ := Prod.mk.inj (Option.some.inj h)
          exact ⟨whole, _, hint, .inl ⟨inner, digits, rfl, hrow, rfl⟩⟩
      · next hrow =>
          obtain ⟨rfl, rfl⟩ := Prod.mk.inj (Option.some.inj h)
          refine ⟨_, _, hint, .inr ⟨rfl, rfl, fun inner' heq => ?_⟩⟩
          obtain rfl := (List.cons.inj heq).2
          exact hrow
  · next other hne hint =>
      obtain rfl := Option.some.inj h
      exact ⟨w, rest, hint, .inr ⟨rfl, rfl, fun inner heq => (hne w inner (by rw [← heq])).elim⟩⟩

theorem decimal?_of_point {whole inner digits : Text} (hint : integer? t = some (whole, '.' :: inner))
    (hrow : row? CharClass.digits.contains inner = some (digits, rest)) :
    decimal? t = some (whole ++ '.' :: digits, rest) := by
  unfold decimal?
  rw [hint]
  split
  · next heq => simp at heq
  · next heq =>
      obtain ⟨rfl, hcons⟩ := Prod.mk.inj (Option.some.inj heq)
      obtain rfl := (List.cons.inj hcons).2
      rw [hrow]
  · next hne heq => exact (hne _ _ (Option.some.inj heq).symm).elim

theorem decimal?_of_whole (hint : integer? t = some (w, rest))
    (hpoint : ∀ inner, rest = '.' :: inner → row? CharClass.digits.contains inner = none) :
    decimal? t = some (w, rest) := by
  unfold decimal?
  rw [hint]
  split
  · next heq => simp at heq
  · next heq =>
      obtain ⟨rfl, rfl⟩ := Prod.mk.inj (Option.some.inj heq)
      rw [hpoint _ rfl]
  · next heq => exact heq.symm

theorem decimal?_remains (h : decimal? t = some (w, rest)) : Remains rest t := by
  obtain ⟨whole, left, hint, ⟨inner, digits, rfl, hrow, -⟩ | ⟨-, rfl, -⟩⟩ := decimal?_eq_some h
  · exact .of_suffix (row?_remains hrow).suffix
      (.of_suffix (List.suffix_cons _ _) (integer?_remains hint))
  · exact integer?_remains hint

/-! ### Lists -/

section Lists

variable {α : Type} {item? : Text → Option (α × Text)} {list : List α}

theorem moreItems_suffix (hitem : ∀ {t a r}, item? t = some (a, r) → Remains r t) (fuel : Nat)
    (t : Text) : (moreItems item? fuel t).2 <:+ t := by
  induction fuel generalizing t with
  | zero => exact List.suffix_refl t
  | succ fuel ih =>
      unfold moreItems
      cases hcomma : t.dropBlanks.dropPrefix? [','] with
      | none => exact List.suffix_refl t
      | some inner =>
          dsimp only
          cases hfirst : item? inner.dropBlanks with
          | none => exact List.suffix_refl t
          | some found =>
              exact (ih found.2).trans ((hitem hfirst).suffix.trans ((dropBlanks_suffix inner).trans
                ((dropPrefix?_suffix hcomma).trans (dropBlanks_suffix t))))

theorem items?_eq_some (h : items? item? t = some (list, rest)) : ∃ first left others,
    item? t = some (first, left) ∧ moreItems item? left.length left = (others, rest) ∧
      list = first :: others := by
  obtain ⟨⟨first, left⟩, hfirst, heq⟩ := Option.map_eq_some_iff.1 h
  obtain ⟨rfl, rfl⟩ := Prod.mk.inj heq
  exact ⟨first, left, _, hfirst, rfl, rfl⟩

theorem items?_remains (hitem : ∀ {t a r}, item? t = some (a, r) → Remains r t)
    (h : items? item? t = some (list, rest)) : Remains rest t := by
  obtain ⟨first, left, others, hfirst, hmore, -⟩ := items?_eq_some h
  have hsuffix := moreItems_suffix hitem left.length left
  rw [hmore] at hsuffix
  exact .of_suffix hsuffix (hitem hfirst)

end Lists

theorem precedence?_eq_some {q : Precedence} (h : precedence? t = some (q, rest)) :
    ∃ left inner, row? isNameChar t = some (q.cls, left) ∧ colon? left = some inner ∧
      integer? inner = some (q.value, rest) ∧ q.written = t.take (t.length - rest.length) := by
  unfold precedence? at h
  cases hrow : row? isNameChar t with
  | none => simp [hrow] at h
  | some found =>
      obtain ⟨cls, left⟩ := found
      rw [hrow] at h
      dsimp only at h
      cases hcolon : colon? left with
      | none => simp [hcolon] at h
      | some inner =>
          rw [hcolon] at h
          obtain ⟨⟨value, r⟩, hvalue, heq⟩ := Option.map_eq_some_iff.1 h
          obtain ⟨rfl, rfl⟩ := Prod.mk.inj heq
          exact ⟨left, inner, rfl, hcolon, hvalue, rfl⟩

theorem precedence?_remains {q : Precedence} (h : precedence? t = some (q, rest)) :
    Remains rest t := by
  obtain ⟨left, inner, hrow, hcolon, hvalue, -⟩ := precedence?_eq_some h
  exact .of_suffix (integer?_remains hvalue).suffix
    (.of_suffix (colon?_remains hcolon).suffix (row?_remains hrow))

end Lexeme

namespace Source

open Lexeme

variable {v : Vocabulary} {r r' : Rule} {rules : List Rule} {fuel : Nat} {lhs : String}

/-! ### Steps that may fail -/

theorem bind_eq_ok {α β : Type} {x : Except Failure α} {f : α → Except Failure β} {b : β} :
    x >>= f = .ok b ↔ ∃ a, x = .ok a ∧ f a = .ok b := by
  cases x with
  | error e => simp [bind, Except.bind]
  | ok a => simp [bind, Except.bind]

theorem within_eq_ok {α : Type} {place : String} {x : Except Failure α} {a : α} :
    within place x = .ok a ↔ x = .ok a := by
  cases x <;> simp [within]

theorem required_eq_ok {α : Type} {expected : Expected} {o : Option α} {a : α} :
    required expected t o = .ok a ↔ o = some a := by
  cases o <;> simp [required]

theorem readName_eq_ok {name : String} : readName t = .ok (name, rest) ↔
    ∃ w, name? t = some (w, rest) ∧ name = String.ofList w := by
  unfold readName
  rw [bind_eq_ok]
  simp only [within_eq_ok, required_eq_ok, Prod.exists, Except.ok.injEq, Prod.mk.injEq]
  constructor
  · rintro ⟨w, left, hw, rfl, rfl⟩
    exact ⟨w, hw, rfl⟩
  · rintro ⟨w, hw, rfl⟩
    exact ⟨w, rest, hw, rfl, rfl⟩

/-! ### Options -/

/-- What a text is read as behind the key of an option. -/
inductive ReadsOption : OptionKey → Text → RuleOption → Text → Prop
  | entity {t rest : Text} {flag : Bool} (h : flag? t = some (flag, rest)) :
      ReadsOption .entity t (.entity flag) rest
  | weight {t text rest : Text} {w : Float} (h : decimal? t = some (text, rest))
      (hw : weightValue text = .ok w) : ReadsOption .weight t (.weight w) rest
  | priority {t text rest : Text} {p : Int} (h : integer? t = some (text, rest))
      (hp : priorityValue text = .ok p) : ReadsOption .priority t (.priority p) rest
  | precedence {t rest : Text} {list : List Lexeme.Precedence} {classes : List (String × Int)}
      (h : precedences? t = some (list, rest)) (hc : list.mapM precedenceValue = .ok classes) :
      ReadsOption .precedence t (.precedence classes) rest
  | left {t rest : Text} {list : List Text} (h : classes? t = some (list, rest)) :
      ReadsOption .left t (.left (list.map String.ofList)) rest
  | right {t rest : Text} {list : List Text} (h : classes? t = some (list, rest)) :
      ReadsOption .right t (.right (list.map String.ofList)) rest
  | non {t rest : Text} {list : List Text} (h : classes? t = some (list, rest)) :
      ReadsOption .non t (.non (list.map String.ofList)) rest

theorem readClasses_eq_ok {place : String} {classes : List String} :
    readClasses place t = .ok (classes, rest) ↔
      ∃ list, classes? t = some (list, rest) ∧ classes = list.map String.ofList := by
  unfold readClasses
  rw [bind_eq_ok]
  simp only [within_eq_ok, required_eq_ok, Prod.exists, Except.ok.injEq, Prod.mk.injEq]
  constructor
  · rintro ⟨list, left, h, rfl, rfl⟩
    exact ⟨list, h, rfl⟩
  · rintro ⟨list, h, rfl⟩
    exact ⟨list, rest, h, rfl, rfl⟩

theorem readOption_eq_ok_iff {key : OptionKey} {o : RuleOption} :
    readOption key t = .ok (o, rest) ↔ ReadsOption key t o rest := by
  constructor
  · intro h
    cases key with
    | entity =>
        obtain ⟨⟨flag, left⟩, hflag, heq⟩ := bind_eq_ok.1 h
        obtain ⟨rfl, rfl⟩ := Prod.mk.inj (Except.ok.inj heq)
        exact .entity (required_eq_ok.1 (within_eq_ok.1 hflag))
    | weight =>
        obtain ⟨⟨text, left⟩, htext, heq⟩ := bind_eq_ok.1 h
        obtain ⟨w, hw, heq⟩ := bind_eq_ok.1 heq
        obtain ⟨rfl, rfl⟩ := Prod.mk.inj (Except.ok.inj heq)
        exact .weight (required_eq_ok.1 (within_eq_ok.1 htext)) hw
    | priority =>
        obtain ⟨⟨text, left⟩, htext, heq⟩ := bind_eq_ok.1 h
        obtain ⟨p, hp, heq⟩ := bind_eq_ok.1 heq
        obtain ⟨rfl, rfl⟩ := Prod.mk.inj (Except.ok.inj heq)
        exact .priority (required_eq_ok.1 (within_eq_ok.1 htext)) hp
    | precedence =>
        obtain ⟨⟨list, left⟩, hlist, heq⟩ := bind_eq_ok.1 h
        obtain ⟨classes, hc, heq⟩ := bind_eq_ok.1 heq
        obtain ⟨rfl, rfl⟩ := Prod.mk.inj (Except.ok.inj heq)
        exact .precedence (required_eq_ok.1 (within_eq_ok.1 hlist)) hc
    | left =>
        obtain ⟨⟨classes, left⟩, hclasses, heq⟩ := bind_eq_ok.1 h
        obtain ⟨rfl, rfl⟩ := Prod.mk.inj (Except.ok.inj heq)
        obtain ⟨list, hlist, rfl⟩ := readClasses_eq_ok.1 hclasses
        exact .left hlist
    | right =>
        obtain ⟨⟨classes, left⟩, hclasses, heq⟩ := bind_eq_ok.1 h
        obtain ⟨rfl, rfl⟩ := Prod.mk.inj (Except.ok.inj heq)
        obtain ⟨list, hlist, rfl⟩ := readClasses_eq_ok.1 hclasses
        exact .right hlist
    | non =>
        obtain ⟨⟨classes, left⟩, hclasses, heq⟩ := bind_eq_ok.1 h
        obtain ⟨rfl, rfl⟩ := Prod.mk.inj (Except.ok.inj heq)
        obtain ⟨list, hlist, rfl⟩ := readClasses_eq_ok.1 hclasses
        exact .non hlist
  · intro h
    cases h with
    | entity h =>
        exact bind_eq_ok.2 ⟨_, within_eq_ok.2 (required_eq_ok.2 h), rfl⟩
    | weight h hw =>
        exact bind_eq_ok.2 ⟨_, within_eq_ok.2 (required_eq_ok.2 h), bind_eq_ok.2 ⟨_, hw, rfl⟩⟩
    | priority h hp =>
        exact bind_eq_ok.2 ⟨_, within_eq_ok.2 (required_eq_ok.2 h), bind_eq_ok.2 ⟨_, hp, rfl⟩⟩
    | precedence h hc =>
        exact bind_eq_ok.2 ⟨_, within_eq_ok.2 (required_eq_ok.2 h), bind_eq_ok.2 ⟨_, hc, rfl⟩⟩
    | left h => exact bind_eq_ok.2 ⟨_, readClasses_eq_ok.2 ⟨_, h, rfl⟩, rfl⟩
    | right h => exact bind_eq_ok.2 ⟨_, readClasses_eq_ok.2 ⟨_, h, rfl⟩, rfl⟩
    | non h => exact bind_eq_ok.2 ⟨_, readClasses_eq_ok.2 ⟨_, h, rfl⟩, rfl⟩

theorem ReadsOption.remains {key : OptionKey} {o : RuleOption} (h : ReadsOption key t o rest) :
    Remains rest t := by
  cases h with
  | entity h => exact flag?_remains h
  | weight h _ => exact decimal?_remains h
  | priority h _ => exact integer?_remains h
  | precedence h _ => exact items?_remains precedence?_remains h
  | left h => exact items?_remains row?_remains h
  | right h => exact items?_remains row?_remains h
  | non h => exact items?_remains row?_remains h

/-- The first key is taken that stands here with a colon. -/
theorem optionKey?_eq (t : Text) : optionKey? t = OptionKey.all.findSome? (fun key =>
    ((t.dropPrefix? key.word.toList).bind colon?).map (fun r => (key, r))) := by
  unfold optionKey?
  refine congrArg (fun f => OptionKey.all.findSome? f) (funext fun key => ?_)
  cases t.dropPrefix? key.word.toList <;> rfl

theorem optionKey?_eq_some {key : OptionKey} (h : optionKey? t = some (key, rest)) :
    ∃ left, t.dropPrefix? key.word.toList = some left ∧ colon? left = some rest := by
  rw [optionKey?_eq] at h
  obtain ⟨key', -, hkey⟩ := List.exists_of_findSome?_eq_some h
  obtain ⟨r, hr, heq⟩ := Option.map_eq_some_iff.1 hkey
  obtain ⟨rfl, rfl⟩ := Prod.mk.inj heq
  exact Option.bind_eq_some_iff.1 hr

theorem optionKey?_remains {key : OptionKey} (h : optionKey? t = some (key, rest)) :
    Remains rest t := by
  obtain ⟨left, hdrop, hcolon⟩ := optionKey?_eq_some h
  exact (colon?_remains hcolon).trans_suffix (dropPrefix?_suffix hdrop)

/-! ### Items -/

/-- What a text is read as, by the first sort of item that fits. -/
inductive ReadsItem (v : Vocabulary) (t : Text) : Item → Text → Prop
  | option {key : OptionKey} {left rest : Text} {o : RuleOption}
      (hkey : optionKey? t = some (key, left)) (ho : ReadsOption key left o rest) :
      ReadsItem v t (.option o) rest
  | action {name rest : Text} {a : Action} (hkey : optionKey? t = none)
      (hname : Lexeme.action? t = some (name, rest)) (ha : v.action (String.ofList name) = .ok a) :
      ReadsItem v t (.action a) rest
  | literal {text rest : Text} (hkey : optionKey? t = none) (haction : Lexeme.action? t = none)
      (htext : literal? t = some (text, rest)) :
      ReadsItem v t (.symbol (.literal (String.ofList text))) rest
  | pattern {source rest : Text} {terminal : PatternTerminal} (hkey : optionKey? t = none)
      (haction : Lexeme.action? t = none) (hliteral : literal? t = none)
      (hsource : pattern? t = some (source, rest))
      (hcompile : PatternTerminal.compile (String.ofList source) false .anywhere = .ok terminal) :
      ReadsItem v t (.symbol (.pattern terminal)) rest
  | entity {name rest : Text} {s : Symbol} (hkey : optionKey? t = none)
      (haction : Lexeme.action? t = none) (hliteral : literal? t = none)
      (hpattern : pattern? t = none) (hname : entity? t = some (name, rest))
      (hs : v.entity (String.ofList name) = .ok s) : ReadsItem v t (.symbol s) rest
  | gap {name rest : Text} {s : Symbol} (hkey : optionKey? t = none)
      (haction : Lexeme.action? t = none) (hliteral : literal? t = none)
      (hpattern : pattern? t = none) (hentity : entity? t = none)
      (hname : Lexeme.gap? t = some (name, rest))
      (hs : v.gap (String.ofList name) = .ok s) : ReadsItem v t (.symbol s) rest
  | nonterminal {name rest : Text} (hkey : optionKey? t = none)
      (haction : Lexeme.action? t = none) (hliteral : literal? t = none)
      (hpattern : pattern? t = none) (hentity : entity? t = none) (hgap : Lexeme.gap? t = none)
      (hname : name? t = some (name, rest)) :
      ReadsItem v t (.symbol (.nonterminal (String.ofList name))) rest

/-- **The reader of items** succeeds exactly with what a text is read as. -/
theorem readItem_eq_ok_iff {item : Item} :
    readItem v t = .ok (item, rest) ↔ ReadsItem v t item rest := by
  constructor
  · intro h
    unfold readItem at h
    cases hkey : optionKey? t with
    | some found =>
        rw [hkey] at h
        obtain ⟨⟨o, left⟩, ho, heq⟩ := bind_eq_ok.1 h
        obtain ⟨rfl, rfl⟩ := Prod.mk.inj (Except.ok.inj heq)
        exact .option hkey (readOption_eq_ok_iff.1 ho)
    | none =>
    rw [hkey] at h
    dsimp only at h
    cases haction : Lexeme.action? t with
    | some found =>
        rw [haction] at h
        obtain ⟨a, ha, heq⟩ := bind_eq_ok.1 h
        obtain ⟨rfl, rfl⟩ := Prod.mk.inj (Except.ok.inj heq)
        exact .action hkey haction ha
    | none =>
    rw [haction] at h
    dsimp only at h
    cases hliteral : literal? t with
    | some found =>
        rw [hliteral] at h
        obtain ⟨rfl, rfl⟩ := Prod.mk.inj (Except.ok.inj h)
        exact .literal hkey haction hliteral
    | none =>
    rw [hliteral] at h
    dsimp only at h
    cases hpattern : pattern? t with
    | some found =>
        rw [hpattern] at h
        obtain ⟨terminal, hcompile, heq⟩ := bind_eq_ok.1 h
        obtain ⟨rfl, rfl⟩ := Prod.mk.inj (Except.ok.inj heq)
        exact .pattern hkey haction hliteral hpattern hcompile
    | none =>
    rw [hpattern] at h
    dsimp only at h
    cases hentity : entity? t with
    | some found =>
        rw [hentity] at h
        obtain ⟨s, hs, heq⟩ := bind_eq_ok.1 h
        obtain ⟨rfl, rfl⟩ := Prod.mk.inj (Except.ok.inj heq)
        exact .entity hkey haction hliteral hpattern hentity hs
    | none =>
    rw [hentity] at h
    dsimp only at h
    cases hgap : Lexeme.gap? t with
    | some found =>
        rw [hgap] at h
        obtain ⟨s, hs, heq⟩ := bind_eq_ok.1 h
        obtain ⟨rfl, rfl⟩ := Prod.mk.inj (Except.ok.inj heq)
        exact .gap hkey haction hliteral hpattern hentity hgap hs
    | none =>
        rw [hgap] at h
        obtain ⟨⟨name, left⟩, hname, heq⟩ := bind_eq_ok.1 h
        obtain ⟨rfl, rfl⟩ := Prod.mk.inj (Except.ok.inj heq)
        obtain ⟨w, hw, rfl⟩ := readName_eq_ok.1 (within_eq_ok.1 hname)
        exact .nonterminal hkey haction hliteral hpattern hentity hgap hw
  · intro h
    unfold readItem
    cases h with
    | option hkey ho =>
        rw [hkey]
        exact bind_eq_ok.2 ⟨_, readOption_eq_ok_iff.2 ho, rfl⟩
    | action hkey hname ha =>
        rw [hkey, hname]
        exact bind_eq_ok.2 ⟨_, ha, rfl⟩
    | literal hkey haction htext => rw [hkey, haction, htext]
    | pattern hkey haction hliteral hsource hcompile =>
        rw [hkey, haction, hliteral, hsource]
        exact bind_eq_ok.2 ⟨_, hcompile, rfl⟩
    | entity hkey haction hliteral hpattern hname hs =>
        rw [hkey, haction, hliteral, hpattern, hname]
        exact bind_eq_ok.2 ⟨_, hs, rfl⟩
    | gap hkey haction hliteral hpattern hentity hname hs =>
        rw [hkey, haction, hliteral, hpattern, hentity, hname]
        exact bind_eq_ok.2 ⟨_, hs, rfl⟩
    | nonterminal hkey haction hliteral hpattern hentity hgap hname =>
        rw [hkey, haction, hliteral, hpattern, hentity, hgap]
        exact bind_eq_ok.2 ⟨_, within_eq_ok.2 (readName_eq_ok.2 ⟨_, hname, rfl⟩), rfl⟩

theorem ReadsItem.remains {item : Item} (h : ReadsItem v t item rest) : Remains rest t := by
  cases h with
  | option hkey ho => exact .of_suffix ho.remains.suffix (optionKey?_remains hkey)
  | action _ hname _ => exact bracketed?_remains hname
  | literal _ _ htext => exact literal?_remains htext
  | pattern _ _ _ hsource _ => exact pattern?_remains hsource
  | entity _ _ _ _ hname _ => exact bracketed?_remains hname
  | gap _ _ _ _ _ hname _ => exact bracketed?_remains hname
  | nonterminal _ _ _ _ _ _ hname => exact name?_remains hname

/-! ### Alternatives -/

/-- What the items in front of the end of an alternative make of a rule. -/
inductive ReadsItems (v : Vocabulary) : Rule → Text → Rule → Text → Prop
  | done {r : Rule} {t : Text} (hends : endsAlternative (dropSpace t) = true) :
      ReadsItems v r t r (dropSpace t)
  | item {r next r' : Rule} {t left rest : Text} {item : Item}
      (hgoes : endsAlternative (dropSpace t) = false) (hitem : ReadsItem v (dropSpace t) item left)
      (hadd : item.addTo r = .ok next) (hrest : ReadsItems v next left r' rest) :
      ReadsItems v r t r' rest

theorem ReadsItems.suffix (h : ReadsItems v r t r' rest) : rest <:+ t := by
  induction h with
  | done _ => exact dropSpace_suffix _
  | item _ hitem _ _ ih => exact ih.trans (hitem.remains.suffix.trans (dropSpace_suffix _))

/-- An alternative ends where it says. -/
theorem ReadsItems.ends (h : ReadsItems v r t r' rest) : endsAlternative rest = true := by
  induction h with
  | done hends => exact hends
  | item _ _ _ _ ih => exact ih

/-- **The loop over the items** of an alternative needs no more rounds than the text has characters. -/
theorem readItems_eq_ok_iff (hfuel : t.length ≤ fuel) :
    readItems v fuel r t = .ok (r', rest) ↔ ReadsItems v r t r' rest := by
  induction fuel generalizing r t with
  | zero =>
      obtain rfl := List.eq_nil_of_length_eq_zero (Nat.le_zero.1 hfuel)
      constructor
      · intro h
        obtain ⟨rfl, rfl⟩ := Prod.mk.inj (Except.ok.inj h)
        exact .done rfl
      · intro h
        cases h with
        | done _ => rfl
        | item hgoes _ _ _ => exact absurd hgoes (by decide)
  | succ fuel ih =>
      have hleft {item : Item} {left : Text} (h : ReadsItem v (dropSpace t) item left) :
          left.length ≤ fuel := by
        have hshorter := (h.remains.trans_suffix (dropSpace_suffix t)).shorter
        omega
      unfold readItems
      dsimp only
      cases hends : endsAlternative (dropSpace t) with
      | true =>
          rw [if_pos rfl]
          constructor
          · intro h
            obtain ⟨rfl, rfl⟩ := Prod.mk.inj (Except.ok.inj h)
            exact .done hends
          · intro h
            cases h with
            | done _ => rfl
            | item hgoes _ _ _ => exact absurd (hends.symm.trans hgoes) (by decide)
      | false =>
          rw [if_neg Bool.false_ne_true]
          constructor
          · intro h
            obtain ⟨⟨item, left⟩, hitem, hnext⟩ := bind_eq_ok.1 h
            obtain ⟨next, hadd, hrest⟩ := bind_eq_ok.1 hnext
            have hitem := readItem_eq_ok_iff.1 (within_eq_ok.1 hitem)
            exact .item hends hitem hadd ((ih (hleft hitem)).1 hrest)
          · intro h
            cases h with
            | done hends' => exact absurd (hends.symm.trans hends') (by decide)
            | item _ hitem hadd hrest =>
                exact bind_eq_ok.2 ⟨_, within_eq_ok.2 (readItem_eq_ok_iff.2 hitem),
                  bind_eq_ok.2 ⟨_, hadd, (ih (hleft hitem)).2 hrest⟩⟩

/-- What the text of a rule behind its arrow is read as. -/
inductive ReadsAlternatives (v : Vocabulary) (lhs : String) : Text → List Rule → Text → Prop
  | last {t rest : Text} {r : Rule} (h : ReadsItems v (Rule.of lhs []) t r rest)
      (hbar : rest.dropPrefix? bar = none) : ReadsAlternatives v lhs t [r] rest
  | bar {t left next rest : Text} {r : Rule} {rules : List Rule}
      (h : ReadsItems v (Rule.of lhs []) t r left) (hbar : left.dropPrefix? bar = some next)
      (hrest : ReadsAlternatives v lhs next rules rest) :
      ReadsAlternatives v lhs t (r :: rules) rest

theorem ReadsAlternatives.suffix (h : ReadsAlternatives v lhs t rules rest) : rest <:+ t := by
  induction h with
  | last h _ => exact h.suffix
  | bar h hbar _ ih => exact ih.trans ((dropPrefix?_suffix hbar).trans h.suffix)

theorem ReadsAlternatives.ne_nil (h : ReadsAlternatives v lhs t rules rest) : rules ≠ [] := by
  cases h <;> simp

theorem readAlternative_eq_ok_iff :
    readAlternative v lhs t = .ok (r, rest) ↔ ReadsItems v (Rule.of lhs []) t r rest :=
  readItems_eq_ok_iff (Nat.le_refl t.length)

theorem readAlternatives_eq_ok_iff (hfuel : t.length < fuel) :
    readAlternatives v lhs fuel t = .ok (rules, rest) ↔ ReadsAlternatives v lhs t rules rest := by
  induction fuel generalizing t rules with
  | zero => exact absurd hfuel (Nat.not_lt_zero _)
  | succ fuel ih =>
      have hnext {r : Rule} {left next : Text} (h : ReadsItems v (Rule.of lhs []) t r left)
          (hbar : left.dropPrefix? bar = some next) : next.length < fuel := by
        have hshorter := (remains_of_dropPrefix? (by decide) hbar).trans_suffix h.suffix |>.shorter
        omega
      unfold readAlternatives
      constructor
      · intro h
        obtain ⟨⟨r, left⟩, halternative, h⟩ := bind_eq_ok.1 h
        have hr := readAlternative_eq_ok_iff.1 halternative
        cases hbar : left.dropPrefix? bar with
        | none =>
            dsimp only at h
            rw [hbar] at h
            obtain ⟨rfl, rfl⟩ := Prod.mk.inj (Except.ok.inj h)
            exact .last hr hbar
        | some next =>
            dsimp only at h
            rw [hbar] at h
            obtain ⟨⟨others, left'⟩, hothers, heq⟩ := bind_eq_ok.1 h
            obtain ⟨rfl, rfl⟩ := Prod.mk.inj (Except.ok.inj heq)
            exact .bar hr hbar ((ih (hnext hr hbar)).1 hothers)
      · intro h
        cases h with
        | last hr hbar =>
            refine bind_eq_ok.2 ⟨_, readAlternative_eq_ok_iff.2 hr, ?_⟩
            dsimp only
            rw [hbar]
        | bar hr hbar hrest =>
            refine bind_eq_ok.2 ⟨_, readAlternative_eq_ok_iff.2 hr, ?_⟩
            dsimp only
            rw [hbar]
            exact bind_eq_ok.2 ⟨_, (ih (hnext hr hbar)).2 hrest, rfl⟩

/-! ### Rules -/

/-- What a rule with its alternatives is read as. -/
def ReadsRule (v : Vocabulary) (t : Text) (rules : List Rule) (rest : Text) : Prop :=
  ∃ name left inner, name? t = some (name, left) ∧
    (dropSpace left).dropPrefix? "->".toList = some inner ∧
      ReadsAlternatives v (String.ofList name) inner rules rest

theorem readRule_eq_ok_iff : readRule v t = .ok (rules, rest) ↔ ReadsRule v t rules rest := by
  unfold readRule
  constructor
  · intro h
    obtain ⟨⟨lhs, left⟩, hname, h⟩ := bind_eq_ok.1 h
    obtain ⟨inner, harrow, h⟩ := bind_eq_ok.1 h
    obtain ⟨name, hword, rfl⟩ := readName_eq_ok.1 (within_eq_ok.1 hname)
    exact ⟨name, left, inner, hword, required_eq_ok.1 (within_eq_ok.1 harrow),
      (readAlternatives_eq_ok_iff (Nat.lt_succ_self _)).1 h⟩
  · rintro ⟨name, left, inner, hname, harrow, h⟩
    exact bind_eq_ok.2 ⟨_, within_eq_ok.2 (readName_eq_ok.2 ⟨name, hname, rfl⟩),
      bind_eq_ok.2 ⟨inner, within_eq_ok.2 (required_eq_ok.2 harrow),
        (readAlternatives_eq_ok_iff (Nat.lt_succ_self _)).2 h⟩⟩

theorem ReadsRule.remains (h : ReadsRule v t rules rest) : Remains rest t := by
  obtain ⟨name, left, inner, hname, harrow, halternatives⟩ := h
  exact .of_suffix (halternatives.suffix.trans
    ((dropPrefix?_suffix harrow).trans (dropSpace_suffix left))) (name?_remains hname)

theorem ReadsRule.ne_nil (h : ReadsRule v t rules rest) : rules ≠ [] := by
  obtain ⟨_, _, _, _, _, halternatives⟩ := h
  exact halternatives.ne_nil

/-- What a whole text is read as. -/
inductive ReadsRules (v : Vocabulary) : Text → List Rule → Prop
  | done {t : Text} (ht : dropSpace t = []) : ReadsRules v t []
  | rule {t rest : Text} {rules others : List Rule} (ht : dropSpace t ≠ [])
      (hrule : ReadsRule v (dropSpace t) rules rest) (hrest : ReadsRules v rest others) :
      ReadsRules v t (rules ++ others)

theorem readRulesFrom_eq_ok_iff (hfuel : t.length < fuel) :
    readRulesFrom v fuel t = .ok rules ↔ ReadsRules v t rules := by
  induction fuel generalizing t rules with
  | zero => exact absurd hfuel (Nat.not_lt_zero _)
  | succ fuel ih =>
      have hleft {rules : List Rule} {left : Text} (h : ReadsRule v (dropSpace t) rules left) :
          left.length < fuel := by
        have hshorter := (h.remains.trans_suffix (dropSpace_suffix t)).shorter
        omega
      unfold readRulesFrom
      dsimp only
      by_cases hnil : dropSpace t = []
      · rw [if_pos (List.isEmpty_iff.2 hnil)]
        constructor
        · intro h
          obtain rfl := Except.ok.inj h
          exact .done hnil
        · intro h
          cases h with
          | done _ => rfl
          | rule ht _ _ => exact absurd hnil ht
      · rw [if_neg (fun h => hnil (List.isEmpty_iff.1 h))]
        constructor
        · intro h
          obtain ⟨⟨found, left⟩, hrule, h⟩ := bind_eq_ok.1 h
          obtain ⟨others, hothers, heq⟩ := bind_eq_ok.1 h
          obtain rfl := Except.ok.inj heq
          have hrule := readRule_eq_ok_iff.1 hrule
          exact .rule hnil hrule ((ih (hleft hrule)).1 hothers)
        · intro h
          cases h with
          | done ht => exact absurd ht hnil
          | rule _ hrule hrest =>
              exact bind_eq_ok.2 ⟨_, readRule_eq_ok_iff.2 hrule,
                bind_eq_ok.2 ⟨_, (ih (hleft hrule)).2 hrest, rfl⟩⟩

/-- **The reader of grammar texts** succeeds exactly with what a text is read as. -/
theorem readRules_eq_ok_iff : readRules v t = .ok rules ↔ ReadsRules v t rules :=
  readRulesFrom_eq_ok_iff (Nat.lt_succ_self t.length)

end Source

end ChartParsing
