import ChartParsing.Proofs.Grammar.Writing

/-!
# Items that are read back

An item that stands in front of a text is read as itself, with the text as the rest.  The reader
tries the sorts of items one after the other, so for each sort there are two things to see: the
sorts before do not take its text, and it takes the whole of it.  The sorts tell one another apart
by their first characters, all but nonterminals: these may begin like an option or a lexicon, and
what does not follow decides.

The main result is **`readItem_append`**.  **`endsAlternative_append`** says that items are not
taken for the end of an alternative.
-/

namespace ChartParsing

open CharSet Lexeme Text

variable {v : Vocabulary} {t : Text}

/-! ### Beginnings -/

/-- What begins with another character than a word does not begin with the word. -/
theorem startsWith_of_head {d : Char} (h : ∀ x, t.head? = some x → x ≠ d) (w : Text) :
    startsWith t (d :: w) = false := by
  rw [startsWith, dropPrefix?_of_head h, Option.isSome_none]

/-- A word that begins like a row goes no further than the row. -/
theorem exists_of_append_eq {p : Char → Bool} {row word rest : Text}
    (hword : ∀ x ∈ word, p x = true) (hstop : ∀ x, t.head? = some x → p x = false)
    (h : row ++ t = word ++ rest) : ∃ more, row = word ++ more ∧ rest = more ++ t := by
  -- if the row ended inside the word, the text would go on with a character of the word
  rcases List.append_eq_append_iff.1 h with ⟨more, rfl, ht⟩ | ⟨more, hrow, hrest⟩
  · cases more with
    | nil => exact ⟨[], by simp, by simpa using ht.symm⟩
    | cons x xs =>
        have hx := hstop x (by rw [ht]; rfl)
        simp [hword x (by simp)] at hx
  · exact ⟨more, hrow, hrest⟩

/-- A name is not taken for a word with a bracket behind it. -/
theorem dropPrefix?_name {name : Text} (hname : IsName name) {word : Text} (hword : IsName word)
    {d : Char} (more : Text) (hd : isNameChar d = false) (ht : Ends t)
    (hends : ¬ EndsWord d) : dropPrefix? (name ++ t) (word ++ d :: more) = none := by
  cases hdrop : dropPrefix? (name ++ t) (word ++ d :: more) with
  | none => rfl
  | some rest =>
      have happend := eq_append_of_dropPrefix? hdrop
      rw [List.append_assoc] at happend
      obtain ⟨left, hleft, hrest⟩ := exists_of_append_eq hword.all
        (fun x hx => isNameChar_of_ends (ht x hx)) happend
      cases left with
      | nil => exact absurd (ht d (by rw [← List.nil_append t, ← hrest]; rfl)) hends
      | cons x xs =>
          obtain rfl : d = x := by simpa using congrArg List.head? hrest
          have := hname.all d (by simp [hleft])
          simp [hd] at this

theorem IsRow.solid {w : Text} (h : IsRow isNameChar w) : Solid w := by
  cases w with
  | nil => exact absurd rfl h.ne_nil
  | cons x xs => exact ⟨x, rfl, not_blank_of_isNameChar (h.all x (by simp))⟩

namespace Source

/-! ### Keys of options -/

/-- The characters that keys begin with. -/
def OptionKey.letters : List Char := ['e', 'w', 'p', 'o', 'l', 'r', 'n']

theorem OptionKey.exists_word (key : OptionKey) :
    ∃ d ∈ OptionKey.letters, ∃ w, key.word.toList = d :: w := by
  cases key <;> exact ⟨_, by decide, _, rfl⟩

theorem OptionKey.isName (key : OptionKey) : IsName key.word.toList := by
  cases key <;> decide

/-- Keys begin with different characters. -/
theorem OptionKey.eq_of_head? {key other : OptionKey}
    (h : key.word.toList.head? = other.word.toList.head?) : key = other := by
  revert h
  cases key <;> cases other <;> decide

theorem optionKey?_of_head (h : ∀ x, t.head? = some x → x ∉ OptionKey.letters) :
    optionKey? t = none := by
  unfold optionKey?
  refine List.findSome?_eq_none_iff.2 (fun key _ => ?_)
  obtain ⟨d, hd, w, hw⟩ := key.exists_word
  rw [hw, dropPrefix?_of_head (fun x hx he => h x hx (he ▸ hd))]

/-- A key with its colon is found. -/
theorem optionKey?_append (key : OptionKey) (ht : Solid t) :
    optionKey? (key.word.toList ++ (':' :: ' ' :: t)) = some (key, t) := by
  have hcolon : colon? (':' :: ' ' :: t) = some t := colon?_append ht [' '] (by decide)
  have hkeys : optionKey? (key.word.toList ++ (':' :: ' ' :: t)) =
      OptionKey.all.findSome? (fun other => if other = key then some (key, t) else none) := by
    unfold optionKey?
    congr 1
    funext other
    by_cases h : other = key
    · rw [if_pos h, h, dropPrefix?_append]
      simp only [hcolon, Option.map_some]
    · obtain ⟨d, _, w, hw⟩ := key.exists_word
      obtain ⟨d', _, w', hw'⟩ := other.exists_word
      rw [if_neg h, hw', dropPrefix?_of_head]
      intro x hx he
      rw [hw, List.cons_append, List.head?_cons] at hx
      obtain rfl := Option.some.inj hx
      exact h (OptionKey.eq_of_head? (by rw [hw, hw', he]; rfl))
  rw [hkeys]
  cases key <;> rfl

/-- A name is not taken for the key of an option, unless a colon comes next. -/
theorem optionKey?_name {name : Text} (hname : ∀ x ∈ name, isNameChar x = true) (ht : Parted t) :
    optionKey? (name ++ t) = none := by
  unfold optionKey?
  refine List.findSome?_eq_none_iff.2 (fun key _ => ?_)
  cases hdrop : dropPrefix? (name ++ t) key.word.toList with
  | none => rfl
  | some rest =>
      obtain ⟨more, hmore, rfl⟩ := exists_of_append_eq key.isName.all
        (fun x hx => isNameChar_of_ends (ht.ends x hx)) (eq_append_of_dropPrefix? hdrop)
      -- behind the key stands the rest of the name, or what follows the name
      have hcolon : colon? (more ++ t) = none := by
        refine colon?_eq_none (fun x hx => ?_)
        cases more with
        | nil => exact (ht.next x hx).2.1
        | cons y ys =>
            have hy : isNameChar y = true := hname y (by simp [hmore])
            rw [dropBlanks_of_head (by
              intro z hz
              obtain rfl := Option.some.inj hz
              exact not_blank_of_isNameChar hy)] at hx
            obtain rfl := Option.some.inj hx
            rintro rfl
            exact absurd hy (by decide)
      simp only [hcolon, Option.map_none]

/-! ### Values of options -/

/-- Lists with commas are found. -/
theorem items?_commas {α β : Type} {item? : Text → Option (α × Text)} {write : β → Text}
    {value : β → α} {list : List β} (hne : list ≠ [])
    (hitem : ∀ b ∈ list, ∀ rest, Ends rest → item? (write b ++ rest) = some (value b, rest))
    (hsolid : ∀ b ∈ list, Solid (write b)) (ht : Parted t) :
    items? item? (commas write list ++ t) = some (list.map value, t) := by
  cases list with
  | nil => exact absurd rfl hne
  | cons b rest =>
      rw [commas, List.append_assoc]
      exact items?_append hitem hsolid ht

theorem classes?_commas {list : List String} (hne : list ≠ [])
    (hlist : ∀ c ∈ list, IsRow isNameChar c.toList) (ht : Parted t) :
    classes? (commas String.toList list ++ t) = some (list.map String.toList, t) := by
  unfold classes?
  refine items?_commas hne (fun c hc rest hrest => ?_) (fun c hc => (hlist c hc).solid) ht
  exact row?_append (hlist c hc).ne_nil (hlist c hc).all
    (fun x hx => isNameChar_of_ends (hrest x hx))

theorem readClasses_commas (place : String) {list : List String} (hne : list ≠ [])
    (hlist : ∀ c ∈ list, IsRow isNameChar c.toList) (ht : Parted t) :
    readClasses place (commas String.toList list ++ t) = .ok (list, t) := by
  unfold readClasses
  rw [classes?_commas hne hlist ht]
  have hnames : (list.map String.toList).map String.ofList = list := by
    simp [Function.comp_def]
  simp only [required, within, bind, Except.bind, hnames]

/-- What a written precedence is read as. -/
def wordsOf (p : String × Int) : Precedence :=
  ⟨p.1.toList, (Decimal.intText p.2).toList, RuleOption.writePrecedence p⟩

theorem precedence?_append {p : String × Int} (hp : IsRow isNameChar p.1.toList) {rest : Text}
    (hrest : Ends rest) :
    precedence? (RuleOption.writePrecedence p ++ rest) = some (wordsOf p, rest) := by
  have hwritten : RuleOption.writePrecedence p ++ rest =
      p.1.toList ++ (':' :: ((Decimal.intText p.2).toList ++ rest)) := by
    simp [RuleOption.writePrecedence]
  have hrow := row?_append (t := ':' :: ((Decimal.intText p.2).toList ++ rest)) hp.ne_nil hp.all
    (by
      intro x hx
      obtain rfl := Option.some.inj hx
      decide)
  have hcolon : colon? (':' :: ((Decimal.intText p.2).toList ++ rest)) =
      some ((Decimal.intText p.2).toList ++ rest) :=
    colon?_append ((solid_intText p.2).append rest) [] (by simp)
  unfold precedence?
  rw [hwritten, hrow]
  dsimp only
  rw [hcolon]
  dsimp only
  rw [integer?_append p.2 hrest, ← hwritten]
  simp [wordsOf]

theorem mapM_precedenceValue {list : List (String × Int)} (h : ∀ p ∈ list, InRange p.2) :
    (list.map wordsOf).mapM precedenceValue = Except.ok list := by
  induction list with
  | nil => rfl
  | cons p rest ih =>
      have hp : precedenceValue (wordsOf p) = .ok p := by
        have hrange := h p (by simp)
        unfold precedenceValue wordsOf
        simp only [String.ofList_toList, readInt?_intText hrange.1 hrange.2]
      rw [List.map_cons, List.mapM_cons, hp, ih (fun q hq => h q (List.mem_cons_of_mem p hq))]
      rfl

/-- The value of an option is read as what was written. -/
theorem readOption_append {o : RuleOption} (ho : o.Expressible) (ht : Parted t) :
    readOption o.key (o.writeValue ++ t) = .ok (o, t) := by
  cases o with
  | entity flag =>
      obtain rfl : flag = true := ho
      simp only [RuleOption.key, RuleOption.writeValue, readOption, if_true, flag?_append ht.ends,
        required, within]
      rfl
  | weight w => exact ho.elim
  | priority p =>
      have hvalue : priorityValue (Decimal.intText p).toList = .ok p := by
        unfold priorityValue
        rw [String.ofList_toList, readInt?_intText ho.1 ho.2]
      simp only [RuleOption.key, RuleOption.writeValue, readOption, integer?_append p ht.ends,
        required, within, bind, Except.bind, hvalue]
  | precedence list =>
      have hwords : precedences? (commas RuleOption.writePrecedence list ++ t) =
          some (list.map wordsOf, t) := by
        unfold precedences?
        exact items?_commas ho.1 (fun p hp rest hrest => precedence?_append (ho.2 p hp).1 hrest)
          (fun p hp => (ho.2 p hp).1.solid.append _) ht
      simp only [RuleOption.key, RuleOption.writeValue, readOption, hwords, required, within]
      have hvalues := mapM_precedenceValue (fun p hp => (ho.2 p hp).2)
      simp only [bind, Except.bind, hvalues]
  | left list =>
      simp only [RuleOption.key, RuleOption.writeValue, readOption,
        readClasses_commas _ ho.1 ho.2 ht]
      rfl
  | right list =>
      simp only [RuleOption.key, RuleOption.writeValue, readOption,
        readClasses_commas _ ho.1 ho.2 ht]
      rfl
  | non list =>
      simp only [RuleOption.key, RuleOption.writeValue, readOption,
        readClasses_commas _ ho.1 ho.2 ht]
      rfl

/-! ### Items -/

/-- The name of an action is found between its brackets. -/
theorem action?_append {name : Text} (h : IsRow isActionChar name) (t : Text) :
    Lexeme.action? ("\x7b% ".toList ++ (name ++ " %\x7d".toList) ++ t) = some (name, t) := by
  have := bracketed?_append "\x7b%" "%\x7d" [' '] (p := isActionChar) (by decide)
    h.ne_nil h.all (fun x hx => not_blank_of_isActionChar hx)
    (fun x hx => by obtain rfl := Option.some.inj hx; decide) (by decide) t
  simpa [Lexeme.action?] using this

/-- The name of a lexicon or a gap is found between its brackets. -/
theorem named?_append (opening : String) {name : Text} (h : IsRow isEntityChar name) (t : Text) :
    bracketed? opening ")" isEntityChar (opening.toList ++ (name ++ ")".toList) ++ t) =
      some (name, t) := by
  have := bracketed?_append opening ")" [] (p := isEntityChar) (by simp)
    h.ne_nil h.all (fun x hx => not_blank_of_isActionChar (isActionChar_of_isEntityChar hx))
    (fun x hx => by obtain rfl := Option.some.inj hx; decide) (by decide) t
  simpa using this

theorem action?_of_head (h : ∀ x, t.head? = some x → x ≠ '\x7b') : Lexeme.action? t = none := by
  unfold Lexeme.action? bracketed?
  rw [show "\x7b%".toList = '\x7b' :: ['%'] from rfl, dropPrefix?_of_head h]

theorem literal?_of_head (h : ∀ x, t.head? = some x → x ≠ '"') : literal? t = none := by
  unfold literal? between?
  cases t with
  | nil => rfl
  | cons x xs =>
      dsimp only
      rw [if_neg (h x rfl)]
      rfl

theorem pattern?_of_head (h : ∀ x, t.head? = some x → x ≠ '/') : pattern? t = none := by
  unfold pattern? between?
  cases t with
  | nil => rfl
  | cons x xs =>
      dsimp only
      rw [if_neg (h x rfl)]
      rfl

/-- What begins with a letter is not in brackets or quotes. -/
theorem not_quoted_of_head (h : ∀ x, t.head? = some x → startsName x = true) :
    Lexeme.action? t = none ∧ literal? t = none ∧ pattern? t = none := by
  refine ⟨action?_of_head ?_, literal?_of_head ?_, pattern?_of_head ?_⟩ <;>
  · rintro x hx rfl
    exact absurd (h _ hx) (by decide)

/-- A nonterminal is what looks like nothing else. -/
theorem readItem_nonterminal {name : String} (h : IsName name.toList) (ht : Parted t) :
    readItem v (name.toList ++ t) = .ok (.symbol (.nonterminal name), t) := by
  obtain ⟨x, hx, hstarts⟩ := h.starts
  -- the name may begin like a lexicon or a gap, but these have a bracket where the name ends
  obtain ⟨haction, hliteral, hpattern⟩ := not_quoted_of_head (t := name.toList ++ t) (by
    intro y hy
    rw [List.head?_append, hx] at hy
    exact Option.some.inj hy ▸ hstarts)
  have hbracket : ¬ EndsWord '(' := by
    rintro (h | h | h)
    · exact absurd h (by decide)
    · exact absurd h (by decide)
    · exact absurd h (by decide)
  have hentity : entity? (name.toList ++ t) = none := by
    have hword : IsName "EntityTerminal".toList := by decide
    have := dropPrefix?_name h hword [] (by decide) ht.ends hbracket
    unfold entity? bracketed?
    rw [show "EntityTerminal(".toList = "EntityTerminal".toList ++ ['('] from rfl, this]
  have hgap : gap? (name.toList ++ t) = none := by
    have hword : IsName "ApproxTerminal".toList := by decide
    have := dropPrefix?_name h hword [] (by decide) ht.ends hbracket
    unfold gap? bracketed?
    rw [show "ApproxTerminal(".toList = "ApproxTerminal".toList ++ ['('] from rfl, this]
  have hname := name?_append h (fun y hy => isNameChar_of_ends (ht.ends y hy))
  simp only [readItem, optionKey?_name h.all ht, haction, hliteral, hpattern, hentity, hgap,
    readName, hname, required, within, bind, Except.bind, String.ofList_toList]

/-- A symbol is read as itself. -/
theorem readItem_symbol {s : Symbol} (hs : s.Expressible v) (hclosed : s.Closed) (ht : Parted t) :
    readItem v (s.write ++ t) = .ok (.symbol s, t) := by
  cases s with
  | nonterminal name => exact readItem_nonterminal hs ht
  | literal text =>
      have hhead : ∀ x, ('"' :: escape text.toList ++ '"' :: t).head? = some x → x = '"' :=
        fun x hx => (Option.some.inj hx).symm
      have hkey := optionKey?_of_head (fun x hx => hhead x hx ▸ (by decide))
      have haction := action?_of_head (fun x hx => hhead x hx ▸ (by decide))
      rw [Symbol.write_literal_append]
      simp only [readItem, hkey, haction, literal?_append, String.ofList_toList]
  | pattern terminal =>
      obtain ⟨hcompile, hslash, hline⟩ := hs
      have hhead : ∀ x, ('/' :: terminal.source.toList ++ '/' :: t).head? = some x → x = '/' :=
        fun x hx => (Option.some.inj hx).symm
      have hkey := optionKey?_of_head (fun x hx => hhead x hx ▸ (by decide))
      have haction := action?_of_head (fun x hx => hhead x hx ▸ (by decide))
      have hliteral := literal?_of_head (fun x hx => hhead x hx ▸ (by decide))
      rw [Symbol.write_pattern_append]
      simp only [readItem, hkey, haction, hliteral, pattern?_append hslash hline hclosed, bind,
        Except.bind, String.ofList_toList, hcompile]
  | entity name terminal =>
      obtain ⟨hentity, hname⟩ := hs
      have hhead : ∀ x, ((Symbol.entity name terminal).write ++ t).head? = some x → x = 'E' :=
        fun x hx => (Option.some.inj hx).symm
      have hkey := optionKey?_of_head (fun x hx => hhead x hx ▸ (by decide))
      obtain ⟨haction, hliteral, hpattern⟩ :=
        not_quoted_of_head (fun x hx => hhead x hx ▸ (by decide))
      have hfound : entity? ((Symbol.entity name terminal).write ++ t) = some (name.toList, t) :=
        named?_append "EntityTerminal(" hname t
      simp only [readItem, hkey, haction, hliteral, hpattern, hfound, bind, Except.bind,
        String.ofList_toList, hentity]
  | gap g =>
      obtain ⟨hgap, hname⟩ := hs
      have hhead : ∀ x, ((Symbol.gap g).write ++ t).head? = some x → x = 'A' :=
        fun x hx => (Option.some.inj hx).symm
      have hkey := optionKey?_of_head (fun x hx => hhead x hx ▸ (by decide))
      obtain ⟨haction, hliteral, hpattern⟩ :=
        not_quoted_of_head (fun x hx => hhead x hx ▸ (by decide))
      have hentity : entity? ((Symbol.gap g).write ++ t) = none := by
        unfold entity? bracketed?
        rw [show "EntityTerminal(".toList = 'E' :: "ntityTerminal(".toList from rfl,
          dropPrefix?_of_head (fun x hx => hhead x hx ▸ (by decide))]
      have hfound : gap? ((Symbol.gap g).write ++ t) = some (g.name.toList, t) :=
        named?_append "ApproxTerminal(" hname t
      simp only [readItem, hkey, haction, hliteral, hpattern, hentity, hfound, bind, Except.bind,
        String.ofList_toList, hgap]

theorem solid_writeValue {o : RuleOption} (ho : o.Expressible) : Solid o.writeValue := by
  have hclasses : ∀ list : List String, (list ≠ [] ∧ ∀ c ∈ list, IsRow isNameChar c.toList) →
      Solid (commas String.toList list) := by
    intro list hlist
    cases list with
    | nil => exact absurd rfl hlist.1
    | cons c rest => exact (hlist.2 c (by simp)).solid.append _
  cases o with
  | entity flag =>
      obtain rfl : flag = true := ho
      exact ⟨'t', rfl, by decide⟩
  | weight w => exact ho.elim
  | priority p => exact solid_intText p
  | precedence list =>
      cases list with
      | nil => exact absurd rfl ho.1
      | cons p rest => exact ((ho.2 p (by simp)).1.solid.append _).append _
  | left list => exact hclasses list ho
  | right list => exact hclasses list ho
  | non list => exact hclasses list ho

/-- **An item is read as itself**, and what stands behind it is left. -/
theorem readItem_append {item : Item} (h : item.Expressible v) (ht : Parted t) :
    readItem v (item.write ++ t) = .ok (item, t) := by
  cases item with
  | symbol s => exact readItem_symbol h.1 h.2 ht
  | action a =>
      obtain ⟨haction, hname⟩ := h
      have hkey : optionKey? ((Item.action a).write ++ t) = none := optionKey?_of_head (by
        intro x hx
        obtain rfl := Option.some.inj hx
        decide)
      have hfound : Lexeme.action? ((Item.action a).write ++ t) = some (a.name.toList, t) :=
        action?_append hname t
      simp only [readItem, hkey, hfound, bind, Except.bind, String.ofList_toList, haction]
  | option o =>
      have hwrite : (Item.option o).write ++ t =
          o.key.word.toList ++ (':' :: ' ' :: (o.writeValue ++ t)) := by
        simp [Item.write, RuleOption.write]
      rw [hwrite]
      simp only [readItem, optionKey?_append o.key ((solid_writeValue h).append t),
        readOption_append h ht, bind, Except.bind]

/-! ### No end -/

/-- A name is not the start of a rule, unless an arrow comes next. -/
theorem isRuleStart_name {name : Text} (h : IsName name) (hstop : ∀ x, t.head? = some x →
    isNameChar x = false) (harrow : ∀ x, (dropBlanks t).head? = some x → x ≠ '-') :
    isRuleStart (name ++ t) = false := by
  rw [isRuleStart_append h hstop]
  exact startsWith_of_head harrow ['>']

/-- A name with some sign behind it is not the start of a rule. -/
theorem isRuleStart_sign {name : Text} (h : IsName name) (d : Char) (hd : isNameChar d = false)
    (hblank : isBlank d = false) (harrow : d ≠ '-') (t : Text) :
    isRuleStart (name ++ d :: t) = false := by
  refine isRuleStart_name h (fun x hx => Option.some.inj hx ▸ hd) (fun x hx => ?_)
  rw [Solid.dropBlanks_eq ⟨d, rfl, hblank⟩] at hx
  exact Option.some.inj hx ▸ harrow

theorem isRuleStart_item {item : Item} (h : item.Expressible v) (ht : Parted t) :
    isRuleStart (item.write ++ t) = false := by
  cases item with
  | symbol s =>
      cases s with
      | nonterminal name =>
          exact isRuleStart_name h.1 (fun x hx => isNameChar_of_ends (ht.ends x hx))
            (fun x hx => (ht.next x hx).2.2)
      | literal text =>
          exact isRuleStart_of_head (fun x hx => Option.some.inj hx ▸ by decide)
      | pattern terminal =>
          exact isRuleStart_of_head (fun x hx => Option.some.inj hx ▸ by decide)
      | entity name terminal =>
          have hname : IsName "EntityTerminal".toList := by decide
          exact isRuleStart_sign hname '(' (by decide) (by decide) (by decide) _
      | gap g =>
          have hname : IsName "ApproxTerminal".toList := by decide
          exact isRuleStart_sign hname '(' (by decide) (by decide) (by decide) _
  | action a => exact isRuleStart_of_head (fun x hx => Option.some.inj hx ▸ by decide)
  | option o =>
      have hwrite : (Item.option o).write ++ t =
          o.key.word.toList ++ (':' :: (' ' :: o.writeValue ++ t)) := by
        simp [Item.write, RuleOption.write]
      rw [hwrite]
      exact isRuleStart_sign o.key.isName ':' (by decide) (by decide) (by decide) _

/-- Items begin with characters that items can begin with. -/
theorem opens_write {item : Item} (h : item.Expressible v) :
    ∃ c, item.write.head? = some c ∧ Opens c := by
  have hname : ∀ {w : Text}, IsName w → ∃ c, w.head? = some c ∧ Opens c := fun hw => by
    obtain ⟨c, hc, hstarts⟩ := hw.starts
    exact ⟨c, hc, .of_startsName hstarts⟩
  cases item with
  | symbol s =>
      cases s with
      | nonterminal name => exact hname h.1
      | literal text => exact ⟨'"', rfl, by decide, by decide⟩
      | pattern terminal => exact ⟨'/', rfl, by decide, by decide⟩
      | entity name terminal => exact ⟨'E', rfl, by decide, by decide⟩
      | gap g => exact ⟨'A', rfl, by decide, by decide⟩
  | action a => exact ⟨'\x7b', rfl, by decide, by decide⟩
  | option o =>
      obtain ⟨c, hc, hopens⟩ := hname o.key.isName
      refine ⟨c, ?_, hopens⟩
      show (o.key.word.toList ++ _).head? = some c
      rw [List.head?_append, hc]
      rfl

theorem opening_write {item : Item} (h : item.Expressible v) (t : Text) :
    Opening (item.write ++ t) := by
  obtain ⟨c, hc, hopens⟩ := opens_write h
  intro x hx
  rw [List.head?_append, hc] at hx
  exact Option.some.inj hx ▸ hopens

theorem not_bar_of_opening (h : Opening t) : startsWith t bar = false :=
  startsWith_of_head (d := '|') (fun x hx he => (h x hx).2 (by simp [he])) ['|']

/-- **An item does not end its alternative.** -/
theorem endsAlternative_append {item : Item} (h : item.Expressible v) (ht : Parted t) :
    endsAlternative (item.write ++ t) = false := by
  obtain ⟨c, hc, hopens⟩ := opens_write h
  have hempty : (item.write ++ t).isEmpty = false := by
    rw [List.isEmpty_eq_false_iff]
    intro hnil
    simp [(List.append_eq_nil_iff.1 hnil).1] at hc
  have hbar : startsWith (item.write ++ t) bar = false := not_bar_of_opening (opening_write h t)
  rw [endsAlternative, hempty, hbar, isRuleStart_item h ht]
  rfl

end Source

end ChartParsing
