import ChartParsing.Proofs.Grammar.SymbolTexts

/-!
# What the text of a rule says

The text of a rule that was read says all of the rule but its symbols.  The left side ends at the first space.
The options and the action are the blocks at the end, and no two weights, priorities or classes are written
alike.  Between them is the text of the symbols, which may leave open what they are.

* **`Rule.options_injective`**: options with one text are the same options.
* **`Rule.render_eq_iff`**: rules with one text are alike up to their symbols, which have one text.
-/

namespace ChartParsing

open Lexeme Source Text

/-! ### Lists -/

namespace Text

variable {d : Char} {l l' : List Text}

/-- Words in front of delimiters, each with a space before it. -/
def closed (d : Char) (l : List Text) : Text := l.flatMap (fun w => ' ' :: (w ++ [d]))

theorem apart_closed (d : Char) (l : List Text) : Apart (closed d l) := by
  intro c hc
  cases l with
  | nil => simp [closed] at hc
  | cons w rest => exact (Option.some.inj hc).symm

theorem closed_injective (hd : d ≠ ' ') (hl : ∀ w ∈ l, ¬ [d, ' '] <:+: w)
    (hl' : ∀ w ∈ l', ¬ [d, ' '] <:+: w) (h : closed d l = closed d l') : l = l' := by
  induction l generalizing l' with
  | nil =>
      cases l' with
      | nil => rfl
      | cons w' rest' => simp [closed] at h
  | cons w rest ih =>
      cases l' with
      | nil => simp [closed] at h
      | cons w' rest' =>
          have htail : w ++ d :: closed d rest = w' ++ d :: closed d rest' := by
            simpa [closed] using h
          obtain ⟨rfl, hrest⟩ := eq_of_append_delimiter hd (hl w List.mem_cons_self)
            (hl' w' List.mem_cons_self) (apart_closed d rest) (apart_closed d rest') htail
          exact congrArg (w :: ·) (ih (fun u hu => hl u (List.mem_cons_of_mem w hu))
            (fun u hu => hl' u (List.mem_cons_of_mem w hu)) hrest)

theorem closed_eq_intercalate (hne : l ≠ []) :
    closed d l = ' ' :: ([d, ' '].intercalate l ++ [d]) := by
  induction l with
  | nil => exact absurd rfl hne
  | cons w rest ih =>
      cases rest with
      | nil => simp [closed]
      | cons u rest =>
          have hcons : closed d (w :: u :: rest) = ' ' :: (w ++ d :: closed d (u :: rest)) := by
            simp [closed]
          rw [hcons, ih (by simp)]
          simp

/-- A list of words is told from its text, if the separator is in none of them. -/
theorem intercalate_injective (hd : d ≠ ' ') (hne : l ≠ []) (hne' : l' ≠ [])
    (hl : ∀ w ∈ l, ¬ [d, ' '] <:+: w) (hl' : ∀ w ∈ l', ¬ [d, ' '] <:+: w)
    (h : [d, ' '].intercalate l = [d, ' '].intercalate l') : l = l' := by
  refine closed_injective hd hl hl' ?_
  rw [closed_eq_intercalate hne, closed_eq_intercalate hne', h]

theorem mem_intercalate {separator : Text} {c : Char} (h : c ∈ separator.intercalate l) :
    c ∈ separator ∨ ∃ w ∈ l, c ∈ w := by
  induction l with
  | nil => simp at h
  | cons w rest ih =>
      cases rest with
      | nil => exact .inr ⟨w, List.mem_cons_self, by simpa using h⟩
      | cons u rest =>
          rw [List.intercalate_cons_cons, List.mem_append, List.mem_append] at h
          rcases h with (h | h) | h
          · exact .inr ⟨w, List.mem_cons_self, h⟩
          · exact .inl h
          · exact (ih h).imp_right (fun ⟨w', hw', hc⟩ => ⟨w', List.mem_cons_of_mem w hw', hc⟩)

end Text

namespace Source.OptionKey

/-- An option with this key. -/
def text (key : OptionKey) (value : String) : String := key.word ++ ": " ++ value

theorem toList_text (key : OptionKey) (value : String) :
    (key.text value).toList = (key.word.toList ++ [':']) ++ ' ' :: value.toList := by
  simp [text]

theorem text_injective {key key' : OptionKey} {value value' : String}
    (h : key.text value = key'.text value') : key = key' ∧ value = value' := by
  have htext := congrArg String.toList h
  rw [toList_text, toList_text] at htext
  have hkey : key = key' := by
    refine eq_of_head? ?_
    have hhead := congrArg List.head? htext
    obtain ⟨c, -, w, hw⟩ := key.exists_word
    obtain ⟨c', -, w', hw'⟩ := key'.exists_word
    rw [hw, hw'] at hhead ⊢
    exact hhead
  subst hkey
  refine ⟨rfl, String.toList_inj.1 ?_⟩
  exact (List.cons.inj (List.append_cancel_left htext)).2

/-- In an option there is no comma with a space. -/
theorem not_isInfix_text {key : OptionKey} {value : String} (h : ' ' ∉ value.toList) :
    ¬ [',', ' '] <:+: (key.text value).toList := by
  rintro ⟨front, back, hsplit⟩
  have hword : ' ' ∉ key.word.toList ++ [':'] := by
    cases key <;> decide
  have hparts : (front ++ [',']) ++ ' ' :: back = (key.word.toList ++ [':']) ++ ' ' :: value.toList := by
    rw [← toList_text, ← hsplit]
    simp
  have hfront := ((List.append_cons_inj_of_notMem hword h).1 hparts.symm).1
  have hlast := congrArg List.getLast? hfront
  rw [List.getLast?_concat, List.getLast?_concat] at hlast
  exact absurd hlast (by decide)

theorem bracket_not_mem_text {key : OptionKey} {value : String} (h : '[' ∉ value.toList) :
    '[' ∉ (key.text value).toList := by
  rw [toList_text]
  have hword : '[' ∉ key.word.toList ++ [':'] := by
    cases key <;> decide
  simp only [List.mem_append, List.mem_cons, not_or] at hword ⊢
  exact ⟨hword, by decide, h⟩

end Source.OptionKey

namespace Rule

variable {v : Vocabulary} {q r : Rule}

/-! ### Options -/

/-- A list of classes, if there are any. -/
def listed (list : List String) : Option String :=
  if list.isEmpty then none else some (String.intercalate "," list)

/-- A class with its precedence. -/
def precedenceText (p : String × Int) : String := p.1 ++ ":" ++ Decimal.intText p.2

/-- What the text of a rule shows for a key. -/
def shown? (r : Rule) : OptionKey → Option String
  | .entity => if r.entity then some "true" else none
  | .weight => if r.weight != 1.0 then some (Decimal.plain.write r.weight) else none
  | .priority => r.priority.map Decimal.intText
  | .precedence => listed (r.operators.precedence.map precedenceText)
  | .left => listed r.operators.left
  | .right => listed r.operators.right
  | .non => listed r.operators.non

theorem options_eq (r : Rule) :
    r.options = OptionKey.all.filterMap (fun key => (r.shown? key).map key.text) := by
  have happend {a a' b b' : List String} (ha : a = a') (hb : b = b') : a ++ b = a' ++ b' := by
    rw [ha, hb]
  have hentity : (if r.entity then ["entity: true"] else []) =
      ((r.shown? .entity).map OptionKey.entity.text).toList := by
    unfold shown?
    split <;> rfl
  have hweight : (if r.weight != 1.0 then ["weight: " ++ Decimal.plain.write r.weight] else []) =
      ((r.shown? .weight).map OptionKey.weight.text).toList := by
    unfold shown?
    split <;> rfl
  have hprecedence : (if r.operators.precedence.isEmpty then []
        else ["opPrecedence: " ++ String.intercalate "," (r.operators.precedence.map precedenceText)]) =
      ((r.shown? .precedence).map OptionKey.precedence.text).toList := by
    unfold shown? listed
    cases r.operators.precedence <;> rfl
  have hclasses (key : OptionKey) (list : List String) :
      options.classes key.word list = ((listed list).map key.text).toList := by
    unfold options.classes listed
    split <;> rfl
  have hparts : r.options =
      ((r.shown? .entity).map OptionKey.entity.text).toList ++
        ((r.shown? .weight).map OptionKey.weight.text).toList ++
        ((r.shown? .priority).map OptionKey.priority.text).toList ++
        ((r.shown? .precedence).map OptionKey.precedence.text).toList ++
        ((r.shown? .left).map OptionKey.left.text).toList ++
        ((r.shown? .right).map OptionKey.right.text).toList ++
        ((r.shown? .non).map OptionKey.non.text).toList := by
    refine happend (happend (happend (happend (happend (happend hentity hweight) ?_) hprecedence)
      (hclasses .left r.operators.left)) (hclasses .right r.operators.right))
      (hclasses .non r.operators.non)
    unfold shown?
    cases r.priority <;> rfl
  rw [hparts, List.filterMap_eq_flatMap_toList]
  simp [OptionKey.all]

theorem mem_options_iff {t : String} :
    t ∈ r.options ↔ ∃ key value, r.shown? key = some value ∧ t = key.text value := by
  rw [options_eq, List.mem_filterMap]
  constructor
  · rintro ⟨key, -, htext⟩
    obtain ⟨value, hvalue, rfl⟩ := Option.map_eq_some_iff.1 htext
    exact ⟨key, value, hvalue, rfl⟩
  · rintro ⟨key, value, hvalue, rfl⟩
    exact ⟨key, by cases key <;> decide, by rw [hvalue]; rfl⟩

/-- From its options it is seen what a rule shows for each key. -/
theorem shown?_eq_of_options (h : q.options = r.options) (key : OptionKey) :
    q.shown? key = r.shown? key := by
  have hsome {q r : Rule} (h : q.options = r.options) {value : String}
      (hvalue : q.shown? key = some value) : r.shown? key = some value := by
    obtain ⟨key', value', hvalue', htext⟩ :=
      mem_options_iff.1 (h ▸ mem_options_iff.2 ⟨key, value, hvalue, rfl⟩)
    obtain ⟨rfl, rfl⟩ := OptionKey.text_injective htext
    exact hvalue'
  exact Option.ext fun value => ⟨hsome h, hsome h.symm⟩

/-! ### Values -/

/-- The characters of values. -/
def IsValueChar (c : Char) : Prop := isActionChar c = true ∨ c = ','

theorem isValueChar_of_listed {list : List String} {value : String} {c : Char}
    (hlist : ∀ w ∈ list, ∀ c ∈ w.toList, isActionChar c = true) (h : listed list = some value)
    (hc : c ∈ value.toList) : IsValueChar c := by
  unfold listed at h
  split at h
  · simp at h
  · obtain rfl := Option.some.inj h
    rw [String.toList_intercalate] at hc
    rcases mem_intercalate hc with hcomma | ⟨w, hw, hc⟩
    · exact .inr (by simpa using hcomma)
    · obtain ⟨name, hname, rfl⟩ := List.mem_map.1 hw
      exact .inl (hlist name hname c hc)

theorem isActionChar_of_mem_class {c : Char} {w : String} (hw : IsRow isNameChar w.toList)
    (hc : c ∈ w.toList) : isActionChar c = true :=
  isActionChar_of_isEntityChar (isEntityChar_of_isNameChar (hw.all c hc))

/-- There are no spaces and no brackets in values. -/
theorem isValueChar_of_shown? (hr : r.Loaded v) {key : OptionKey} {value : String} {c : Char}
    (h : r.shown? key = some value) (hc : c ∈ value.toList) : IsValueChar c := by
  have hclasses {list : List String} (hlist : ∀ w ∈ list, IsRow isNameChar w.toList)
      (h : listed list = some value) : IsValueChar c :=
    isValueChar_of_listed (fun w hw c hc => isActionChar_of_mem_class (hlist w hw) hc) h hc
  unfold shown? at h
  cases key with
  | entity =>
      dsimp only at h
      split at h
      · obtain rfl := Option.some.inj h
        have htrue : "true".toList.all isActionChar = true := by decide
        exact .inl (List.all_eq_true.1 htrue c hc)
      · simp at h
  | weight =>
      dsimp only at h
      split at h
      · obtain rfl := Option.some.inj h
        exact .inl (Decimal.isActionChar_of_mem_write hc)
      · simp at h
  | priority =>
      obtain ⟨p, -, rfl⟩ := Option.map_eq_some_iff.1 h
      exact .inl (isActionChar_of_isEntityChar (Decimal.isEntityChar_of_mem_intText hc))
  | precedence =>
      refine isValueChar_of_listed (fun w hw c hc => ?_) h hc
      obtain ⟨p, hp, rfl⟩ := List.mem_map.1 hw
      simp only [precedenceText, String.toList_append, List.mem_append] at hc
      rcases hc with (hc | hc) | hc
      · exact isActionChar_of_mem_class (hr.operators.precedence p hp) hc
      · obtain rfl : c = ':' := by simpa using hc
        decide
      · exact isActionChar_of_isEntityChar (Decimal.isEntityChar_of_mem_intText hc)
  | left => exact hclasses hr.operators.left h
  | right => exact hclasses hr.operators.right h
  | non => exact hclasses hr.operators.non h

theorem listed_injective {list list' : List String} (hlist : ∀ w ∈ list, ',' ∉ w.toList)
    (hlist' : ∀ w ∈ list', ',' ∉ w.toList) (h : listed list = listed list') : list = list' := by
  have hsplit {list : List String} (hne : list ≠ []) (hlist : ∀ w ∈ list, ',' ∉ w.toList) :
      (String.intercalate "," list).toList.splitOn ',' = list.map String.toList := by
    rw [String.toList_intercalate]
    refine List.splitOn_intercalate ',' ?_ (by simpa using hne)
    simpa using hlist
  cases list with
  | nil =>
      cases list' with
      | nil => rfl
      | cons w' rest' => simp [listed] at h
  | cons w rest =>
      cases list' with
      | nil => simp [listed] at h
      | cons w' rest' =>
          have htext := Option.some.inj h
          refine List.map_injective_iff.2 (fun _ _ => String.toList_inj.1) ?_
          rw [← hsplit (by simp) hlist, ← hsplit (by simp) hlist', htext]

theorem precedenceText_injective : Function.Injective precedenceText := by
  intro p p' h
  have hcolon (value : Int) : ':' ∉ (Decimal.intText value).toList := by
    intro hmem
    exact absurd (Decimal.isEntityChar_of_mem_intText hmem) (by decide)
  have htext := congrArg String.toList h
  simp only [precedenceText, String.toList_append, List.append_assoc] at htext
  obtain ⟨hclass, hvalue⟩ := eq_of_append_opening (hcolon p.2) (hcolon p'.2) htext
  exact Prod.ext (String.toList_inj.1 hclass) (Decimal.intText_injective (String.toList_inj.1 hvalue))

theorem comma_not_mem_class {w : String} (hw : IsRow isNameChar w.toList) : ',' ∉ w.toList := by
  intro hmem
  exact absurd (hw.all ',' hmem) (by decide)

theorem comma_not_mem_precedence {o : Operators} (ho : o.Loaded) :
    ∀ w ∈ o.precedence.map precedenceText, ',' ∉ w.toList := by
  intro w hw hmem
  obtain ⟨p, hp, rfl⟩ := List.mem_map.1 hw
  simp only [precedenceText, String.toList_append, List.mem_append] at hmem
  rcases hmem with (hmem | hmem) | hmem
  · exact comma_not_mem_class (ho.precedence p hp) hmem
  · simp at hmem
  · exact absurd (Decimal.isEntityChar_of_mem_intText hmem) (by decide)

/-- The weight that is left out is one. -/
theorem weight_eq (h : q.shown? .weight = r.shown? .weight) : q.weight = r.weight := by
  have hone {x : Float} (hx : ¬ (x != 1.0) = true) : x = 1.0 :=
    Binary.eq_one_of_beq (by simpa only [bne, Bool.not_eq_true', Bool.not_eq_false] using hx)
  unfold shown? at h
  dsimp only at h
  split at h
  · split at h
    · exact Decimal.write_injective (Option.some.inj h)
    · simp at h
  · next hq =>
    split at h
    · simp at h
    · next hr => rw [hone hq, hone hr]

/-- **Options with one text** are the same options. -/
theorem options_injective (hq : q.Loaded v) (hr : r.Loaded v) (h : q.options = r.options) :
    q.entity = r.entity ∧ q.weight = r.weight ∧ q.priority = r.priority ∧ q.operators = r.operators := by
  have hshown := shown?_eq_of_options h
  have hclasses {list list' : List String} (hlist : ∀ w ∈ list, IsRow isNameChar w.toList)
      (hlist' : ∀ w ∈ list', IsRow isNameChar w.toList) (h : listed list = listed list') :
      list = list' :=
    listed_injective (fun w hw => comma_not_mem_class (hlist w hw))
      (fun w hw => comma_not_mem_class (hlist' w hw)) h
  refine ⟨?_, ?_, ?_, ?_⟩
  · have hentity := hshown .entity
    unfold shown? at hentity
    cases hqe : q.entity <;> cases hre : r.entity <;> simp [hqe, hre] at hentity ⊢
  · exact weight_eq (hshown .weight)
  · exact Option.map_injective Decimal.intText_injective (hshown .priority)
  · have hprecedence : q.operators.precedence = r.operators.precedence := by
      refine List.map_injective_iff.2 precedenceText_injective ?_
      exact listed_injective (comma_not_mem_precedence hq.operators)
        (comma_not_mem_precedence hr.operators) (hshown .precedence)
    have hleft := hclasses hq.operators.left hr.operators.left (hshown .left)
    have hright := hclasses hq.operators.right hr.operators.right (hshown .right)
    have hnon := hclasses hq.operators.non hr.operators.non (hshown .non)
    show (⟨_, _, _, _⟩ : Operators) = ⟨_, _, _, _⟩
    rw [hprecedence, hleft, hright, hnon]

/-! ### Rules -/

/-- The rules differ in their symbols at most, and these have one text. -/
structure Alike (q r : Rule) : Prop where
  others : q = { r with rhs := q.rhs }
  symbols : Symbol.row q.rhs = Symbol.row r.rhs

/-- What stands in the block of the action, if there is one. -/
def shownAction? (r : Rule) : Option Text :=
  r.action.map (fun a => "% ".toList ++ a.name.toList ++ " %".toList)

/-- What stands in the block of the options, if there is one. -/
def shownOptions? (r : Rule) : Option Text :=
  if r.options.isEmpty then none else some ([',', ' '].intercalate (r.options.map String.toList))

theorem toList_render (r : Rule) :
    r.render.toList =
      r.lhs.toList ++ (" ->".toList ++ (Symbol.row r.rhs).toList ++
        block '\x7b' '\x7d' r.shownAction? ++ block '[' ']' r.shownOptions?) := by
  have hoptions : (if r.options.isEmpty then "" else " [" ++ String.intercalate ", " r.options ++ "]").toList
      = block '[' ']' r.shownOptions? := by
    unfold shownOptions?
    cases r.options.isEmpty <;> simp [block]
  unfold render
  rw [String.toList_append, hoptions]
  unfold shownAction?
  cases r.action <;> simp [block, Symbol.row]

theorem Alike.render_eq (h : q.Alike r) : q.render = r.render := by
  refine String.toList_inj.1 ?_
  rw [toList_render, toList_render, h.symbols, h.others]
  rfl

/-! ### Ends of blocks -/

theorem getLast?_arrow (hr : r.Loaded v) {closing : Char} (hclosing : closing = '\x7d' ∨ closing = ']') :
    (" ->".toList ++ (Symbol.row r.rhs).toList).getLast? ≠ some closing := by
  obtain ⟨hbrace, hbracket⟩ := Symbol.getLast?_row hr.symbols
  rw [List.getLast?_append]
  cases hlast : (Symbol.row r.rhs).toList.getLast? with
  | none => rcases hclosing with rfl | rfl <;> decide
  | some c =>
      rw [hlast] at hbrace hbracket
      rcases hclosing with rfl | rfl
      · exact hbrace
      · exact hbracket

theorem getLast?_action (hr : r.Loaded v) :
    (" ->".toList ++ (Symbol.row r.rhs).toList ++ block '\x7b' '\x7d' r.shownAction?).getLast? ≠
      some ']' := by
  cases r.shownAction? with
  | none =>
      rw [block, List.append_nil]
      exact getLast?_arrow hr (.inr rfl)
  | some w =>
      rw [block, ← List.cons_append, ← List.cons_append, ← List.append_assoc,
        List.getLast?_concat]
      decide

theorem brace_not_mem_action (hr : r.Loaded v) : ∀ w ∈ r.shownAction?, '\x7b' ∉ w := by
  intro w hw hmem
  obtain ⟨a, ha, rfl⟩ := Option.map_eq_some_iff.1 hw
  simp only [List.mem_append] at hmem
  rcases hmem with (hmem | hmem) | hmem
  · exact absurd hmem (by decide)
  · exact absurd ((hr.action a ha).2.all _ hmem) (by decide)
  · exact absurd hmem (by decide)

theorem value_of_mem_options (hr : r.Loaded v) {w : Text} (hw : w ∈ r.options.map String.toList) :
    ¬ [',', ' '] <:+: w ∧ '[' ∉ w := by
  obtain ⟨t, ht, rfl⟩ := List.mem_map.1 hw
  obtain ⟨key, value, hvalue, rfl⟩ := mem_options_iff.1 ht
  constructor
  · refine OptionKey.not_isInfix_text (fun hmem => ?_)
    exact absurd (isValueChar_of_shown? hr hvalue hmem) (by unfold IsValueChar; decide)
  · refine OptionKey.bracket_not_mem_text (fun hmem => ?_)
    exact absurd (isValueChar_of_shown? hr hvalue hmem) (by unfold IsValueChar; decide)

theorem bracket_not_mem_options (hr : r.Loaded v) : ∀ w ∈ r.shownOptions?, '[' ∉ w := by
  intro w hw hmem
  obtain ⟨-, htext⟩ := Option.ite_none_left_eq_some.1 hw
  obtain rfl := Option.some.inj htext
  rcases mem_intercalate hmem with hmem | ⟨w, hw, hmem⟩
  · exact absurd hmem (by decide)
  · exact (value_of_mem_options hr hw).2 hmem

/-! ### Rules with one text -/

theorem action_eq (hq : q.Loaded v) (hr : r.Loaded v) (h : q.shownAction? = r.shownAction?) :
    q.action = r.action := by
  unfold shownAction? at h
  cases hqa : q.action with
  | none =>
      cases hra : r.action with
      | none => rfl
      | some b => simp [hqa, hra] at h
  | some a =>
      cases hra : r.action with
      | none => simp [hqa, hra] at h
      | some b =>
          have hname : a.name = b.name := String.toList_inj.1 (by simpa [hqa, hra] using h)
          have haction := (hq.action a hqa).1
          rw [hname, (hr.action b hra).1] at haction
          exact congrArg some (Except.ok.inj haction).symm

theorem options_eq_of_shown (hq : q.Loaded v) (hr : r.Loaded v) (h : q.shownOptions? = r.shownOptions?) :
    q.options = r.options := by
  unfold shownOptions? at h
  split at h
  · next hqe =>
    split at h
    · next hre => rw [List.isEmpty_iff.1 hqe, List.isEmpty_iff.1 hre]
    · simp at h
  · next hqe =>
    split at h
    · simp at h
    · next hre =>
      refine List.map_injective_iff.2 (fun _ _ => String.toList_inj.1) ?_
      exact intercalate_injective (by decide) (by simpa using hqe) (by simpa using hre)
        (fun w hw => (value_of_mem_options hq hw).1) (fun w hw => (value_of_mem_options hr hw).1)
        (Option.some.inj h)

/-- **Rules with one text** are alike. -/
theorem alike_of_render (hq : q.Loaded v) (hr : r.Loaded v) (h : q.render = r.render) : q.Alike r := by
  have hspace {r : Rule} (hr : r.Loaded v) : ' ' ∉ r.lhs.toList := by
    intro hmem
    exact absurd (hr.lhs.all ' ' hmem) (by decide)
  have hapart (t : Text) : Apart (" ->".toList ++ t) := fun c hc => (Option.some.inj hc).symm
  have htext := congrArg String.toList h
  rw [toList_render, toList_render] at htext
  simp only [List.append_assoc] at htext
  obtain ⟨hlhs, htext⟩ := eq_of_append_word (hspace hq) (hspace hr) (hapart _) (hapart _) htext
  simp only [← List.append_assoc] at htext
  obtain ⟨htext, hoptions⟩ := eq_of_append_block (getLast?_action hq) (getLast?_action hr)
    (bracket_not_mem_options hq) (bracket_not_mem_options hr) htext
  obtain ⟨htext, haction⟩ := eq_of_append_block (getLast?_arrow hq (.inl rfl))
    (getLast?_arrow hr (.inl rfl)) (brace_not_mem_action hq) (brace_not_mem_action hr) htext
  obtain ⟨hentity, hweight, hpriority, hoperators⟩ :=
    options_injective hq hr (options_eq_of_shown hq hr hoptions)
  refine ⟨?_, String.toList_inj.1 (List.append_cancel_left htext)⟩
  show (⟨_, _, _, _, _, _, _⟩ : Rule) = ⟨_, _, _, _, _, _, _⟩
  rw [String.toList_inj.1 hlhs, action_eq hq hr haction, hweight, hpriority, hentity, hoperators]

/-- Alike rules are the same if their symbols are. -/
theorem Alike.eq (h : q.Alike r) (hrhs : q.rhs = r.rhs) : q = r := by
  rw [h.others, hrhs]

/-- **The text says all but the symbols.** -/
theorem render_eq_iff (hq : q.Loaded v) (hr : r.Loaded v) : q.render = r.render ↔ q.Alike r :=
  ⟨alike_of_render hq hr, Alike.render_eq⟩

end Rule

end ChartParsing
