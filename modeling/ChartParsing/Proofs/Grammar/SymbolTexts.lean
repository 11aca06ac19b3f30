import ChartParsing.Proofs.Decimal.Texts
import ChartParsing.Proofs.Grammar.Loaded

/-!
# What the text of symbols says

Where a name ends can be seen from the space behind it.  A literal or a pattern is written without escapes, so
its end is in sight only if it does not look like the end before (`Symbol.Sealed`): the literal `a" "b` is
written like the literals `a` and `b`.

* **`Text.eq_of_append_word`**, `eq_of_append_delimiter`, `eq_of_append_block`: words, quoted texts and blocks
  in brackets are parted from the text around them.
* **`Symbol.eq_of_render_append`**: a symbol is told apart from all others if its end is in sight.
* **`Symbol.row_injective`**: so are rows of such symbols.
-/

namespace ChartParsing

open Lexeme Source

/-! ### Ends of words -/

namespace Text

variable {w w' t t' a a' b b' : Text} {c d : Char}

/-- Nothing is left, or a space comes next. -/
def Apart (t : Text) : Prop := ∀ c, t.head? = some c → c = ' '

/-- A word without spaces ends where the first space is. -/
theorem eq_of_append_word (hw : ' ' ∉ w) (hw' : ' ' ∉ w') (ht : Apart t) (ht' : Apart t')
    (h : w ++ t = w' ++ t') : w = w' ∧ t = t' := by
  have hnil {t t' more : Text} (ht : Apart t) (hmore : ' ' ∉ more) (h : t = more ++ t') :
      more = [] := by
    cases more with
    | nil => rfl
    | cons x xs =>
        obtain rfl := ht x (by rw [h]; rfl)
        exact absurd List.mem_cons_self hmore
  rcases List.append_eq_append_iff.1 h with ⟨more, rfl, hsplit⟩ | ⟨more, rfl, hsplit⟩
  · obtain rfl := hnil ht (fun hx => hw' (List.mem_append_right w hx)) hsplit
    exact ⟨(List.append_nil w).symm, hsplit⟩
  · obtain rfl := hnil ht' (fun hx => hw (List.mem_append_right w' hx)) hsplit
    exact ⟨List.append_nil w', hsplit.symm⟩

/-- A word in front of a delimiter ends there, if the delimiter and a space stand nowhere in it. -/
theorem eq_of_append_delimiter (hd : d ≠ ' ') (hw : ¬ [d, ' '] <:+: w) (hw' : ¬ [d, ' '] <:+: w')
    (ht : Apart t) (ht' : Apart t') (h : w ++ d :: t = w' ++ d :: t') : w = w' ∧ t = t' := by
  have hnil {w t t' more : Text} (ht : Apart t) (hmore : ¬ [d, ' '] <:+: w ++ more)
      (h : d :: t = more ++ d :: t') : more = [] := by
    cases more with
    | nil => rfl
    | cons x xs =>
        obtain ⟨rfl, htail⟩ := List.cons.inj h
        cases xs with
        | nil => exact absurd (ht d (by rw [htail]; rfl)) hd
        | cons y ys =>
            obtain rfl := ht y (by rw [htail]; rfl)
            exact absurd ⟨w, ys, by simp⟩ hmore
  rcases List.append_eq_append_iff.1 h with ⟨more, rfl, hsplit⟩ | ⟨more, rfl, hsplit⟩
  · obtain rfl := hnil ht hw' hsplit
    exact ⟨(List.append_nil w).symm, (List.cons.inj hsplit).2⟩
  · obtain rfl := hnil ht' hw hsplit
    exact ⟨List.append_nil w', (List.cons.inj hsplit).2.symm⟩

/-- Texts are parted where a character stands for the last time. -/
theorem eq_of_append_opening (hb : c ∉ b) (hb' : c ∉ b') (h : a ++ c :: b = a' ++ c :: b') :
    a = a' ∧ b = b' := by
  have hnil {b b' more : Text} (hb : c ∉ b) (h : c :: b = more ++ c :: b') : more = [] := by
    cases more with
    | nil => rfl
    | cons x xs =>
        obtain ⟨-, rfl⟩ := List.cons.inj h
        exact absurd (List.mem_append_right xs List.mem_cons_self) hb
  rcases List.append_eq_append_iff.1 h with ⟨more, rfl, hsplit⟩ | ⟨more, rfl, hsplit⟩
  · obtain rfl := hnil hb hsplit
    exact ⟨(List.append_nil a).symm, (List.cons.inj hsplit).2⟩
  · obtain rfl := hnil hb' hsplit
    exact ⟨List.append_nil a', (List.cons.inj hsplit).2.symm⟩

/-- A text between brackets behind a space, or nothing. -/
def block (opening closing : Char) : Option Text → Text
  | none => []
  | some w => ' ' :: opening :: (w ++ [closing])

/-- Whether a block stands at the end, and where it begins, can be seen. -/
theorem eq_of_append_block {opening closing : Char} {o o' : Option Text}
    (ha : a.getLast? ≠ some closing) (ha' : a'.getLast? ≠ some closing)
    (ho : ∀ w ∈ o, opening ∉ w) (ho' : ∀ w ∈ o', opening ∉ w)
    (h : a ++ block opening closing o = a' ++ block opening closing o') : a = a' ∧ o = o' := by
  have hlast (a w : Text) : (a ++ block opening closing (some w)).getLast? = some closing := by
    rw [block, ← List.cons_append, ← List.cons_append, ← List.append_assoc, List.getLast?_concat]
  cases o with
  | none =>
      cases o' with
      | none => exact ⟨by simpa [block] using h, rfl⟩
      | some w' =>
          rw [block, List.append_nil] at h
          exact absurd (h ▸ hlast a' w') ha
  | some w =>
      cases o' with
      | none =>
          rw [block.eq_1, List.append_nil] at h
          exact absurd (h ▸ hlast a w) ha'
      | some w' =>
          have hassoc (a w : Text) : a ++ block opening closing (some w) =
              ((a ++ [' ']) ++ opening :: w) ++ [closing] := by simp [block]
          rw [hassoc, hassoc] at h
          obtain ⟨hfront, rfl⟩ :=
            eq_of_append_opening (ho w rfl) (ho' w' rfl) (List.append_cancel_right h)
          exact ⟨List.append_cancel_right hfront, rfl⟩

end Text

open Text

variable {v : Vocabulary}

/-! ### Symbols -/

namespace Symbol

variable {s s' : Symbol} {t t' : Text}

/-- The end of the symbol's text does not look as if it came before. -/
def Sealed : Symbol → Prop
  | .literal text => ¬ ['"', ' '] <:+: text.toList
  | .pattern t => ¬ ['/', ' '] <:+: t.source.toList
  | _ => True

instance : (s : Symbol) → Decidable s.Sealed
  | .nonterminal _ => isTrue trivial
  | .literal text => inferInstanceAs (Decidable (¬ ['"', ' '] <:+: text.toList))
  | .pattern t => inferInstanceAs (Decidable (¬ ['/', ' '] <:+: t.source.toList))
  | .entity _ _ => isTrue trivial
  | .gap _ => isTrue trivial

/-- The characters that a symbol's text may start with. -/
def StartsWith (c : Char) : Symbol → Prop
  | .literal _ => c = '"'
  | .pattern _ => c = '/'
  | _ => startsName c = true

theorem toList_render_literal (text : String) :
    (literal text).render.toList = '"' :: (text.toList ++ ['"']) := by
  show ("\"" ++ text ++ "\"").toList = _
  simp

theorem toList_render_entity (name : String) (terminal : PatternTerminal) :
    (entity name terminal).render.toList = "EntityTerminal(".toList ++ (name.toList ++ [')']) := by
  show ("EntityTerminal(" ++ name ++ ")").toList = _
  simp

theorem toList_render_gap (g : Gap) :
    (gap g).render.toList = "ApproxTerminal(".toList ++ (g.name.toList ++ [')']) := by
  show ("ApproxTerminal(" ++ g.name ++ ")").toList = _
  simp

theorem toList_render_pattern {t : PatternTerminal}
    (h : PatternTerminal.compile t.source false .anywhere = .ok t) :
    (pattern t).render.toList = '/' :: (t.source.toList ++ ['/']) := by
  have hoptions : t.caseInsensitive = false ∧ t.boundary = .anywhere := by
    unfold PatternTerminal.compile at h
    split at h
    · obtain heq := Except.ok.inj h
      exact ⟨by rw [← heq], by rw [← heq]⟩
    · simp at h
  show (PatternTerminal.render t).toList = _
  unfold PatternTerminal.render
  rw [hoptions.1, hoptions.2]
  simp [Boundary.isAnywhere]

/-- The first character says of which sort a symbol is. -/
theorem exists_startsWith (hs : s.Loaded v) (t : Text) :
    ∃ c, (s.render.toList ++ t).head? = some c ∧ s.StartsWith c := by
  cases s with
  | nonterminal name =>
      obtain ⟨c, hc, hstarts⟩ := IsName.starts hs
      exact ⟨c, by rw [List.head?_append, show (nonterminal name).render = name from rfl, hc]; rfl,
        hstarts⟩
  | literal text => exact ⟨'"', by rw [toList_render_literal]; rfl, rfl⟩
  | pattern terminal => exact ⟨'/', by rw [toList_render_pattern hs]; rfl, rfl⟩
  | entity name terminal =>
      exact ⟨'E', by rw [toList_render_entity]; rfl, show startsName 'E' = true by decide⟩
  | gap g => exact ⟨'A', by rw [toList_render_gap]; rfl, show startsName 'A' = true by decide⟩

/-- The symbol is written with a name. -/
def IsNamed : Symbol → Prop
  | .literal _ | .pattern _ => False
  | _ => True

theorem space_not_mem_of_isNamed (hs : s.Loaded v) (hnamed : s.IsNamed) : ' ' ∉ s.render.toList := by
  have hchar {p : Char → Bool} {w : Text} (hw : ∀ x ∈ w, p x = true) (hp : p ' ' = false) :
      ' ' ∉ w := by
    intro h
    exact absurd (hw ' ' h) (by simp [hp])
  cases s with
  | nonterminal name => exact hchar (IsName.all hs) (by decide)
  | literal _ => exact hnamed.elim
  | pattern _ => exact hnamed.elim
  | entity name terminal =>
      have hname := hchar (IsRow.all hs.2) (by decide)
      simpa [toList_render_entity] using hname
  | gap g =>
      have hname := hchar (IsRow.all hs.2) (by decide)
      simpa [toList_render_gap] using hname

/-- Names are told apart, also those of different sorts. -/
theorem eq_of_render_named (hs : s.Loaded v) (hs' : s'.Loaded v) (hnamed : s.IsNamed)
    (hnamed' : s'.IsNamed) (h : s.render = s'.render) : s = s' := by
  have hbracket {name : String} (hname : IsName name.toList) : '(' ∉ name.toList := by
    intro hmem
    exact absurd (hname.all '(' hmem) (by decide)
  have happart {name : String} {terminal : PatternTerminal} {g : Gap}
      (h : (entity name terminal).render = (gap g).render) : False := by
    have hhead := congrArg (fun x : String => x.toList.head?) h
    simp only [toList_render_entity, toList_render_gap] at hhead
    exact absurd (Option.some.inj hhead) (by decide)
  cases s with
  | nonterminal name =>
      cases s' with
      | nonterminal name' => exact congrArg nonterminal h
      | literal _ => exact hnamed'.elim
      | pattern _ => exact hnamed'.elim
      | entity name' _ =>
          refine absurd ?_ (hbracket hs)
          rw [show name = "EntityTerminal(" ++ name' ++ ")" from h]
          simp
      | gap g =>
          refine absurd ?_ (hbracket hs)
          rw [show name = "ApproxTerminal(" ++ g.name ++ ")" from h]
          simp
  | literal _ => exact hnamed.elim
  | pattern _ => exact hnamed.elim
  | entity name _ =>
      cases s' with
      | nonterminal name' =>
          refine absurd ?_ (hbracket hs')
          rw [show name' = "EntityTerminal(" ++ name ++ ")" from h.symm]
          simp
      | literal _ => exact hnamed'.elim
      | pattern _ => exact hnamed'.elim
      | entity name' _ =>
          have hname : name.toList = name'.toList := by
            simpa [toList_render_entity] using congrArg String.toList h
          obtain rfl := String.toList_inj.1 hname
          exact Except.ok.inj (hs.1.symm.trans hs'.1)
      | gap g => exact (happart h).elim
  | gap g =>
      cases s' with
      | nonterminal name' =>
          refine absurd ?_ (hbracket hs')
          rw [show name' = "ApproxTerminal(" ++ g.name ++ ")" from h.symm]
          simp
      | literal _ => exact hnamed'.elim
      | pattern _ => exact hnamed'.elim
      | entity name' _ => exact (happart h.symm).elim
      | gap g' =>
          have hname : g.name.toList = g'.name.toList := by
            simpa [toList_render_gap] using congrArg String.toList h
          exact Except.ok.inj (hs.1.symm.trans (String.toList_inj.1 hname ▸ hs'.1))

theorem isNamed_iff {c : Char} (h : s.StartsWith c) : s.IsNamed ↔ startsName c = true := by
  cases s with
  | nonterminal _ => exact ⟨fun _ => h, fun _ => trivial⟩
  | literal _ =>
      obtain rfl : c = '"' := h
      exact ⟨False.elim, fun hstarts => absurd hstarts (by decide)⟩
  | pattern _ =>
      obtain rfl : c = '/' := h
      exact ⟨False.elim, fun hstarts => absurd hstarts (by decide)⟩
  | entity _ _ => exact ⟨fun _ => h, fun _ => trivial⟩
  | gap _ => exact ⟨fun _ => h, fun _ => trivial⟩

/-- **A symbol is told apart** in front of a space or the end. -/
theorem eq_of_render_append (hs : s.Loaded v) (hs' : s'.Loaded v) (hsealed : s.Sealed)
    (hsealed' : s'.Sealed) (ht : Apart t) (ht' : Apart t')
    (h : s.render.toList ++ t = s'.render.toList ++ t') : s = s' ∧ t = t' := by
  obtain ⟨c, hc, hstarts⟩ := exists_startsWith hs t
  obtain ⟨c', hc', hstarts'⟩ := exists_startsWith hs' t'
  obtain rfl : c = c' := Option.some.inj (hc.symm.trans (h ▸ hc'))
  have hnamed_iff : s.IsNamed ↔ s'.IsNamed :=
    (isNamed_iff hstarts).trans (isNamed_iff hstarts').symm
  by_cases hnamed : s.IsNamed
  · have hnamed' := hnamed_iff.1 hnamed
    obtain ⟨hrender, rfl⟩ := eq_of_append_word (space_not_mem_of_isNamed hs hnamed)
      (space_not_mem_of_isNamed hs' hnamed') ht ht' h
    exact ⟨eq_of_render_named hs hs' hnamed hnamed' (String.toList_inj.1 hrender), rfl⟩
  · have hnamed' := mt hnamed_iff.2 hnamed
    cases s with
    | nonterminal _ => exact absurd trivial hnamed
    | entity _ _ => exact absurd trivial hnamed
    | gap _ => exact absurd trivial hnamed
    | literal text =>
        obtain rfl : c = '"' := hstarts
        cases s' with
        | nonterminal _ => exact absurd trivial hnamed'
        | entity _ _ => exact absurd trivial hnamed'
        | gap _ => exact absurd trivial hnamed'
        | pattern _ => exact absurd hstarts' (show ('"' : Char) ≠ '/' by decide)
        | literal text' =>
            have hbody : text.toList ++ '"' :: t = text'.toList ++ '"' :: t' := by
              simpa [toList_render_literal] using h
            obtain ⟨htext, rfl⟩ := eq_of_append_delimiter (by decide) hsealed hsealed' ht ht' hbody
            exact ⟨congrArg literal (String.toList_inj.1 htext), rfl⟩
    | pattern terminal =>
        obtain rfl : c = '/' := hstarts
        cases s' with
        | nonterminal _ => exact absurd trivial hnamed'
        | entity _ _ => exact absurd trivial hnamed'
        | gap _ => exact absurd trivial hnamed'
        | literal _ => exact absurd hstarts' (show ('/' : Char) ≠ '"' by decide)
        | pattern terminal' =>
            have hbody : terminal.source.toList ++ '/' :: t = terminal'.source.toList ++ '/' :: t' := by
              simpa [toList_render_pattern hs, toList_render_pattern hs'] using h
            obtain ⟨hsource, rfl⟩ := eq_of_append_delimiter (by decide) hsealed hsealed' ht ht' hbody
            have hcompile : PatternTerminal.compile terminal.source false .anywhere = .ok terminal := hs
            rw [String.toList_inj.1 hsource] at hcompile
            exact ⟨congrArg pattern (Except.ok.inj (hcompile.symm.trans hs')), rfl⟩

/-- The text of a row of symbols. -/
def row (rhs : List Symbol) : String := String.join (rhs.map (fun s => " " ++ s.render))

theorem toList_row (rhs : List Symbol) :
    (row rhs).toList = rhs.flatMap (fun s => ' ' :: s.render.toList) := by
  simp [row, List.flatMap_map]

theorem apart_row (rhs : List Symbol) : Apart (row rhs).toList := by
  intro c hc
  rw [toList_row] at hc
  cases rhs with
  | nil => simp at hc
  | cons s rest => exact (Option.some.inj hc).symm

/-- **Rows of symbols whose ends are in sight** are told apart. -/
theorem row_injective {rhs rhs' : List Symbol} (h : row rhs = row rhs')
    (hs : ∀ s ∈ rhs, s.Loaded v ∧ s.Sealed) (hs' : ∀ s ∈ rhs', s.Loaded v ∧ s.Sealed) :
    rhs = rhs' := by
  have htext := congrArg String.toList h
  rw [toList_row, toList_row] at htext
  clear h
  induction rhs generalizing rhs' with
  | nil =>
      cases rhs' with
      | nil => rfl
      | cons s' rest' => simp at htext
  | cons s rest ih =>
      cases rhs' with
      | nil => simp at htext
      | cons s' rest' =>
          rw [List.flatMap_cons, List.flatMap_cons] at htext
          have hfirst := hs s List.mem_cons_self
          have hfirst' := hs' s' List.mem_cons_self
          obtain ⟨rfl, hrest⟩ := eq_of_render_append hfirst.1 hfirst'.1 hfirst.2 hfirst'.2
            (toList_row rest ▸ apart_row rest) (toList_row rest' ▸ apart_row rest')
            (List.cons.inj htext).2
          exact congrArg (s :: ·) (ih (fun x hx => hs x (List.mem_cons_of_mem s hx))
            (fun x hx => hs' x (List.mem_cons_of_mem s hx)) hrest)

/-- A symbol ends neither like an action nor like options. -/
theorem getLast?_render (hs : s.Loaded v) :
    ∃ c, s.render.toList.getLast? = some c ∧ c ≠ '\x7d' ∧ c ≠ ']' := by
  cases s with
  | nonterminal name =>
      have hne := IsName.ne_nil hs
      refine ⟨name.toList.getLast hne, List.getLast?_eq_some_getLast hne, ?_⟩
      have hchar := IsName.all hs _ (List.getLast_mem hne)
      constructor
      · intro h
        exact absurd (h ▸ hchar) (by decide)
      · intro h
        exact absurd (h ▸ hchar) (by decide)
  | literal text =>
      refine ⟨'"', ?_, by decide, by decide⟩
      rw [toList_render_literal, ← List.cons_append, List.getLast?_concat]
  | pattern terminal =>
      refine ⟨'/', ?_, by decide, by decide⟩
      rw [toList_render_pattern hs, ← List.cons_append, List.getLast?_concat]
  | entity name terminal =>
      refine ⟨')', ?_, by decide, by decide⟩
      rw [toList_render_entity, ← List.append_assoc, List.getLast?_concat]
  | gap g =>
      refine ⟨')', ?_, by decide, by decide⟩
      rw [toList_render_gap, ← List.append_assoc, List.getLast?_concat]

theorem getLast?_row {rhs : List Symbol} (hs : ∀ s ∈ rhs, s.Loaded v) :
    (row rhs).toList.getLast? ≠ some '\x7d' ∧ (row rhs).toList.getLast? ≠ some ']' := by
  rcases List.eq_nil_or_concat rhs with rfl | ⟨init, s, rfl⟩
  · simp [row]
  · rw [List.concat_eq_append] at hs ⊢
    obtain ⟨c, hc, hbrace, hbracket⟩ := getLast?_render (hs s (by simp))
    have hlast : (row (init ++ [s])).toList.getLast? = some c := by
      rw [toList_row, List.flatMap_append, List.flatMap_singleton, ← List.singleton_append,
        ← List.append_assoc, List.getLast?_append, hc]
      rfl
    rw [hlast]
    exact ⟨fun h => hbrace (Option.some.inj h), fun h => hbracket (Option.some.inj h)⟩

end Symbol

end ChartParsing
