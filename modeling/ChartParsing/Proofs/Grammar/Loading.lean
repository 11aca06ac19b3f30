import ChartParsing.Proofs.Grammar.Assembly
import ChartParsing.Proofs.Grammar.Items
import Mathlib.Data.List.Induction

/-!
# Rules that are read back

Rules that are written down are read back as they were, wherever options stand between their symbols
and whatever space there is.  A rule has no sign at its end: it goes on until the next name with an
arrow behind it.  So what the readers need to know of the text behind an alternative is that the
alternative ends there (`Behind`), and a page makes sure of that for each of its rules.

The main result is **`Grammar.load_page`**.  Patterns are written as they are, and so one that ends
in a backslash of its own would take the closing slash with it: **`Grammar.load_page_open`**.
-/

namespace ChartParsing

open Lexeme Source

variable {v : Vocabulary} {r : Rule} {t : Text}

/-! ### Row after row -/

section Rows

variable {α : Type} {write : α → Text}

theorem spread_cons (p : Text × α) (l : List (Text × α)) (t : Text) :
    spread write (p :: l) ++ t = p.1 ++ (write p.2 ++ (spread write l ++ t)) := by
  simp [spread]

/-- What nothing is written for is not counted. -/
theorem length_le_length_spread {l : List (Text × α)} (h : ∀ p ∈ l, write p.2 ≠ []) (t : Text) :
    l.length ≤ (spread write l ++ t).length := by
  induction l with
  | nil => exact Nat.zero_le _
  | cons p rest ih =>
      have hp := List.length_pos_iff.2 (h p (by simp))
      have hrest := ih (fun q hq => h q (List.mem_cons_of_mem p hq))
      rw [spread_cons, List.length_append, List.length_append, List.length_cons]
      omega

/-- Behind each thing of a row its end is in sight, if it is so behind the last one. -/
theorem parted_spread {p : Text × α} {l : List (Text × α)} (hspaced : Spaced (p :: l))
    (hopening : ∀ q ∈ l, ∀ rest, Opening (write q.2 ++ rest)) (ht : Parted t) :
    Parted (spread write l ++ t) := by
  cases l with
  | nil => exact ht
  | cons q rest =>
      rw [spread_cons]
      have hq : q.1 = [] → write q.2 ++ (spread write rest ++ t) = [] :=
        fun hnil => absurd hnil (hspaced.apart q (by simp))
      exact parted_append (hspaced.space q (by simp)) hq (hopening q (by simp) _)

end Rows

/-! ### Alternatives -/

/-- Behind an alternative stands a text in which it ends. -/
structure Behind (t : Text) : Prop where
  parted : Parted t
  opening : Opening (dropSpace t)
  ends : endsAlternative (dropSpace t) = true

/-- Items are read one after the other, up to the end of their alternative. -/
theorem readItems_spread {l : List (Text × Source.Item)} (hspaced : Spaced l)
    (hitems : ∀ p ∈ l, p.2.Expressible v) (ht : Behind t) {fuel : Nat} (hfuel : l.length ≤ fuel)
    (r : Rule) : readItems v fuel r (spread Source.Item.write l ++ t) =
      (l.map Prod.snd).foldlM Source.Item.addTo r >>= fun r => .ok (r, dropSpace t) := by
  -- one round takes the space, finds that the alternative goes on, and reads the item behind it
  induction l generalizing fuel r with
  | nil =>
      cases fuel with
      | zero => rfl
      | succ fuel =>
          show (if endsAlternative (dropSpace t) then _ else _) = _
          rw [if_pos ht.ends]
          rfl
  | cons p rest ih =>
      obtain ⟨fuel, rfl⟩ := Nat.exists_eq_succ_of_ne_zero
        (Nat.ne_zero_of_lt (Nat.lt_of_lt_of_le (Nat.succ_pos rest.length) hfuel))
      have hp := hitems p (by simp)
      have hrest : Parted (spread Source.Item.write rest ++ t) :=
        parted_spread hspaced
          (fun q hq => opening_write (hitems q (List.mem_cons_of_mem p hq))) ht.parted
      have hspace : dropSpace (spread Source.Item.write (p :: rest) ++ t) =
          p.2.write ++ (spread Source.Item.write rest ++ t) := by
        rw [spread_cons, dropSpace_append (hspaced.space p (by simp)),
          (opening_write hp _).dropSpace_eq]
      have hread : within ("rule " ++ r.lhs)
          (readItem v (p.2.write ++ (spread Source.Item.write rest ++ t))) =
            .ok (p.2, spread Source.Item.write rest ++ t) := by
        rw [readItem_append hp hrest]
        rfl
      have ih := fun r => ih hspaced.tail (fun q hq => hitems q (List.mem_cons_of_mem p hq))
        (Nat.le_of_succ_le_succ hfuel) r
      rw [readItems, hspace, endsAlternative_append hp hrest, hread, List.map_cons, List.foldlM_cons]
      simp only [Bool.false_eq_true, if_false, bind, Except.bind]
      cases p.2.addTo r with
      | error e => rfl
      | ok r' => exact ih r'

/-! ### Rules -/

/-- What is expressible of a rule is expressible of its items. -/
theorem Writing.expressible_items (w : Writing r) (h : r.Expressible v)
    (hclosed : ∀ s ∈ r.rhs, s.Closed) : ∀ p ∈ w.items, p.2.Expressible v := by
  rintro ⟨space, item⟩ hp
  cases item with
  | symbol s =>
      have hs : s ∈ r.rhs := by
        rw [← w.symbols]
        exact List.mem_filterMap.2 ⟨_, hp, rfl⟩
      exact ⟨h.symbols s hs, hclosed s hs⟩
  | action a =>
      have ha : a ∈ r.action.toList := by
        rw [← w.action]
        exact List.mem_filterMap.2 ⟨_, hp, rfl⟩
      exact h.action a (by simpa using ha)
  | option o => exact h.options o (w.options.subset (List.mem_filterMap.2 ⟨_, hp, rfl⟩))

theorem Writing.opening_text (w : Writing r) (h : r.Expressible v) (t : Text) :
    Opening (w.text ++ t) := by
  obtain ⟨c, hc, hstarts⟩ := h.lhs.starts
  intro x hx
  rw [Writing.text, List.append_assoc, List.head?_append, hc] at hx
  exact Option.some.inj hx ▸ .of_startsName hstarts

/-- Where a rule starts, an alternative ends. -/
theorem Writing.endsAlternative_text (w : Writing r) (h : r.Expressible v) (t : Text) :
    endsAlternative (w.text ++ t) = true := by
  have hstart : isRuleStart (w.text ++ t) = true := by
    have hblank : Text.dropBlanks (" ->".toList ++ spread Source.Item.write w.items ++ t) =
        "->".toList ++ (spread Source.Item.write w.items ++ t) := by
      rw [show " ->".toList = [' '] ++ "->".toList from rfl, List.append_assoc, List.append_assoc,
        Text.dropBlanks_append (by decide)]
      exact Text.Solid.dropBlanks_eq ⟨'-', rfl, by decide⟩
    rw [Writing.text, List.append_assoc, isRuleStart_append h.lhs, hblank, Text.startsWith,
      Text.dropPrefix?_append]
    · rfl
    · intro x hx
      obtain rfl := Option.some.inj hx
      decide
  rw [endsAlternative, hstart, Bool.or_true]

/-- **A written rule is read as itself.** -/
theorem readRule_text (w : Writing r) (h : r.Expressible v) (hclosed : ∀ s ∈ r.rhs, s.Closed)
    (ht : Behind t) : readRule v (w.text ++ t) = .ok ([r], dropSpace t) := by
  have hitems := w.expressible_items h hclosed
  have htext : w.text ++ t =
      r.lhs.toList ++ (' ' :: ("->".toList ++ (spread Source.Item.write w.items ++ t))) := by
    rw [Writing.text, List.append_assoc, List.append_assoc]
    rfl
  have hname : name? (w.text ++ t) =
      some (r.lhs.toList, ' ' :: ("->".toList ++ (spread Source.Item.write w.items ++ t))) := by
    rw [htext]
    exact name?_append h.lhs (fun x hx => Option.some.inj hx ▸ (by decide))
  have harrow : dropSpace (' ' :: ("->".toList ++ (spread Source.Item.write w.items ++ t))) =
      "->".toList ++ (spread Source.Item.write w.items ++ t) := rfl
  have hlength : w.items.length ≤ (spread Source.Item.write w.items ++ t).length := by
    refine length_le_length_spread (fun p hp hnil => ?_) t
    obtain ⟨c, hc, _⟩ := opens_write (hitems p hp)
    simp [hnil] at hc
  have halternative : readAlternative v r.lhs (spread Source.Item.write w.items ++ t) =
      .ok (r, dropSpace t) := by
    rw [readAlternative, readItems_spread w.spaced hitems ht hlength, w.foldlM_items h]
    rfl
  have hbar : Text.dropPrefix? (dropSpace t) bar = none :=
    Option.isSome_eq_false_iff.1 (not_bar_of_opening ht.opening) |> Option.isNone_iff_eq_none.1
  have halternatives : ∀ fuel, readAlternatives v r.lhs (fuel + 1)
      (spread Source.Item.write w.items ++ t) = .ok ([r], dropSpace t) := by
    intro fuel
    rw [readAlternatives, halternative]
    simp only [bind, Except.bind, hbar]
  simp only [readRule, readName, hname, required, within, bind, Except.bind, String.ofList_toList,
    harrow, Text.dropPrefix?_append, halternatives]

/-! ### Pages -/

/-- The rules that are left on a page. -/
def remainder (entries : List (Text × (r : Rule) × Writing r)) (ending : Text) : Text :=
  spread (fun e => e.2.text) entries ++ ending

/-- Behind each rule of a page its last alternative ends. -/
theorem behind_remainder {p : Text × (r : Rule) × Writing r}
    {entries : List (Text × (r : Rule) × Writing r)} {ending : Text}
    (hspaced : Spaced (p :: entries)) (hentries : ∀ q ∈ entries, q.2.1.Expressible v)
    (hending : IsSpace ending) : Behind (remainder entries ending) := by
  have hopening : ∀ q ∈ entries, ∀ rest, Opening (q.2.2.text ++ rest) :=
    fun q hq => q.2.2.opening_text (hentries q hq)
  have hparted : Parted (remainder entries ending) := by
    refine parted_spread hspaced hopening ?_
    simpa using parted_append hending (fun _ => rfl) .nil
  cases entries with
  | nil =>
      have hnil : dropSpace (remainder [] ending) = [] := by
        have hspace := dropSpace_append hending []
        rwa [List.append_nil] at hspace
      exact ⟨hparted, hnil ▸ .nil, hnil ▸ rfl⟩
  | cons q rest =>
      have hq : q ∈ q :: rest := by simp
      have hspace : dropSpace (remainder (q :: rest) ending) =
          q.2.2.text ++ (spread (fun e => e.2.text) rest ++ ending) := by
        rw [remainder, spread_cons, dropSpace_append (hspaced.space q (by simp)),
          (hopening q hq _).dropSpace_eq]
      exact ⟨hparted, hspace ▸ hopening q hq _,
        hspace ▸ q.2.2.endsAlternative_text (hentries q hq) _⟩

/-- The rules of a page are read one after the other.  What was read before may have taken the space in
front of them with it. -/
theorem readRulesFrom_remainder {entries : List (Text × (r : Rule) × Writing r)} {ending : Text}
    (hspaced : Spaced entries) (hentries : ∀ p ∈ entries, p.2.1.Expressible v)
    (hclosed : ∀ p ∈ entries, ∀ s ∈ p.2.1.rhs, s.Closed) (hending : IsSpace ending)
    (ht : dropSpace t = dropSpace (remainder entries ending)) {fuel : Nat}
    (hfuel : entries.length < fuel) :
    readRulesFrom v fuel t = .ok (entries.map (fun p => p.2.1)) := by
  -- each rule is read up to the next one, and that is where the next round begins
  induction entries generalizing fuel t with
  | nil =>
      obtain ⟨fuel, rfl⟩ := Nat.exists_eq_succ_of_ne_zero (Nat.ne_zero_of_lt hfuel)
      have hnil : dropSpace t = [] := by
        have hspace := dropSpace_append hending []
        rw [List.append_nil] at hspace
        exact ht.trans hspace
      rw [readRulesFrom, hnil]
      rfl
  | cons p rest ih =>
      obtain ⟨fuel, rfl⟩ := Nat.exists_eq_succ_of_ne_zero (Nat.ne_zero_of_lt hfuel)
      have hp := hentries p (by simp)
      have hrest := fun q hq => hentries q (List.mem_cons_of_mem p hq)
      have hbehind := behind_remainder hspaced hrest hending
      have htext : dropSpace t = p.2.2.text ++ remainder rest ending := by
        rw [ht, remainder, spread_cons, dropSpace_append (hspaced.space p (by simp)),
          (p.2.2.opening_text hp _).dropSpace_eq, remainder]
      have hne : (p.2.2.text ++ remainder rest ending).isEmpty = false := by
        obtain ⟨c, hc, _⟩ := hp.lhs.starts
        cases hlhs : p.2.1.lhs.toList with
        | nil => simp [hlhs] at hc
        | cons x xs => rw [Writing.text, hlhs]; rfl
      have hothers := ih hspaced.tail hrest (fun q hq => hclosed q (List.mem_cons_of_mem p hq))
        (hbehind.opening.dropSpace_eq) (Nat.lt_of_succ_lt_succ hfuel)
      rw [readRulesFrom, htext, hne]
      simp only [Bool.false_eq_true, if_false, bind, Except.bind,
        readRule_text p.2.2 hp (hclosed p (by simp)) hbehind, hothers]
      rfl

namespace Page

variable {rules : List Rule}

/-- **The rules of a page are read as they are**, in their order. -/
theorem readRules_text (page : Page rules) (h : ∀ r ∈ rules, r.Expressible v)
    (hclosed : ∀ r ∈ rules, ∀ s ∈ r.rhs, s.Closed) : readRules v page.text = .ok rules := by
  have hmem : ∀ p ∈ page.entries, p.2.1 ∈ rules := by
    intro p hp
    rw [← page.rules_eq]
    exact List.mem_map_of_mem hp
  have hlength : page.entries.length ≤ page.text.length := by
    refine length_le_length_spread (fun p hp hnil => ?_) page.ending
    have hlhs := (List.append_eq_nil_iff.1 hnil).1
    exact (h _ (hmem p hp)).lhs.ne_nil hlhs
  have hread := readRulesFrom_remainder (v := v) (t := page.text) page.spaced
    (fun p hp => h _ (hmem p hp)) (fun p hp => hclosed _ (hmem p hp)) page.space rfl
    (Nat.lt_succ_of_le hlength)
  rw [readRules, hread, page.rules_eq]

end Page

/-! ### Grammars -/

namespace Grammar

/-- A rule with a text of its own is added. -/
theorem add_of_not_mem {g : Grammar} {r : Rule} (h : r.render ∉ g.rules.toList.map Rule.render) :
    g.add r = (⟨g.rules.push r⟩, true) := by
  have hhas : g.has r = false := by
    rw [has, List.any_eq_false]
    intro q hq hrender
    exact h (List.mem_map.2 ⟨q, hq, of_decide_eq_true hrender⟩)
  rw [add, hhas]
  rfl

/-- Rules with different texts are all added. -/
theorem addAll_of_nodup {g : Grammar} {rules : List Rule}
    (h : ((g.rules.toList ++ rules).map Rule.render).Nodup) :
    g.addAll rules = (⟨g.rules ++ rules.toArray⟩, rules.length) := by
  induction rules using List.reverseRecOn with
  | nil => simp [addAll]
  | append_singleton rest r ih =>
      rw [← List.append_assoc, List.map_append, List.nodup_append] at h
      have hr : r.render ∉ (⟨g.rules ++ rest.toArray⟩ : Grammar).rules.toList.map Rule.render := by
        intro hmem
        exact h.2.2 _ (by simpa using hmem) _ (by simp) rfl
      have hrest := ih h.1
      unfold addAll at hrest ⊢
      rw [List.foldl_append, hrest]
      simp only [List.foldl_cons, List.foldl_nil, add_of_not_mem hr]
      simp

end Grammar

/-! ### Plain pages -/

/-- A rule can be written with its symbols first, then its action and its options. -/
def Writing.plain (r : Rule) : Writing r where
  items := (r.rhs.map Source.Item.symbol ++ r.action.toList.map Source.Item.action ++
    r.written.map Source.Item.option).map (fun i => ([' '], i))
  spaced := spaced_map .single (by simp) id _
  symbols := by
    simp [List.filterMap_append, List.filterMap_map, Function.comp_def, Source.Item.symbol?]
  action := by
    simp [List.filterMap_append, List.filterMap_map, Function.comp_def, Source.Item.action?]
  options := by
    simp [List.filterMap_append, List.filterMap_map, Function.comp_def, Source.Item.option?]

/-- Rules can be written on a line each. -/
def Page.plain (rules : List Rule) : Page rules where
  entries := rules.map (fun r => (['\n'], ⟨r, .plain r⟩))
  spaced := spaced_map (.blank (by decide) .nil) (by simp) _ rules
  rules_eq := by simp [Function.comp_def]
  ending := []
  space := .nil

/-! ### Rules that can be written -/

theorem exists_of_isOk {ε α : Type} {x : Except ε α} (h : x.isOk = true) : ∃ a, x = .ok a := by
  cases x with
  | ok a => exact ⟨a, rfl⟩
  | error e => simp [Except.isOk, Except.toBool] at h

theorem source_of_compile {source : String} {caseInsensitive : Bool} {boundary : Boundary}
    {terminal : PatternTerminal}
    (h : PatternTerminal.compile source caseInsensitive boundary = .ok terminal) :
    terminal.source = source := by
  unfold PatternTerminal.compile at h
  split at h
  · exact Except.ok.inj h ▸ rfl
  · simp at h

namespace Rule

/-- The text of a rule begins with its left side. -/
theorem head?_render {r : Rule} (h : r.lhs.toList ≠ []) :
    r.render.toList.head? = r.lhs.toList.head? := by
  unfold Rule.render
  simp only [String.toList_append, List.append_assoc]
  rw [List.head?_append_of_ne_nil _ h]

/-- A rule with a pattern alone can be written, unless the pattern has a slash or a line feed. -/
theorem expressible_of_pattern {lhs : String} {terminal : PatternTerminal}
    (hlhs : IsName lhs.toList)
    (hcompile : PatternTerminal.compile terminal.source false .anywhere = .ok terminal)
    (hslash : '/' ∉ terminal.source.toList) (hline : '\n' ∉ terminal.source.toList) :
    (Rule.of lhs [.pattern terminal]).Expressible v where
  lhs := hlhs
  symbols := by
    intro s hs
    obtain rfl := List.mem_singleton.1 hs
    exact ⟨hcompile, hslash, hline⟩
  action := fun a ha => absurd ha (by simp [Rule.of])
  weight := rfl
  options := fun o ho => absurd ho (List.not_mem_nil (a := o))
  precedence := .nil
  left := .nil
  right := .nil
  non := .nil

/-- A rule for sums, with an action and options of most kinds. -/
def sum : Rule :=
  { Rule.of "Sum" [.nonterminal "Sum", .literal "\"+\"", .nonterminal "Number"] with
    action := some .join
    priority := some (-2)
    entity := true
    operators := ⟨[("plus", 1)], ["minus", "plus"], [], []⟩ }

theorem expressible_sum : sum.Expressible .standard where
  lhs := by decide
  symbols := by
    intro s hs
    simp only [sum, Rule.of, List.mem_cons, List.not_mem_nil, or_false] at hs
    obtain rfl | rfl | rfl := hs
    · exact (by decide : IsName "Sum".toList)
    · trivial
    · exact (by decide : IsName "Number".toList)
  action := by
    intro a ha
    obtain rfl := Option.some.inj ha
    exact ⟨rfl, by decide⟩
  weight := rfl
  options := by
    have hwritten : sum.written =
        [.entity true, .priority (-2), .precedence [("plus", 1)], .left ["minus", "plus"]] := rfl
    intro o ho
    simp only [hwritten, List.mem_cons, List.not_mem_nil, or_false] at ho
    obtain rfl | rfl | rfl | rfl := ho
    · rfl
    · show InRange (-2)
      decide
    · refine ⟨by simp, fun p hp => ?_⟩
      obtain rfl := List.mem_singleton.1 hp
      exact ⟨by decide, by decide⟩
    · refine ⟨by simp, fun c hc => ?_⟩
      simp only [List.mem_cons, List.not_mem_nil, or_false] at hc
      obtain rfl | rfl := hc <;> decide
  precedence := by decide
  left := by decide
  right := by decide
  non := by decide

end Rule

namespace Grammar

/-- **Every list of rules can be written down, and is read back as it was written.** -/
theorem load_page (v : Vocabulary) (rules : List Rule) (hne : rules ≠ [])
    (h : ∀ r ∈ rules, r.Expressible v) (hclosed : ∀ r ∈ rules, ∀ s ∈ r.rhs, s.Closed)
    (hdistinct : (rules.map Rule.render).Nodup) :
    Nonempty (Page rules) ∧
      ∀ page : Page rules, load v (String.ofList page.text) = .ok ⟨rules.toArray⟩ := by
  refine ⟨⟨.plain rules⟩, fun page => ?_⟩
  have hread : readRules v (String.ofList page.text).toList = .ok rules := by
    rw [String.toList_ofList]
    exact page.readRules_text h hclosed
  have hadd : empty.addAll rules = (⟨rules.toArray⟩, rules.length) := by
    simpa [empty] using addAll_of_nodup (g := empty) (by simpa [empty] using hdistinct)
  have hlength : rules.length ≠ 0 := by simpa using hne
  simp only [load, extend, hread, bind, Except.bind, hadd, if_neg hlength]

theorem load_page_sum : ∃ number, PatternTerminal.compile "[0-9]+" false .anywhere = .ok number ∧
    load .standard (String.ofList (Page.plain [.sum, Rule.of "Number" [.pattern number]]).text) =
      .ok ⟨#[.sum, Rule.of "Number" [.pattern number]]⟩ := by
  obtain ⟨number, hnumber⟩ := exists_of_isOk
    (show (PatternTerminal.compile "[0-9]+" false .anywhere).isOk = true by decide +kernel)
  have hsource := source_of_compile hnumber
  refine ⟨number, hnumber, (load_page .standard [.sum, Rule.of "Number" [.pattern number]]
    (by simp) ?_ ?_ ?_).2 _⟩
  · intro r hr
    simp only [List.mem_cons, List.not_mem_nil, or_false] at hr
    obtain rfl | rfl := hr
    · exact Rule.expressible_sum
    · refine Rule.expressible_of_pattern (by decide) ?_ ?_ ?_
      · rw [hsource, hnumber]
      · rw [hsource]
        decide
      · rw [hsource]
        decide
  · intro r hr s hs
    simp only [List.mem_cons, List.not_mem_nil, or_false] at hr
    obtain rfl | rfl := hr
    · simp only [Rule.sum, Rule.of, List.mem_cons, List.not_mem_nil, or_false] at hs
      obtain rfl | rfl | rfl := hs <;> trivial
    · obtain rfl := List.mem_singleton.1 hs
      show paired number.source.toList = true
      rw [hsource]
      decide
  · have hne : Rule.sum.render ≠ (Rule.of "Number" [.pattern number]).render := by
      intro heq
      have hhead := congrArg (fun s => s.toList.head?) heq
      simp only [Rule.head?_render (show Rule.sum.lhs.toList ≠ [] by decide),
        Rule.head?_render (r := Rule.of "Number" [.pattern number]) (by simp [Rule.of])] at hhead
      exact absurd hhead (by simp [Rule.of, Rule.sum])
    simp [hne]

/-- A pattern that leaves a backslash at its end can be a rule's, but the rule cannot be written: the
backslash takes the closing slash with it. -/
theorem load_page_open : ¬ ∀ (v : Vocabulary) (rules : List Rule), rules ≠ [] →
    (∀ r ∈ rules, r.Expressible v) → (rules.map Rule.render).Nodup →
      Nonempty (Page rules) ∧
        ∀ page : Page rules, load v (String.ofList page.text) = .ok ⟨rules.toArray⟩ := by
  intro h
  obtain ⟨terminal, hterminal⟩ := exists_of_isOk
    (show (PatternTerminal.compile "(?x)a#\\" false .anywhere).isOk = true by decide +kernel)
  have hsource := source_of_compile hterminal
  let page : Page [Rule.of "A" [.pattern terminal]] :=
    { entries := [([], ⟨_, .plain _⟩)]
      spaced := ⟨by simp [IsSpace.nil], by simp⟩
      rules_eq := rfl
      ending := []
      space := .nil }
  have hexpressible : ∀ r ∈ [Rule.of "A" [.pattern terminal]], r.Expressible .empty := by
    intro r hr
    obtain rfl := List.mem_singleton.1 hr
    refine Rule.expressible_of_pattern (by decide) ?_ ?_ ?_
    · rw [hsource, hterminal]
    · rw [hsource]
      decide
    · rw [hsource]
      decide
  have hload := (h .empty _ (by simp) hexpressible (by simp)).2 page
  have htext : page.text = "A -> /".toList ++ (terminal.source.toList ++ "/".toList) := by
    show [] ++ ("A".toList ++ (" ->".toList ++
      ([' '] ++ ('/' :: terminal.source.toList ++ ['/']) ++ []))) ++ [] ++ [] = _
    simp
  have hfails : (load .empty "A -> /(?x)a#\\/").isOk = false := by decide +kernel
  have hpage : String.ofList page.text = "A -> /(?x)a#\\/" := by
    rw [htext, hsource]
    rfl
  rw [← hpage, hload] at hfails
  exact absurd hfails (by simp [Except.isOk, Except.toBool])

end Grammar

end ChartParsing
