import ChartParsing.Grammar.Source
import ChartParsing.Proofs.Grammar.Words

/-!
# Written rules

How rules are written down.  A rule is its left side, an arrow, and its items: its symbols in their
order, its action, and its options wherever they are put.  Blanks and comments stand in front of
items, and the same way rules stand one behind the other.

A `Writing` of a rule chooses the places and the space, and a `Page` does so for a list of rules.
`Expressible` says what can be written at all: names that are names, numbers in their range, and
lexicons, gaps and actions that the vocabulary knows by their names.
-/

namespace ChartParsing

open Lexeme

/-! ### Space -/

/-- Blanks and comments; every comment has its line feed. -/
inductive IsSpace : Text → Prop
  | nil : IsSpace []
  | blank {c : Char} {t : Text} (hc : isBlank c = true) (ht : IsSpace t) : IsSpace (c :: t)
  | comment {w t : Text} (hw : '\n' ∉ w) (ht : IsSpace t) : IsSpace ('#' :: (w ++ '\n' :: t))

theorem IsSpace.single : IsSpace [' '] := .blank (by decide) .nil

theorem dropSpaceFrom_comment {w : Text} (hw : '\n' ∉ w) (t : Text) :
    dropSpaceFrom true (w ++ '\n' :: t) = dropSpaceFrom false t := by
  induction w with
  | nil => rfl
  | cons x xs ih =>
      simp only [List.mem_cons, not_or] at hw
      have hx : decide (x ≠ '\n') = true := by simpa using Ne.symm hw.1
      rw [List.cons_append, dropSpaceFrom, if_pos rfl, hx, ih hw.2]

theorem dropSpace_append {s : Text} (h : IsSpace s) (t : Text) :
    dropSpace (s ++ t) = dropSpace t := by
  unfold dropSpace
  induction h with
  | nil => rfl
  | blank hc ht ih =>
      rw [List.cons_append, dropSpaceFrom, if_neg (by decide), if_pos hc, ih]
  | comment hw ht ih =>
      rw [List.cons_append, List.append_assoc, dropSpaceFrom, if_neg (by decide),
        if_neg (by decide), if_pos rfl, List.cons_append, dropSpaceFrom_comment hw, ih]

/-- The character can begin an item or a rule: it is not blank, and it is no sign that something else
begins with or goes on with. -/
def Opens (c : Char) : Prop := isBlank c = false ∧ c ∉ ['#', ',', ':', '-', '|']

theorem Opens.of_startsName {c : Char} (h : startsName c = true) : Opens c := by
  refine ⟨not_blank_of_isNameChar (isNameChar_of_startsName h), fun hc => ?_⟩
  simp only [List.mem_cons, List.not_mem_nil, or_false] at hc
  obtain rfl | rfl | rfl | rfl | rfl := hc <;> exact absurd h (by decide)

/-- Nothing is left, or something begins here. -/
def Opening (t : Text) : Prop := ∀ c, t.head? = some c → Opens c

theorem Opening.nil : Opening [] := fun _ h => by simp at h

theorem Opening.dropSpace_eq {t : Text} (h : Opening t) : dropSpace t = t := by
  cases t with
  | nil => rfl
  | cons x xs =>
      have hx := h x rfl
      rw [dropSpace, dropSpaceFrom, if_neg (by decide), if_neg (by simp [hx.1]), if_neg]
      rintro rfl
      exact hx.2 (by simp)

/-- Behind blanks comes a comment, or what comes behind the space. -/
theorem head?_dropBlanks_append {s t : Text} (h : IsSpace s) (ht : Opening t) {c : Char}
    (hc : (Text.dropBlanks (s ++ t)).head? = some c) : c = '#' ∨ Opens c := by
  induction h with
  | nil =>
      rw [List.nil_append, Text.dropBlanks_of_head (fun x hx => (ht x hx).1)] at hc
      exact .inr (ht c hc)
  | blank hx _ ih =>
      refine ih ?_
      rwa [List.cons_append, Text.dropBlanks, List.dropWhile_cons_of_pos hx] at hc
  | comment _ _ _ =>
      rw [Text.dropBlanks_of_head] at hc
      · exact .inl (Option.some.inj hc).symm
      · intro x hx
        obtain rfl := Option.some.inj hx
        decide

/-- Where there is space, or nothing more, every word has come to its end. -/
theorem parted_append {s t : Text} (h : IsSpace s) (hne : s = [] → t = []) (ht : Opening t) :
    Parted (s ++ t) where
  ends := by
    intro c hc
    cases h with
    | nil => simp [hne rfl] at hc
    | blank hx _ =>
        obtain rfl := Option.some.inj hc
        exact .inl hx
    | comment _ _ =>
        obtain rfl := Option.some.inj hc
        exact .inr (.inl rfl)
  next := by
    intro c hc
    obtain rfl | hopens := head?_dropBlanks_append h ht hc
    · decide
    · refine ⟨?_, ?_, ?_⟩ <;> rintro rfl <;> exact hopens.2 (by simp)

/-- There is space in front of things, and only the first can do without. -/
structure Spaced {α : Type} (l : List (Text × α)) : Prop where
  space : ∀ p ∈ l, IsSpace p.1
  apart : ∀ p ∈ l.tail, p.1 ≠ []

theorem Spaced.tail {α : Type} {p : Text × α} {l : List (Text × α)} (h : Spaced (p :: l)) :
    Spaced l :=
  ⟨fun q hq => h.space q (List.mem_cons_of_mem p hq), fun q hq => h.apart q (List.mem_of_mem_tail hq)⟩

theorem spaced_map {α β : Type} {s : Text} (hs : IsSpace s) (hne : s ≠ []) (f : β → α)
    (l : List β) : Spaced (l.map (fun b => (s, f b))) := by
  have hall : ∀ p ∈ l.map (fun b => (s, f b)), p.1 = s := by
    intro p hp
    obtain ⟨b, -, rfl⟩ := List.mem_map.1 hp
    rfl
  refine ⟨fun p hp => ?_, fun p hp => ?_⟩
  · rw [hall p hp]
    exact hs
  · rw [hall p (List.mem_of_mem_tail hp)]
    exact hne

/-- The text of things with the space in front of them. -/
def spread {α : Type} (write : α → Text) (l : List (Text × α)) : Text :=
  l.flatMap (fun p => p.1 ++ write p.2)

/-! ### Lists -/

/-- The text of things with commas between them. -/
def commas {α : Type} (write : α → Text) : List α → Text
  | [] => []
  | a :: list => write a ++ afterCommas write list

/-- A row of at least one character that satisfies `p`. -/
structure IsRow (p : Char → Bool) (w : Text) : Prop where
  ne_nil : w ≠ []
  all : ∀ x ∈ w, p x = true

instance (p : Char → Bool) (w : Text) : Decidable (IsRow p w) :=
  decidable_of_iff (w ≠ [] ∧ w.all p = true)
    ⟨fun h => ⟨h.1, List.all_eq_true.1 h.2⟩, fun h => ⟨h.ne_nil, List.all_eq_true.2 h.all⟩⟩

/-- The number fits into 64 bits. -/
def InRange (p : Int) : Prop := Decimal.minInt ≤ p ∧ p ≤ Decimal.maxInt

instance (p : Int) : Decidable (InRange p) :=
  inferInstanceAs (Decidable (Decimal.minInt ≤ p ∧ p ≤ Decimal.maxInt))

/-! ### Symbols -/

namespace Symbol

/-- How a symbol is written. -/
def write : Symbol → Text
  | .nonterminal name => name.toList
  | .literal text => '"' :: escape text.toList ++ ['"']
  | .pattern t => '/' :: t.source.toList ++ ['/']
  | .entity name _ => "EntityTerminal(".toList ++ (name.toList ++ ")".toList)
  | .gap g => "ApproxTerminal(".toList ++ (g.name.toList ++ ")".toList)

theorem write_literal_append (text : String) (t : Text) :
    (literal text).write ++ t = '"' :: escape text.toList ++ '"' :: t := by
  show ('"' :: escape text.toList ++ ['"']) ++ t = _
  rw [List.append_assoc, List.singleton_append]

theorem write_pattern_append (terminal : PatternTerminal) (t : Text) :
    (pattern terminal).write ++ t = '/' :: terminal.source.toList ++ '/' :: t := by
  show ('/' :: terminal.source.toList ++ ['/']) ++ t = _
  rw [List.append_assoc, List.singleton_append]

/-- The symbol is what its text stands for in the vocabulary. -/
def Expressible (v : Vocabulary) : Symbol → Prop
  | .nonterminal name => IsName name.toList
  | .literal _ => True
  | .pattern t =>
      PatternTerminal.compile t.source false .anywhere = .ok t ∧
        '/' ∉ t.source.toList ∧ '\n' ∉ t.source.toList
  | .entity name t => v.entity name = .ok (.entity name t) ∧ IsRow isEntityChar name.toList
  | .gap g => v.gap g.name = .ok (.gap g) ∧ IsRow isEntityChar g.name.toList

/-- A pattern leaves no backslash that would take the closing slash with it. -/
def Closed : Symbol → Prop
  | .pattern t => paired t.source.toList = true
  | _ => True

end Symbol

namespace Source

/-! ### Options -/

namespace RuleOption

/-- The key of an option. -/
def key : RuleOption → OptionKey
  | .entity _ => .entity
  | .weight _ => .weight
  | .priority _ => .priority
  | .precedence _ => .precedence
  | .left _ => .left
  | .right _ => .right
  | .non _ => .non

/-- How a class and its precedence are written. -/
def writePrecedence (p : String × Int) : Text :=
  p.1.toList ++ ':' :: (Decimal.intText p.2).toList

/-- How the value of an option is written. -/
def writeValue : RuleOption → Text
  | .entity flag => (if flag then "true" else "false").toList
  | .weight w => (Decimal.plain.write w).toList
  | .priority p => (Decimal.intText p).toList
  | .precedence list => commas writePrecedence list
  | .left list | .right list | .non list => commas String.toList list

/-- How an option is written. -/
def write (o : RuleOption) : Text := o.key.word.toList ++ (':' :: ' ' :: o.writeValue)

/-- The option is one that rules are written with.  An entity says so, and nothing else is said of
entities; weights are not written. -/
def Expressible : RuleOption → Prop
  | .entity flag => flag = true
  | .weight _ => False
  | .priority p => InRange p
  | .precedence list => list ≠ [] ∧ ∀ p ∈ list, IsRow isNameChar p.1.toList ∧ InRange p.2
  | .left list | .right list | .non list => list ≠ [] ∧ ∀ c ∈ list, IsRow isNameChar c.toList

end RuleOption

/-! ### Items -/

namespace Item

/-- How an item is written. -/
def write : Item → Text
  | .symbol s => s.write
  | .action a => "\x7b% ".toList ++ (a.name.toList ++ " %\x7d".toList)
  | .option o => o.write

/-- The item is what its text stands for in the vocabulary. -/
def Expressible (v : Vocabulary) : Item → Prop
  | .symbol s => s.Expressible v ∧ s.Closed
  | .action a => v.action a.name = .ok a ∧ IsRow isActionChar a.name.toList
  | .option o => o.Expressible

/-- The symbol that an item is. -/
def symbol? : Item → Option Symbol
  | .symbol s => some s
  | _ => none

/-- The action that an item is. -/
def action? : Item → Option Action
  | .action a => some a
  | _ => none

/-- The option that an item is. -/
def option? : Item → Option RuleOption
  | .option o => some o
  | _ => none

end Item

end Source

open Source

/-! ### Rules -/

namespace Rule

/-- The option with a key that a rule is written with, unless there is nothing to say. -/
def option? (r : Rule) : OptionKey → Option RuleOption
  | .entity => if r.entity then some (.entity true) else none
  | .weight => none
  | .priority => r.priority.map .priority
  | .precedence => unlessEmpty .precedence r.operators.precedence
  | .left => unlessEmpty .left r.operators.left
  | .right => unlessEmpty .right r.operators.right
  | .non => unlessEmpty .non r.operators.non
where
  /-- An option that lists something. -/
  unlessEmpty {α : Type} (option : List α → RuleOption) (list : List α) : Option RuleOption :=
    if list = [] then none else some (option list)

/-- The options that a rule is written with. -/
def written (r : Rule) : List RuleOption := OptionKey.all.filterMap r.option?

/-- The rule can be written down: each of its parts can, its weight is the usual one, and its classes
are in order, each of them once. -/
structure Expressible (v : Vocabulary) (r : Rule) : Prop where
  lhs : IsName r.lhs.toList
  symbols : ∀ s ∈ r.rhs, s.Expressible v
  action : ∀ a ∈ r.action, v.action a.name = .ok a ∧ IsRow isActionChar a.name.toList
  weight : r.weight = 1.0
  options : ∀ o ∈ r.written, o.Expressible
  precedence : r.operators.precedence.Pairwise (fun p q => p.1 < q.1)
  left : r.operators.left.Pairwise (· < ·)
  right : r.operators.right.Pairwise (· < ·)
  non : r.operators.non.Pairwise (· < ·)

end Rule

/-- One way to write a rule. -/
structure Writing (r : Rule) where
  items : List (Text × Source.Item)
  spaced : Spaced items
  symbols : items.filterMap (fun p => p.2.symbol?) = r.rhs
  action : items.filterMap (fun p => p.2.action?) = r.action.toList
  options : (items.filterMap (fun p => p.2.option?)).Perm r.written

namespace Writing

/-- The text of a written rule. -/
def text {r : Rule} (w : Writing r) : Text :=
  r.lhs.toList ++ (" ->".toList ++ spread Source.Item.write w.items)

end Writing

/-- One way to write a list of rules. -/
structure Page (rules : List Rule) where
  entries : List (Text × (r : Rule) × Writing r)
  spaced : Spaced entries
  rules_eq : entries.map (fun p => p.2.1) = rules
  ending : Text
  space : IsSpace ending

namespace Page

/-- The text of written rules. -/
def text {rules : List Rule} (page : Page rules) : Text :=
  spread (fun e => e.2.text) page.entries ++ page.ending

end Page

end ChartParsing
