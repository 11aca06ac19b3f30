import ChartParsing.Rule
import Mathlib.Tactic.Common

/-!
# Expressions that operators leave

An `OperatorTable` holds rules for operators between two operands.  All have a precedence in one class and
associate to the left or to the right, so that operators of one precedence go the same way.  Vetoes compare
the rule of a node with that of an operand only.

* `OperatorTable.Allowed`: an expression without a veto.
* `OperatorTable.Grouped`: the operator at the root binds least tightly, and of those that do it is the last
  one, or the first one if they associate to the right; the same holds of the operands.
* `OperatorTable.group`: operators are taken one by one from left to right, and each takes as its left operand
  what is on the right of all that bind less tightly.

Main statement: **`allowed_iff_eq_group`**.  For every row of operands and operators there is one expression
without a veto.
-/

namespace ChartParsing

/-! ### Operators and expressions -/

/-- The side on which operators of one class are grouped first. -/
inductive Side where
  | left
  | right
deriving DecidableEq, Repr

/-- The tags of an operator with a precedence and one class in which it associates. -/
def Side.operators (side : Side) (scale cls : String) (precedence : Int) : Operators :=
  match side with
  | .left => ⟨[(scale, precedence)], [cls], [], []⟩
  | .right => ⟨[(scale, precedence)], [], [cls], []⟩

theorem tighter?_single (scale : String) (p q : Int) :
    Operators.tighter? [(scale, p)] [(scale, q)] = if q < p then some scale else none := by
  by_cases h : q < p <;> simp [Operators.tighter?, h]

theorem shared?_single (a b : String) :
    Operators.shared? [a] [b] = if a = b then some a else none := by
  by_cases h : a = b <;> simp [Operators.shared?, h]

/-- An operator takes what binds as tightly or tighter, and its own class on its own side only. -/
theorem Side.veto?_eq_none_iff {s s' : Side} {scale cls cls' : String} {p q : Int} {dot : Nat} :
    (s.operators scale cls p).veto? (s'.operators scale cls' q) dot 3 = none ↔ p ≤ q ∧
      (s = s' ∧ cls = cls' → (s = .left → dot = 0) ∧ (s = .right → 2 ≤ dot)) := by
  have hnil (list : List String) : Operators.shared? [] list = none := rfl
  have hnil' (a : String) : Operators.shared? [a] [] = none := rfl
  cases s <;> cases s' <;>
    simp [operators, Operators.veto?, tighter?_single, shared?_single, hnil, hnil'] <;> grind

/-- Rules for operators between two operands, and one for operands. -/
structure OperatorTable (ι : Type) where
  /-- The nonterminal that stands for expressions. -/
  name : String
  /-- The class of all precedences. -/
  scale : String
  sign : ι → Symbol
  precedence : ι → Int
  side : ι → Side
  cls : ι → String
  rule : ι → Rule
  operand : Rule
  rule_lhs : ∀ i, (rule i).lhs = name
  rule_rhs : ∀ i, (rule i).rhs = [.nonterminal name, sign i, .nonterminal name]
  rule_operators : ∀ i, (rule i).operators = (side i).operators scale (cls i) (precedence i)
  operand_lhs : operand.lhs = name
  operand_operators : operand.operators = .none
  /-- Operators are in one class, on one side, exactly if they have one precedence. -/
  same_iff : ∀ i j, (side i = side j ∧ cls i = cls j) ↔ precedence i = precedence j

/-- An operand, or an operator between two expressions. -/
inductive Expression (α ι : Type) where
  | operand (a : α)
  | node (i : ι) (left right : Expression α ι)
deriving DecidableEq, Repr

namespace Expression

variable {α ι : Type}

/-- The first operand. -/
def first : Expression α ι → α
  | operand a => a
  | node _ l _ => l.first

/-- What follows the first operand: operators, each with the operand behind it. -/
def rest : Expression α ι → List (ι × α)
  | operand _ => []
  | node i l r => l.rest ++ (i, r.first) :: r.rest

/-- The operator at the root. -/
def root? : Expression α ι → Option ι
  | operand _ => none
  | node i _ _ => some i

end Expression

namespace OperatorTable

variable {α ι : Type} (T : OperatorTable ι)

/-- The rule of an expression. -/
def ruleOf : Expression α ι → Rule
  | .operand _ => T.operand
  | .node i _ _ => T.rule i

/-- Why a rule may not be taken for the symbol at `dot` of an operator's rule. -/
def veto? (i : ι) (child : Rule) (dot : Nat) : Option Veto :=
  (T.rule i).operators.veto? child.operators dot (T.rule i).length

/-- No operator forbids one of its operands. -/
def Allowed : Expression α ι → Prop
  | .operand _ => True
  | .node i l r => T.veto? i (T.ruleOf l) 0 = none ∧ T.veto? i (T.ruleOf r) 2 = none ∧
      Allowed l ∧ Allowed r

/-- The operator has the least precedence of all, and of those that have it, it is the last one, or the first
one if they associate to the right. -/
structure IsRoot (i : ι) (before after : List (ι × α)) : Prop where
  least : ∀ x ∈ before ++ after, T.precedence i ≤ T.precedence x.1
  last : T.side i = .left → ∀ x ∈ after, T.precedence i < T.precedence x.1
  first : T.side i = .right → ∀ x ∈ before, T.precedence i < T.precedence x.1

/-- The right operator is at the root, here and in the operands. -/
def Grouped : Expression α ι → Prop
  | .operand _ => True
  | .node i l r => T.IsRoot i l.rest r.rest ∧ Grouped l ∧ Grouped r

/-- The later operator takes all of the earlier one's expression as its left operand. -/
def Takes (later earlier : ι) : Prop := T.precedence later < T.precedence earlier ∨
  T.precedence later = T.precedence earlier ∧ T.side later = .left

instance (later earlier : ι) : Decidable (T.Takes later earlier) :=
  inferInstanceAs (Decidable (_ ∨ _))

/-- Puts an operator with an operand behind an expression. -/
def attach (t : Expression α ι) (i : ι) (a : α) : Expression α ι :=
  match t with
  | .operand b => .node i (.operand b) (.operand a)
  | .node j l r =>
      if T.Takes i j then .node i (.node j l r) (.operand a) else .node j l (attach r i a)

/-- The expression that is made of a row of operands and operators. -/
def group (x : α) (row : List (ι × α)) : Expression α ι :=
  row.foldl (fun t p => T.attach t p.1 p.2) (.operand x)

variable {T} {i j : ι} {a x : α} {t t' l r : Expression α ι} {row before after : List (ι × α)}

/-! ### Vetoes between two operators -/

theorem length_rule (i : ι) : (T.rule i).length = 3 := by
  unfold Rule.length
  rw [T.rule_rhs]
  rfl

/-- Operands are never forbidden. -/
theorem veto?_operand (i : ι) (dot : Nat) : T.veto? i T.operand dot = none := by
  unfold veto?
  rw [T.operand_operators, T.rule_operators]
  cases T.side i <;> simp [Side.operators, Operators.veto?, Operators.none, Operators.tighter?,
    Operators.shared?]

/-- What an operator takes as its left operand. -/
theorem veto?_left : T.veto? i (T.rule j) 0 = none ↔ T.Takes i j := by
  have hsame := T.same_iff i j
  unfold veto? Takes
  rw [length_rule, T.rule_operators, T.rule_operators, Side.veto?_eq_none_iff, hsame]
  cases T.side i <;> grind

/-- What an operator takes as its right operand. -/
theorem veto?_right : T.veto? i (T.rule j) 2 = none ↔ T.precedence i < T.precedence j ∨
    T.precedence i = T.precedence j ∧ T.side i = .right := by
  have hsame := T.same_iff i j
  unfold veto?
  rw [length_rule, T.rule_operators, T.rule_operators, Side.veto?_eq_none_iff, hsame]
  cases T.side i <;> grind

/-- An operator that does not take an earlier one is taken by it. -/
theorem veto?_of_not_takes (h : ¬ T.Takes i j) : T.veto? j (T.rule i) 2 = none := by
  rw [veto?_right]
  unfold Takes at h
  rcases Int.lt_trichotomy (T.precedence j) (T.precedence i) with hlt | heq | hlt
  · exact .inl hlt
  · -- operators of one precedence go the same way
    have hside := ((T.same_iff j i).2 heq).1
    refine .inr ⟨heq, ?_⟩
    cases hs : T.side j with
    | left => exact absurd (.inr ⟨heq.symm, hside ▸ hs⟩) h
    | right => rfl
  · exact absurd (.inl hlt) h

/-! ### Attaching operators one by one -/

theorem first_attach (t : Expression α ι) (i : ι) (a : α) : (T.attach t i a).first = t.first := by
  cases t with
  | operand b => rfl
  | node j l r =>
      unfold attach
      split <;> rfl

theorem rest_attach (t : Expression α ι) (i : ι) (a : α) :
    (T.attach t i a).rest = t.rest ++ [(i, a)] := by
  induction t with
  | operand b => rfl
  | node j l r _ ih =>
      unfold attach
      split
      · rfl
      · simp only [Expression.rest, ih, first_attach, List.append_assoc, List.cons_append]

/-- At the root is what was there, or the new operator. -/
theorem ruleOf_attach (t : Expression α ι) (i : ι) (a : α) :
    T.ruleOf (T.attach t i a) = T.rule i ∨ T.ruleOf (T.attach t i a) = T.ruleOf t := by
  cases t with
  | operand b => exact .inl rfl
  | node j l r =>
      unfold attach
      split
      · exact .inl rfl
      · exact .inr rfl

/-- **Nothing is forbidden by attaching an operator.** -/
theorem Allowed.attach (h : T.Allowed t) (i : ι) (a : α) : T.Allowed (T.attach t i a) := by
  induction t with
  | operand b => exact ⟨veto?_operand i 0, veto?_operand i 2, trivial, trivial⟩
  | node j l r _ ih =>
      obtain ⟨hl, hr, hl', hr'⟩ := h
      unfold OperatorTable.attach
      by_cases htakes : T.Takes i j
      · rw [if_pos htakes]
        exact ⟨veto?_left.2 htakes, veto?_operand i 2, ⟨hl, hr, hl', hr'⟩, trivial⟩
      · rw [if_neg htakes]
        refine ⟨hl, ?_, hl', ih hr'⟩
        rcases ruleOf_attach r i a with hrule | hrule
        · rw [hrule]
          exact veto?_of_not_takes htakes
        · rw [hrule]
          exact hr

/-- Attaching a row of operators reads the row and forbids nothing. -/
theorem foldl_attach (row : List (ι × α)) (h : T.Allowed t) :
    (row.foldl (fun t p => T.attach t p.1 p.2) t).first = t.first ∧
      (row.foldl (fun t p => T.attach t p.1 p.2) t).rest = t.rest ++ row ∧
        T.Allowed (row.foldl (fun t p => T.attach t p.1 p.2) t) := by
  induction row generalizing t with
  | nil => exact ⟨rfl, (List.append_nil _).symm, h⟩
  | cons p row ih =>
      obtain ⟨hfirst, hrest, hallowed⟩ := ih (h.attach p.1 p.2)
      refine ⟨hfirst.trans (first_attach t p.1 p.2), ?_, hallowed⟩
      rw [List.foldl_cons, hrest, rest_attach, List.append_assoc, List.singleton_append]

/-! ### The root of an allowed expression -/

theorem Takes.le (h : T.Takes i j) : T.precedence i ≤ T.precedence j := by
  rcases h with hlt | ⟨heq, -⟩
  · exact Int.le_of_lt hlt
  · exact Int.le_of_eq heq

theorem le_of_veto?_right (h : T.veto? i (T.rule j) 2 = none) :
    T.precedence i ≤ T.precedence j := by
  rcases veto?_right.1 h with hlt | ⟨heq, -⟩
  · exact Int.le_of_lt hlt
  · exact Int.le_of_eq heq

/-- What an allowed expression has at its root binds least tightly. -/
theorem Allowed.least (h : T.Allowed t) (hroot : t.root? = some i) :
    ∀ p ∈ t.rest, T.precedence i ≤ T.precedence p.1 := by
  induction t generalizing i with
  | operand b => simp [Expression.rest]
  | node j l r ihl ihr =>
      obtain rfl := Option.some.inj hroot
      obtain ⟨hl, hr, hl', hr'⟩ := h
      intro p hp
      rcases List.mem_append.1 hp with hp | hp
      · cases l with
        | operand b => simp [Expression.rest] at hp
        | node k l₁ l₂ => exact Int.le_trans (veto?_left.1 hl).le (ihl hl' rfl p hp)
      · rcases List.mem_cons.1 hp with rfl | hp
        · exact Int.le_refl _
        · cases r with
          | operand b => simp [Expression.rest] at hp
          | node k r₁ r₂ => exact Int.le_trans (le_of_veto?_right hr) (ihr hr' rfl p hp)

/-- What stands in a left operand. -/
theorem Allowed.below_left (h : T.Allowed t) (hv : T.veto? i (T.ruleOf t) 0 = none) :
    ∀ p ∈ t.rest, T.precedence i ≤ T.precedence p.1 ∧
      (T.side i = .right → T.precedence i < T.precedence p.1) := by
  cases t with
  | operand b => simp [Expression.rest]
  | node k l r =>
      intro p hp
      have hle := h.least rfl p hp
      rcases veto?_left.1 hv with hlt | ⟨heq, hside⟩
      · exact ⟨by omega, fun _ => by omega⟩
      · exact ⟨by omega, fun hright => by simp [hside] at hright⟩

/-- What stands in a right operand. -/
theorem Allowed.below_right (h : T.Allowed t) (hv : T.veto? i (T.ruleOf t) 2 = none) :
    ∀ p ∈ t.rest, T.precedence i ≤ T.precedence p.1 ∧
      (T.side i = .left → T.precedence i < T.precedence p.1) := by
  cases t with
  | operand b => simp [Expression.rest]
  | node k l r =>
      intro p hp
      have hle := h.least rfl p hp
      rcases veto?_right.1 hv with hlt | ⟨heq, hside⟩
      · exact ⟨by omega, fun _ => by omega⟩
      · exact ⟨by omega, fun hleft => by simp [hside] at hleft⟩

/-- **Every operator of an allowed expression is the root** of what it stands over. -/
theorem Allowed.grouped (h : T.Allowed t) : T.Grouped t := by
  induction t with
  | operand b => trivial
  | node i l r ihl ihr =>
      obtain ⟨hl, hr, hl', hr'⟩ := h
      have hbefore := hl'.below_left hl
      have hafter := hr'.below_right hr
      refine ⟨⟨fun p hp => ?_, fun hside p hp => (hafter p hp).2 hside,
        fun hside p hp => (hbefore p hp).2 hside⟩, ihl hl', ihr hr'⟩
      rcases List.mem_append.1 hp with hp | hp
      · exact (hbefore p hp).1
      · exact (hafter p hp).1

/-! ### One root -/

/-- An operator that stands behind a root is none. -/
theorem IsRoot.not_behind {middle : List (ι × α)} {b : α}
    (h : T.IsRoot i before (middle ++ (j, b) :: after))
    (h' : T.IsRoot j (before ++ (i, a) :: middle) after) : False := by
  have hle := h.least (j, b) (by simp)
  have hle' := h'.least (i, a) (by simp)
  have hside := ((T.same_iff i j).2 (Int.le_antisymm hle hle')).1
  cases hs : T.side i with
  | left =>
      exact absurd hle' (Int.not_le.2 (h.last hs (j, b) (by simp)))
  | right =>
      exact absurd hle (Int.not_le.2 (h'.first (hside ▸ hs) (i, a) (by simp)))

/-- **A row of operators has one root.** -/
theorem IsRoot.unique {before' after' : List (ι × α)} {b : α} (h : T.IsRoot i before after)
    (h' : T.IsRoot j before' after')
    (heq : before ++ (i, a) :: after = before' ++ (j, b) :: after') :
    before = before' ∧ (i, a) = (j, b) ∧ after = after' := by
  rcases List.append_eq_append_iff.1 heq with ⟨middle, hbefore, hafter⟩ | ⟨middle, hbefore, hafter⟩
  · cases middle with
    | nil =>
        obtain ⟨hp, rfl⟩ := List.cons_eq_cons.1 hafter
        exact ⟨by simpa using hbefore.symm, hp, rfl⟩
    | cons p middle =>
        obtain ⟨rfl, rfl⟩ := List.cons_eq_cons.1 hafter
        subst hbefore
        exact (h.not_behind h').elim
  · cases middle with
    | nil =>
        obtain ⟨hp, rfl⟩ := List.cons_eq_cons.1 hafter
        exact ⟨by simpa using hbefore, hp.symm, rfl⟩
    | cons p middle =>
        obtain ⟨rfl, rfl⟩ := List.cons_eq_cons.1 hafter
        subst hbefore
        exact (h'.not_behind h).elim

/-- So the row determines the expression. -/
theorem Grouped.unique (h : T.Grouped t) (h' : T.Grouped t') (hfirst : t.first = t'.first)
    (hrest : t.rest = t'.rest) : t = t' := by
  induction t generalizing t' with
  | operand b =>
      cases t' with
      | operand b' => exact congrArg _ hfirst
      | node j l' r' => simp [Expression.rest] at hrest
  | node i l r ihl ihr =>
      cases t' with
      | operand b' => simp [Expression.rest] at hrest
      | node j l' r' =>
          obtain ⟨hl, hp, hr⟩ := h.1.unique h'.1 hrest
          obtain ⟨rfl, hfirst'⟩ := Prod.mk.inj hp
          rw [ihl h.2.1 h'.2.1 hfirst hl, ihr h.2.2 h'.2.2 hfirst' hr]

/-- **One expression without a veto** can be made of a row of operands and operators.  It has at its root the
last one of the operators that bind least tightly, or the first one if they associate to the right, and so
has each of its operands. -/
theorem allowed_iff_eq_group (T : OperatorTable ι) (x : α) (row : List (ι × α)) :
    (∀ t : Expression α ι, t.first = x ∧ t.rest = row ∧ T.Allowed t ↔ t = T.group x row) ∧
      T.Grouped (T.group x row) := by
  obtain ⟨hfirst, hrest, hallowed⟩ :=
    foldl_attach (T := T) (t := .operand x) row trivial
  refine ⟨fun t => ⟨?_, ?_⟩, hallowed.grouped⟩
  · rintro ⟨htfirst, htrest, ht⟩
    exact ht.grouped.unique hallowed.grouped (htfirst.trans hfirst.symm) (htrest.trans hrest.symm)
  · rintro rfl
    exact ⟨hfirst, hrest, hallowed⟩

end OperatorTable

/-! ### Arithmetic -/

/-- The operators of arithmetic. -/
inductive Sign where
  | plus
  | minus
  | times
  | power
deriving DecidableEq, Repr

namespace Sign

/-- How an operator is written. -/
def text : Sign → String
  | plus => "+"
  | minus => "-"
  | times => "*"
  | power => "^"

/-- How tightly an operator binds. -/
def precedence : Sign → Int
  | plus | minus => 10
  | times => 20
  | power => 40

/-- Powers are grouped from the right. -/
def side : Sign → Side
  | power => .right
  | plus | minus | times => .left

/-- Plus and minus go together. -/
def cls : Sign → String
  | plus | minus => "pm"
  | times => "md"
  | power => "pow"

/-- The rule of an operator. -/
def rule (s : Sign) : Rule :=
  let plain := (Rule.of "EXP" [.nonterminal "EXP", .literal s.text, .nonterminal "EXP"]).withPrecedence
    "exp" s.precedence
  match s.side with
  | .left => plain.withLeft s.cls
  | .right => plain.withRight s.cls

/-- The rules of arithmetic. -/
def table : OperatorTable Sign where
  name := "EXP"
  scale := "exp"
  sign s := .literal s.text
  precedence := precedence
  side := side
  cls := cls
  rule := rule
  operand := .of "EXP" [.literal "x"]
  rule_lhs s := by cases s <;> rfl
  rule_rhs s := by cases s <;> rfl
  rule_operators s := by cases s <;> rfl
  operand_lhs := rfl
  operand_operators := rfl
  same_iff s s' := by cases s <;> cases s' <;> decide

/-- Of the expressions that read `1 - 2 * 3 ^ 4 ^ 5 + 6`, the one that the rules of arithmetic allow. -/
theorem allowed_iff_eq_arithmetic :
    (∀ t : Expression Nat Sign,
        t.first = 1 ∧
            t.rest = [(minus, 2), (times, 3), (power, 4), (power, 5), (plus, 6)] ∧ table.Allowed t ↔
          t = .node plus (.node minus (.operand 1) (.node times (.operand 2)
            (.node power (.operand 3) (.node power (.operand 4) (.operand 5))))) (.operand 6)) ∧
      table.Grouped (.node plus (.node minus (.operand 1) (.node times (.operand 2)
        (.node power (.operand 3) (.node power (.operand 4) (.operand 5))))) (.operand 6)) := by
  have hgroup : table.group 1 [(minus, 2), (times, 3), (power, 4), (power, 5), (plus, 6)] =
      .node plus (.node minus (.operand 1) (.node times (.operand 2)
        (.node power (.operand 3) (.node power (.operand 4) (.operand 5))))) (.operand 6) := by
    decide
  rw [← hgroup]
  exact table.allowed_iff_eq_group 1 _

end Sign

end ChartParsing
