import ChartParsing.Proofs.Agreement.Derivations
import Mathlib.Data.List.Nodup

/-!
# Derivation trees

A derivation tree says in full how a rule takes a stretch of the input: which text each terminal of it
matched where, and which rule each nonterminal stands for, with a tree of its own.  `IsTree` tells the
trees of a rule over a stretch without any chart, and `Tree.reading` reads a tree from its leaves up.

The trees of the first symbols of a rule are told apart by the last one of them: `Ends` is what they have
to be if the last symbol starts at `p`, and `Ends.unique` says that they belong to one split only.
-/

namespace ChartParsing

/-- A text that a terminal matched, with the blanks behind it, or a rule with a tree for each of its
symbols. -/
inductive Tree (rules : Array Rule) where
  | leaf (text : String) (start stop : Nat)
  | node (number : Fin rules.size) (start stop : Nat) (children : List (Tree rules))

namespace Tree

variable {rules : Array Rule}

mutual

/-- The reading of a tree: a rule reads what its children read. -/
def reading : Tree rules → Reading
  | leaf text start stop => .leaf text (.offset start) (.offset stop)
  | node number start stop children =>
      (readings children).apply rules[number].action rules[number].weight rules[number].lhs
        (.offset start) (.offset stop)

/-- The readings of several trees. -/
def readings : List (Tree rules) → Arguments
  | [] => []
  | t :: rest => t.reading :: readings rest

end

theorem readings_eq_map (trees : List (Tree rules)) : readings trees = trees.map reading := by
  induction trees with
  | nil => rfl
  | cons t rest ih => rw [readings, ih, List.map_cons]

/-- The rule of a tree, if it is not a leaf. -/
def number? : Tree rules → Option (Fin rules.size)
  | leaf _ _ _ => none
  | node number _ _ _ => some number

/-- Where a tree starts. -/
def start : Tree rules → Nat
  | leaf _ start _ => start
  | node _ start _ _ => start

/-- Each row of trees, followed by each of the trees. -/
def rows (rows : List (List (Tree rules))) (trees : List (Tree rules)) : List (List (Tree rules)) :=
  rows.flatMap (fun row => trees.map (fun t => row ++ [t]))

variable {rs : List (List (Tree rules))} {ts row : List (Tree rules)}

theorem mem_rows : row ∈ rows rs ts ↔ ∃ row' ∈ rs, ∃ t ∈ ts, row' ++ [t] = row := by
  simp [rows]

theorem nodup_rows (hrs : rs.Nodup) (hts : ts.Nodup) : (rows rs ts).Nodup := by
  refine List.nodup_flatMap.2 ⟨fun row _ => ?_, ?_⟩
  · exact hts.map (fun t t' h => by simpa using h)
  · refine hrs.imp (fun {a b} hab x hx hx' => ?_)
    obtain ⟨t, -, rfl⟩ := List.mem_map.1 hx
    obtain ⟨t', -, h⟩ := List.mem_map.1 hx'
    exact hab (List.append_inj_left' h (by simp)).symm

/-- The readings of a row come of those of the row before it and of its last tree. -/
theorem product_readings : Arguments.product (rs.map readings) (ts.map reading) =
    (rows rs ts).map readings := by
  unfold Arguments.product rows
  rw [List.flatMap_map, List.map_flatMap]
  refine List.flatMap_congr (fun row _ => ?_)
  unfold Arguments.extendBy
  rw [List.map_map, List.map_map]
  refine List.map_congr_left (fun t _ => ?_)
  show readings row ++ [t.reading] = readings (row ++ [t])
  rw [readings_eq_map, readings_eq_map, List.map_append]
  rfl

end Tree

namespace Parser

variable {g : Grammar} {lexer : Lexer} {input : Text} {r : g.RuleId} {d s p q e : Nat}
  {y y' : Option g.RuleId} {ts : List (Tree g.rules)}

/-- Trees for the first `d` symbols of a rule, one behind the other from `s` to `e`.  The operators allow
every rule below the one that it stands in. -/
inductive Subtrees (lexer : Lexer) (input : Text) :
    g.RuleId → Nat → Nat → Nat → List (Tree g.rules) → Prop
  | start (r : g.RuleId) (s : Nat) : Subtrees lexer input r 0 s s []
  | terminal {r : g.RuleId} {d s p e : Nat} {ts : List (Tree g.rules)} {t : Symbol} {text : String}
      (h : Subtrees lexer input r d s p ts) (ht : (g.rule r).rhs[d]? = some t)
      (hn : t.isNonterminal = false) (hm : lexer t input p = some ⟨[text], e⟩) :
      Subtrees lexer input r (d + 1) s e (ts ++ [.leaf text p e])
  | nonterminal {r r' : g.RuleId} {d s p e : Nat} {ts ts' : List (Tree g.rules)}
      (h : Subtrees lexer input r d s p ts)
      (ht : (g.rule r).rhs[d]? = some (.nonterminal (g.rule r').lhs))
      (hc : Subtrees lexer input r' (g.rule r').length p e ts')
      (hv : (g.rule r).operators.veto? (g.rule r').operators d (g.rule r).length = none) :
      Subtrees lexer input r (d + 1) s e (ts ++ [.node r' p e ts'])

/-- A derivation tree of the rule over the stretch from one offset to another. -/
def IsTree (lexer : Lexer) (input : Text) (r : g.RuleId) (s e : Nat) (t : Tree g.rules) : Prop :=
  ∃ ts, t = .node r s e ts ∧ Subtrees lexer input r (g.rule r).length s e ts

/-- Trees for the first `d + 1` symbols of the rule, of which the last one starts at `p`.  It is a leaf, or
a tree of the given rule. -/
inductive Ends (lexer : Lexer) (input : Text) (r : g.RuleId) (d s p e : Nat) :
    Option g.RuleId → List (Tree g.rules) → Prop
  | terminal {ts : List (Tree g.rules)} {t : Symbol} {text : String}
      (h : Subtrees lexer input r d s p ts) (ht : (g.rule r).rhs[d]? = some t)
      (hn : t.isNonterminal = false) (hm : lexer t input p = some ⟨[text], e⟩) :
      Ends lexer input r d s p e none (ts ++ [.leaf text p e])
  | nonterminal {r' : g.RuleId} {ts ts' : List (Tree g.rules)} (h : Subtrees lexer input r d s p ts)
      (ht : (g.rule r).rhs[d]? = some (.nonterminal (g.rule r').lhs))
      (hc : Subtrees lexer input r' (g.rule r').length p e ts')
      (hv : (g.rule r).operators.veto? (g.rule r').operators d (g.rule r).length = none) :
      Ends lexer input r d s p e (some r') (ts ++ [.node r' p e ts'])

theorem subtrees_zero : Subtrees lexer input r 0 s e ts ↔ s = e ∧ ts = [] := by
  constructor
  · intro h
    cases h with
    | start _ _ => exact ⟨rfl, rfl⟩
  · rintro ⟨rfl, rfl⟩
    exact .start r s

theorem subtrees_succ :
    Subtrees lexer input r (d + 1) s e ts ↔ ∃ p y, Ends lexer input r d s p e y ts := by
  constructor
  · intro h
    cases h with
    | terminal h ht hn hm => exact ⟨_, _, .terminal h ht hn hm⟩
    | nonterminal h ht hc hv => exact ⟨_, _, .nonterminal h ht hc hv⟩
  · rintro ⟨p, y, h⟩
    cases h with
    | terminal h ht hn hm => exact .terminal h ht hn hm
    | nonterminal h ht hc hv => exact .nonterminal h ht hc hv

/-- The rows that end in a terminal, once it is known what that matches. -/
theorem ends_terminal_iff {t : Symbol} {text : String} (ht : (g.rule r).rhs[d]? = some t)
    (hn : t.isNonterminal = false) (hm : lexer t input p = some ⟨[text], e⟩) :
    Ends lexer input r d s p e none ts ↔
      ∃ row, Subtrees lexer input r d s p row ∧ row ++ [.leaf text p e] = ts := by
  constructor
  · intro h
    cases h with
    | @terminal row t' text' h ht' _ hm' =>
        obtain rfl := Option.some.inj (ht.symm.trans ht')
        obtain rfl : text = text' := by simpa using hm.symm.trans hm'
        exact ⟨row, h, rfl⟩
  · rintro ⟨row, h, rfl⟩
    exact .terminal h ht hn hm

/-- The rows that end in a tree of a rule that may stand there. -/
theorem ends_nonterminal_iff {r' : g.RuleId}
    (ht : (g.rule r).rhs[d]? = some (.nonterminal (g.rule r').lhs))
    (hv : (g.rule r).operators.veto? (g.rule r').operators d (g.rule r).length = none) :
    Ends lexer input r d s p e (some r') ts ↔ ∃ row row', Subtrees lexer input r d s p row ∧
      Subtrees lexer input r' (g.rule r').length p e row' ∧ row ++ [.node r' p e row'] = ts := by
  constructor
  · intro h
    cases h with
    | nonterminal h _ hc _ => exact ⟨_, _, h, hc, rfl⟩
  · rintro ⟨row, row', h, hc, rfl⟩
    exact .nonterminal h ht hc hv

/-- What has trees is spelled. -/
theorem Subtrees.spells (h : Subtrees lexer input r d s e ts) :
    ∃ k, Spells lexer input r d s e k := by
  induction h with
  | start r s => exact ⟨0, .start r s⟩
  | terminal _ ht hn hm ih =>
      obtain ⟨k, hk⟩ := ih
      exact ⟨k + 1, .terminal hk ht hn hm⟩
  | nonterminal _ ht _ hv ih ih' =>
      obtain ⟨k, hk⟩ := ih
      obtain ⟨l, hl⟩ := ih'
      exact ⟨k + l, .nonterminal hk ht hl hv⟩

/-- The last one of the trees is found at a split. -/
theorem Ends.splits (h : Ends lexer input r d s p e y ts) : Splits lexer input r d s p e y := by
  cases h with
  | terminal h ht hn hm =>
      obtain ⟨k, hk⟩ := h.spells
      exact .terminal hk ht hn hm rfl
  | nonterminal h ht hc hv =>
      obtain ⟨k, hk⟩ := h.spells
      obtain ⟨l, hl⟩ := hc.spells
      exact .nonterminal hk ht hl hv

/-- The last one of the trees tells where it starts and which rule it is of. -/
theorem Ends.getLast? (h : Ends lexer input r d s p e y ts) :
    ∃ t, ts.getLast? = some t ∧ t.start = p ∧ t.number? = y := by
  cases h with
  | terminal _ _ _ _ => exact ⟨_, List.getLast?_concat, rfl, rfl⟩
  | nonterminal _ _ _ _ => exact ⟨_, List.getLast?_concat, rfl, rfl⟩

/-- **The same trees are found at one split only.** -/
theorem Ends.unique (h : Ends lexer input r d s p e y ts) (h' : Ends lexer input r d s q e y' ts) :
    p = q ∧ y = y' := by
  obtain ⟨t, ht, rfl, rfl⟩ := h.getLast?
  obtain ⟨t', ht', rfl, rfl⟩ := h'.getLast?
  obtain rfl := Option.some.inj (ht.symm.trans ht')
  exact ⟨rfl, rfl⟩

end Parser

end ChartParsing
