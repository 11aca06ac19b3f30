import ChartParsing.Chart

/-!
# Preferred derivations

Of the derivations of an edge only some count.  Where the finished edges that were put in have
priorities, the highest one wins, and those without a priority come after it.  An edge that can start
anywhere is left out where the same rule was also put in at its place.
-/

namespace ChartParsing

/-- The greatest of several priorities. -/
def greatest? (priorities : List Int) : Option Int :=
  priorities.foldl (fun best p => match best with
    | some b => some (max b p)
    | none => some p) none

/-- What has the greatest priority, and then what has none. -/
def preferred {α : Type} (priority : α → Option Int) (list : List α) : List α :=
  match greatest? (list.filterMap priority) with
  | some best =>
      list.filter (fun a => priority a = some best) ++ list.filter (fun a => (priority a).isNone)
  | none => list

namespace Chart

variable {rules : Array Rule}

/-- The priority of the rule of an edge. -/
def priority? (c : Chart rules) (n : Nat) : Option Int := (c.item? n).bind (fun i => i.rule.priority)

/-- The priority of the finished edge in a derivation. -/
def childPriority? (c : Chart rules) (d : Derivation) : Option Int := d.child.bind c.priority?

/-- Is there an edge, and one that can start anywhere? -/
def isFloating (c : Chart rules) (n : Option Nat) : Bool :=
  (n.bind c.item?).any Item.isFloating

/-- Is there an edge, and one that has a place? -/
def isAnchored (c : Chart rules) (n : Option Nat) : Bool :=
  (n.bind c.item?).any (fun i => !i.isFloating)

/-- Are there two edges of one rule? -/
def sameRule (c : Chart rules) (a b : Option Nat) : Bool :=
  match a.bind c.item?, b.bind c.item? with
  | some i, some j => i.number = j.number
  | _, _ => false

/-- Does the first derivation stand in for the second one?  It does if it has an edge of the same rule
with a place where the other one has one that can start anywhere, and is the same otherwise.  The open
edge decides before the finished one. -/
def standsFor (c : Chart rules) (other d : Derivation) : Bool :=
  if c.isFloating d.base then
    c.isAnchored other.base && c.sameRule other.base d.base && other.child = d.child
  else if c.isFloating d.child then
    c.isAnchored other.child && c.sameRule other.child d.child && other.base = d.base
  else false

/-- The derivations of an edge that count. -/
def derivations (c : Chart rules) (n : Nat) : List Derivation :=
  match c.edge? n with
  | some e =>
      let best := preferred c.childPriority? e.derivations
      best.filter (fun d => !best.any (fun other => c.standsFor other d))
  | none => []

end Chart

end ChartParsing
