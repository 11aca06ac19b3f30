import ChartParsing.Chart
import ChartParsing.NatSet

/-!
# Outermost entities

The edges that are reported are those of entities that belong to no other entity: no chain of
derivations leads to them from another finished entity with a place.
-/

namespace ChartParsing.Chart

variable {rules : Array Rule}

/-- The edges that an edge's derivations refer to. -/
def linksOf (c : Chart rules) (n : Nat) : List Nat :=
  match c.edge? n with
  | some e => e.links
  | none => []

/-- How many links there are in the chart. -/
def linkCount (c : Chart rules) : Nat :=
  c.edges.foldl (fun n e => n + e.links.length) 0

/-- Marks the edges of a worklist and all that links lead to from them.  Every step takes an edge off
the list, and the links of an edge are put on it once. -/
def mark (c : Chart rules) : Nat → NatSet → List Nat → NatSet
  | 0, marked, _ => marked
  | _ + 1, marked, [] => marked
  | fuel + 1, marked, n :: rest =>
      if marked.contains n then c.mark fuel marked rest
      else c.mark fuel (marked.insert n) (c.linksOf n ++ rest)

/-- The edges that at least one link leads to from one of the given edges. -/
def within (c : Chart rules) (numbers : List Nat) : NatSet :=
  let first := numbers.flatMap c.linksOf
  c.mark (first.length + c.linkCount) .empty first

/-- The finished edges of entities that have a place. -/
def entities (c : Chart rules) : List Nat :=
  c.listed.filter (fun n =>
    (c.item? n).any (fun i => i.rule.entity && i.isReduced && !i.isFloating))

/-- The entities that are part of no entity. -/
def outermost (c : Chart rules) : List Nat :=
  let inner := c.within c.entities
  c.entities.filter (fun n => !inner.contains n)

end ChartParsing.Chart
