import ChartParsing.Chart.Operation
import ChartParsing.Table

/-!
# Stores

A store is a chart that keeps tables for its look-ups instead of looking through its edges.  Each new edge
is entered in all tables that it belongs in, and never again: neither its item nor its number changes.  The
order of work is one list with a mark in it, the `cursor`, in front of which the edges are processed.

`Store.toChart` forgets the tables.  Whatever can be done with a chart can be done with a store.
-/

namespace ChartParsing

/-! ### Tables -/

/-- The tables of a store. -/
structure Tables (rules : Array Rule) where
  /-- The numbers of edges by their items. -/
  keys : List (Item rules × Nat)
  /-- Finished edges by nonterminal and start; all of them are under `anywhere` too. -/
  reduced : Table (String × Position)
  /-- Finished edges that start anywhere, by nonterminal. -/
  floating : Table String
  /-- Open edges by the nonterminal that they want and the place where they stop. -/
  waiting : Table (String × Position)
  /-- Open edges by the nonterminal that they want. -/
  allWaiting : Table String

namespace Tables

variable {rules : Array Rule}

/-- The tables without entries. -/
def empty : Tables rules := ⟨[], [], [], [], []⟩

/-- Enters a new edge. -/
def enter (t : Tables rules) (n : Nat) (i : Item rules) : Tables rules where
  keys := (i, n) :: t.keys
  reduced :=
    if i.isReduced then
      (if i.isFloating then t.reduced else t.reduced.enter (i.lhs, i.start) n).enter
        (i.lhs, .anywhere) n
    else t.reduced
  floating := if i.isReduced && i.isFloating then t.floating.enter i.lhs n else t.floating
  waiting :=
    match i.wanted? with
    | some name => t.waiting.enter (name, i.stop) n
    | none => t.waiting
  allWaiting :=
    match i.wanted? with
    | some name => t.allWaiting.enter name n
    | none => t.allWaiting

end Tables

/-! ### Stores -/

/-- Edges, the tables for looking them up, and the order of work on them. -/
structure Store (rules : Array Rule) where
  edges : Array (Edge rules)
  tables : Tables rules
  /-- Processed edges, and the agenda behind them. -/
  order : List Nat
  /-- How many edges of the order are processed. -/
  cursor : Nat
  staged : List Nat
  deferred : List Nat

namespace Store

variable {rules : Array Rule}

/-- The store without edges. -/
def empty : Store rules := ⟨#[], .empty, [], 0, [], []⟩

/-- The chart of a store. -/
def toChart (s : Store rules) : Chart rules :=
  ⟨s.edges, s.order.take s.cursor, s.order.drop s.cursor, s.staged, s.deferred⟩

/-- The edge with a number. -/
def edge? (s : Store rules) (n : Nat) : Option (Edge rules) := s.edges[n]?

/-- The item of the edge with a number. -/
def item? (s : Store rules) (n : Nat) : Option (Item rules) := (s.edge? n).map Edge.item

/-- The number of the edge with this item. -/
def find? (s : Store rules) (i : Item rules) : Option Nat := s.tables.keys.lookup i

/-! ### Looking up -/

/-- The open edges that end at a place and want this nonterminal. -/
def waiting (s : Store rules) (name : String) (place : Position) : List Nat :=
  s.tables.waiting.get (name, place)

/-- The open edges that want this nonterminal. -/
def allWaiting (s : Store rules) (name : String) : List Nat := s.tables.allWaiting.get name

/-- The finished edges for a nonterminal that start at a place; all of them if that is anywhere. -/
def reduced (s : Store rules) (lhs : String) (place : Position) : List Nat :=
  s.tables.reduced.get (lhs, place)

/-- The finished edges for a nonterminal that start anywhere. -/
def floatingReduced (s : Store rules) (lhs : String) : List Nat := s.tables.floating.get lhs

/-! ### Adding edges -/

/-- Puts a new edge into the store and its number where it belongs; one in front of a gap is
deferred. -/
def push (s : Store rules) (e : Edge rules) (place : Destination) : Store rules :=
  let n := s.edges.size
  let s := { s with edges := s.edges.push e, tables := s.tables.enter n e.item }
  if e.item.isAtGap then { s with deferred := s.deferred ++ [n] }
  else match place with
    | .agenda => { s with order := s.order ++ [n] }
    | .staged => { s with staged := s.staged ++ [n] }

/-- Adds derivations to an edge. -/
def learn (s : Store rules) (n : Nat) (ds : List Derivation) : Store rules :=
  { s with edges := s.edges.modify n (fun e => e.learnAll ds) }

/-- Adds an edge, or its derivations to the edge with the same item.  Also answers the number of the
edge. -/
def add (s : Store rules) (e : Edge rules) (place : Destination) : Store rules × Nat :=
  match s.find? e.item with
  | some n => (s.learn n e.derivations, n)
  | none => (s.push e place, s.edges.size)

/-- Adds the derivations of another edge to an edge, which must have the same item. -/
def merge (s : Store rules) (into : Nat) (source : Edge rules) : Except Failure (Store rules) :=
  match s.edge? into with
  | none => .ok s
  | some target =>
      if target.item = source.item then .ok (s.learn into source.derivations)
      else .error (.differentEdges source.item.render target.item.render)

/-- Predicts a rule at a place. -/
def predict (s : Store rules) (number : Fin rules.size) (place : Position) : Store rules × Nat :=
  s.add ⟨.initial number place, []⟩ .agenda

/-- Moves the dot of an open edge over a finished one, unless the operators forbid it. -/
def advance (s : Store rules) (base child : Nat) : Store rules × Option Nat :=
  match s.item? base, s.item? child with
  | some o, some f =>
      if (Chart.veto? o f).isSome then (s, none)
      else
        let (s, n) := s.add ⟨o.joined f, [⟨some base, some child, none⟩]⟩ .agenda
        (s, some n)
  | _, _ => (s, none)

/-- Moves the dot of an edge over a terminal that ends at `stop`.  A start can be given for an edge
that started anywhere. -/
def scan (s : Store rules) (base : Nat) (stop : Position) (texts : List String)
    (start : Option Position) : Store rules × Nat :=
  match s.item? base with
  | some o => s.add ⟨o.step (start.getD o.start) stop, [⟨some base, none, some texts⟩]⟩ .agenda
  | none => (s, base)

/-- Starts a rule whose first terminal was found already. -/
def seed (s : Store rules) (number : Fin rules.size) (start stop : Nat) (texts : List String) :
    Store rules × Nat :=
  let (s, base) := s.add ⟨.initial number (.offset start), []⟩ .staged
  s.scan base (.offset stop) texts none

/-! ### The order of work -/

/-- Puts the staged edges in front of all others, as processed ones. -/
def settle (s : Store rules) : Store rules :=
  { s with order := s.staged ++ s.order, cursor := s.cursor + s.staged.length, staged := [] }

/-- Takes the next edge from the agenda. -/
def next? (s : Store rules) : Option (Nat × Store rules) :=
  match s.order[s.cursor]? with
  | none => none
  | some n => some (n, { s with cursor := s.cursor + 1 })

/-- Takes the deferred edges, which count as processed from now on. -/
def takeDeferred (s : Store rules) : List Nat × Store rules :=
  (s.deferred, { s with
    order := s.order.take s.cursor ++ s.deferred ++ s.order.drop s.cursor
    cursor := s.cursor + s.deferred.length
    deferred := [] })

/-! ### Operations -/

/-- Does an operation. -/
def perform (s : Store rules) : Operation rules → Store rules × Answer
  | .predict number place =>
      let (s, n) := s.predict number place
      (s, .edge (some n))
  | .seed number start stop texts =>
      let (s, n) := s.seed number start stop texts
      (s, .edge (some n))
  | .scan base stop texts start =>
      let (s, n) := s.scan base stop texts start
      (s, .edge (some n))
  | .advance base child =>
      let (s, n) := s.advance base child
      (s, .edge n)
  | .merge into source =>
      match s.merge into source with
      | .ok s => (s, .done)
      | .error e => (s, .failure e)
  | .settle => (s.settle, .done)
  | .next =>
      match s.next? with
      | some (n, s) => (s, .edge (some n))
      | none => (s, .edge none)
  | .takeDeferred =>
      let (numbers, s) := s.takeDeferred
      (s, .edges numbers)

/-- Does several operations, one after the other. -/
def performAll (s : Store rules) : List (Operation rules) → Store rules × List Answer
  | [] => (s, [])
  | op :: rest =>
      let (s, answer) := s.perform op
      let (s, answers) := performAll s rest
      (s, answer :: answers)

end Store

end ChartParsing
