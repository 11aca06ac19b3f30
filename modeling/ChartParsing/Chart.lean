import ChartParsing.Chart.Edge
import ChartParsing.Failure

/-!
# Charts

A chart holds the edges that were found, each once, numbered in the order in which they were found.  It
also says what is still to be done with them: `processed` edges are done, the `agenda` lists the edges
to come, and edges in front of a gap are `deferred` until nothing else is left.  Edges can be `staged`:
they count as processed once the agenda has been set up.

All look-ups answer with the numbers of edges, in increasing order.
-/

namespace ChartParsing

/-- Where a new edge is put. -/
inductive Destination where
  | agenda
  | staged
deriving DecidableEq, Repr

/-- The edges found so far and the order of work on them. -/
structure Chart (rules : Array Rule) where
  edges : Array (Edge rules)
  processed : List Nat
  agenda : List Nat
  staged : List Nat
  deferred : List Nat

namespace Chart

variable {rules : Array Rule}

/-- The chart without edges. -/
def empty : Chart rules := ⟨#[], [], [], [], []⟩

/-- How many edges there are. -/
def size (c : Chart rules) : Nat := c.edges.size

/-- The edge with a number. -/
def edge? (c : Chart rules) (n : Nat) : Option (Edge rules) := c.edges[n]?

/-- The item of the edge with a number. -/
def item? (c : Chart rules) (n : Nat) : Option (Item rules) := (c.edge? n).map Edge.item

/-- The number of the edge with this item. -/
def find? (c : Chart rules) (i : Item rules) : Option Nat :=
  c.edges.findIdx? (fun e => e.item = i)

/-- Processed edges and the agenda behind them. -/
def order (c : Chart rules) : List Nat := c.processed ++ c.agenda

/-- The edges in the order of the chart; deferred ones come last. -/
def listed (c : Chart rules) : List Nat := c.order ++ c.deferred

/-! ### Looking up -/

/-- The edges whose items satisfy `p`. -/
def select (c : Chart rules) (p : Item rules → Bool) : List Nat :=
  (List.range c.size).filter (fun n => (c.item? n).any p)

/-- The open edges that end at a place and want this nonterminal. -/
def waiting (c : Chart rules) (name : String) (place : Position) : List Nat :=
  c.select (fun i => i.wanted? = some name ∧ i.stop = place)

/-- The open edges that want this nonterminal. -/
def allWaiting (c : Chart rules) (name : String) : List Nat :=
  c.select (fun i => i.wanted? = some name)

/-- The finished edges for a nonterminal that start at a place; all of them if that is anywhere. -/
def reduced (c : Chart rules) (lhs : String) (place : Position) : List Nat :=
  c.select (fun i => i.isReduced ∧ i.lhs = lhs ∧ (place = .anywhere ∨ i.start = place))

/-- The finished edges for a nonterminal that start anywhere. -/
def floatingReduced (c : Chart rules) (lhs : String) : List Nat :=
  c.select (fun i => i.isReduced ∧ i.lhs = lhs ∧ i.isFloating)

/-! ### Adding edges -/

/-- Puts a new edge where it belongs; one in front of a gap is deferred. -/
def push (c : Chart rules) (e : Edge rules) (place : Destination) : Chart rules :=
  let n := c.size
  let c := { c with edges := c.edges.push e }
  if e.item.isAtGap then { c with deferred := c.deferred ++ [n] }
  else match place with
    | .agenda => { c with agenda := c.agenda ++ [n] }
    | .staged => { c with staged := c.staged ++ [n] }

/-- Adds derivations to an edge. -/
def learn (c : Chart rules) (n : Nat) (ds : List Derivation) : Chart rules :=
  { c with edges := c.edges.modify n (fun e => e.learnAll ds) }

/-- Adds an edge, or its derivations to the edge with the same item.  Also answers the number of the
edge. -/
def add (c : Chart rules) (e : Edge rules) (place : Destination) : Chart rules × Nat :=
  match c.find? e.item with
  | some n => (c.learn n e.derivations, n)
  | none => (c.push e place, c.size)

/-- Adds the derivations of another edge to an edge, which must have the same item. -/
def merge (c : Chart rules) (into : Nat) (source : Edge rules) : Except Failure (Chart rules) :=
  match c.edge? into with
  | none => .ok c
  | some target =>
      if target.item = source.item then .ok (c.learn into source.derivations)
      else .error (.differentEdges source.item.render target.item.render)

/-- Predicts a rule at a place. -/
def predict (c : Chart rules) (number : Fin rules.size) (place : Position) : Chart rules × Nat :=
  c.add ⟨.initial number place, []⟩ .agenda

/-- Why the rule of one item may not take the rule of another behind its dot. -/
def veto? (base child : Item rules) : Option Veto :=
  base.rule.operators.veto? child.rule.operators base.dot base.rule.length

/-- Moves the dot of an open edge over a finished one, unless the operators forbid it. -/
def advance (c : Chart rules) (base child : Nat) : Chart rules × Option Nat :=
  match c.item? base, c.item? child with
  | some o, some f =>
      if (veto? o f).isSome then (c, none)
      else
        let (c, n) := c.add ⟨o.joined f, [⟨some base, some child, none⟩]⟩ .agenda
        (c, some n)
  | _, _ => (c, none)

/-- Moves the dot of an edge over a terminal that ends at `stop`.  A start can be given for an edge
that started anywhere. -/
def scan (c : Chart rules) (base : Nat) (stop : Position) (texts : List String)
    (start : Option Position) : Chart rules × Nat :=
  match c.item? base with
  | some o => c.add ⟨o.step (start.getD o.start) stop, [⟨some base, none, some texts⟩]⟩ .agenda
  | none => (c, base)

/-- Starts a rule whose first terminal was found already: the edge in front of it is staged, the one
behind it goes on the agenda. -/
def seed (c : Chart rules) (number : Fin rules.size) (start stop : Nat) (texts : List String) :
    Chart rules × Nat :=
  let (c, base) := c.add ⟨.initial number (.offset start), []⟩ .staged
  c.scan base (.offset stop) texts none

/-! ### The order of work -/

/-- Puts the staged edges in front of all others, as processed ones. -/
def settle (c : Chart rules) : Chart rules :=
  { c with processed := c.staged ++ c.processed, staged := [] }

/-- Takes the next edge from the agenda. -/
def next? (c : Chart rules) : Option (Nat × Chart rules) :=
  match c.agenda with
  | [] => none
  | n :: rest => some (n, { c with processed := c.processed ++ [n], agenda := rest })

/-- Takes the deferred edges, which count as processed from now on. -/
def takeDeferred (c : Chart rules) : List Nat × Chart rules :=
  (c.deferred, { c with processed := c.processed ++ c.deferred, deferred := [] })

/-- How many edges are on the agenda. -/
def agendaSize (c : Chart rules) : Nat := c.agenda.length

/-- Are there deferred edges? -/
def hasDeferred (c : Chart rules) : Bool := !c.deferred.isEmpty

/-! ### Text -/

/-- The number of an edge in a column of six characters. -/
def numberColumn (n : Nat) : String :=
  let text := "#" ++ toString n
  String.ofList (List.replicate (6 - text.length) ' ') ++ text

/-- The lines of several edges; the `mark` tells what is done from what is to come. -/
def renderEdges (c : Chart rules) (mark : String) (numbers : List Nat) : List String :=
  numbers.filterMap (fun n =>
    (c.item? n).map (fun i => mark ++ numberColumn n ++ " " ++ i.render))

/-- The lines of a chart, one for each edge; what is still to be done has a mark in front. -/
def renderLines (c : Chart rules) : List String :=
  c.renderEdges " " c.processed ++ c.renderEdges ">" (c.agenda ++ c.deferred)

end Chart

end ChartParsing
