import ChartParsing.Chart

/-!
# Operations on charts

What can be done with a chart, as data.  A run of operations is a list of them, whoever asks for it; a
parser is one that does.  Every operation has an answer.
-/

namespace ChartParsing

/-- What can be done with a chart. -/
inductive Operation (rules : Array Rule) where
  /-- Predict a rule at a place. -/
  | predict (number : Fin rules.size) (place : Position)
  /-- Start a rule whose first terminal was found already. -/
  | seed (number : Fin rules.size) (start stop : Nat) (texts : List String)
  /-- Move the dot of an edge over a terminal. -/
  | scan (base : Nat) (stop : Position) (texts : List String) (start : Option Position)
  /-- Move the dot of an edge over a finished one. -/
  | advance (base child : Nat)
  /-- Add the derivations of another edge to an edge. -/
  | merge (into : Nat) (source : Edge rules)
  /-- Put the staged edges in front, as processed ones. -/
  | settle
  /-- Take the next edge from the agenda. -/
  | next
  /-- Take the deferred edges. -/
  | takeDeferred

/-- What an operation answers. -/
inductive Answer where
  /-- The number of an edge, if there is one. -/
  | edge (number : Option Nat)
  /-- The numbers of several edges. -/
  | edges (numbers : List Nat)
  /-- Nothing but that it is done. -/
  | done
  | failure (e : Failure)

namespace Chart

variable {rules : Array Rule}

/-- Does an operation. -/
def perform (c : Chart rules) : Operation rules → Chart rules × Answer
  | .predict number place =>
      let (c, n) := c.predict number place
      (c, .edge (some n))
  | .seed number start stop texts =>
      let (c, n) := c.seed number start stop texts
      (c, .edge (some n))
  | .scan base stop texts start =>
      let (c, n) := c.scan base stop texts start
      (c, .edge (some n))
  | .advance base child =>
      let (c, n) := c.advance base child
      (c, .edge n)
  | .merge into source =>
      match c.merge into source with
      | .ok c => (c, .done)
      | .error e => (c, .failure e)
  | .settle => (c.settle, .done)
  | .next =>
      match c.next? with
      | some (n, c) => (c, .edge (some n))
      | none => (c, .edge none)
  | .takeDeferred =>
      let (numbers, c) := c.takeDeferred
      (c, .edges numbers)

/-- Does several operations, one after the other. -/
def performAll (c : Chart rules) : List (Operation rules) → Chart rules × List Answer
  | [] => (c, [])
  | op :: rest =>
      let (c, answer) := c.perform op
      let (c, answers) := performAll c rest
      (c, answer :: answers)

end Chart

end ChartParsing
