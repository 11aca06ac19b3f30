import ChartParsing.Chart.Preference
import ChartParsing.Reading

/-!
# Forests

A forest unfolds the derivations of a chart into readings.  A finished edge has readings; an open one
has lists of arguments, the readings of the symbols left of its dot.  Each edge is unfolded once, and
what came of it is kept for all edges that refer to it.

Derivations can be deep, and they can lead back to the edge that they belong to.  So the work is done
on a stack of frames, one for each edge that is being unfolded, and an edge that turns up again below
itself adds nothing there.  What was found under such a cut is not the whole of an edge: it goes to the
frame that asked for it but is not kept, unless the edge where it was cut is the frame's own.
-/

namespace ChartParsing

variable {rules : Array Rule}

/-- What an edge unfolds into. -/
inductive Expansion where
  /-- The readings of a finished edge. -/
  | readings (list : List Reading)
  /-- The lists of arguments of an open edge. -/
  | arguments (lists : List Arguments)

namespace Expansion

/-- The readings, if the edge was finished. -/
def toReadings : Expansion → List Reading
  | readings list => list
  | arguments _ => []

/-- The lists of arguments, if the edge was open. -/
def toArguments : Expansion → List Arguments
  | readings _ => []
  | arguments lists => lists

end Expansion

namespace Item

/-- The reading of a finished item over arguments. -/
def reading (i : Item rules) (args : Arguments) : Reading :=
  args.apply i.rule.action i.rule.weight i.lhs i.start i.stop

/-- What an item unfolds into once its lists of arguments are known. -/
def expansion (i : Item rules) (lists : List Arguments) : Expansion :=
  if i.isReduced then .readings (lists.map i.reading) else .arguments lists

/-- The readings of the texts that a terminal behind `base` matched, where this item came of it. -/
def leaves (i base : Item rules) (texts : List String) : List Reading :=
  texts.map (fun text => .leaf text (base.stop.orElse i.start) i.stop)

end Item

/-! ### Frames -/

/-- The smaller one of two depths, where there are any. -/
def lowerCut : Option Nat → Option Nat → Option Nat
  | none, b => b
  | some a, none => some a
  | some a, some b => some (min a b)

/-- An edge that is being unfolded. -/
structure Frame (rules : Array Rule) where
  edge : Nat
  item : Item rules
  depth : Nat
  /-- The derivations that are left, the one at hand first. -/
  pending : List Derivation
  /-- The arguments of the open edge of the derivation at hand, once they are known. -/
  bases : Option (List Arguments)
  /-- The lists of arguments found so far. -/
  found : List Arguments
  /-- The depth of the lowest frame at which something was cut. -/
  cut : Option Nat

/-- What came of unfolding an edge, and the lowest depth at which something was cut. -/
structure Unfolded where
  expansion : Expansion
  cut : Option Nat

namespace Frame

/-- Ends the derivation at hand: each list of arguments goes on with each of the readings. -/
def combine (f : Frame rules) (lists : List Arguments) (readings : List Reading) : Frame rules :=
  { f with
    pending := f.pending.tail
    bases := none
    found := f.found ++ Arguments.product lists readings }

/-- Takes what came of the edge that was asked for. -/
def receive (f : Frame rules) (u : Unfolded) : Frame rules :=
  let f := { f with cut := lowerCut f.cut u.cut }
  match f.bases with
  | none => { f with bases := some u.expansion.toArguments }
  | some lists => f.combine lists u.expansion.toReadings

/-- Goes through the derivations up to one that needs another edge.  The second part of the answer is
this edge; there is none if all derivations are done.  Of the texts of a terminal nothing more has to be
known, and a derivation without an open edge adds nothing. -/
def advance (chart : Chart rules) (f : Frame rules) : Frame rules × Option Nat :=
  go f.bases f.found f.pending
where
  /-- Goes through these derivations. -/
  go (bases : Option (List Arguments)) (found : List Arguments) :
      List Derivation → Frame rules × Option Nat
    | [] => ({ f with pending := [], bases, found }, none)
    | d :: rest =>
        let here : Frame rules := { f with pending := d :: rest, bases, found }
        match d.base, bases with
        | none, _ => go bases found rest
        | some base, none => (here, some base)
        | some base, some lists =>
            match d.texts, d.child with
            | some texts, _ =>
                let leaves := match chart.item? base with
                  | some i => f.item.leaves i texts
                  | none => []
                go none (found ++ Arguments.product lists leaves) rest
            | none, some child => (here, some child)
            | none, none => go none found rest

end Frame

/-! ### The forest -/

/-- What is known of the edges of a chart. -/
structure Forest (chart : Chart rules) where
  /-- What edges unfold into, as far as it is known in full. -/
  known : List (Nat × Expansion)
  /-- The edges that are being unfolded, and their depths. -/
  active : List (Nat × Nat)

/-- The work of unfolding an edge: the forest, the frames with the innermost one first, and what came of
the last edge if the innermost frame has not taken it yet. -/
structure Unfolding (chart : Chart rules) where
  forest : Forest chart
  stack : List (Frame rules)
  last : Option Unfolded

namespace Forest

variable {chart : Chart rules}

/-- The forest of which nothing is known. -/
def new (chart : Chart rules) : Forest chart := ⟨[], []⟩

/-- What an edge unfolds into where it is cut off: nothing. -/
def nothing (chart : Chart rules) (n : Nat) : Expansion :=
  match chart.item? n with
  | some i => i.expansion []
  | none => .arguments []

/-- Turns to an edge, for which a frame is put on the stack unless there is an answer at once. -/
def visit (f : Forest chart) (stack : List (Frame rules)) (n depth : Nat) : Unfolding chart :=
  match f.known.lookup n, f.active.lookup n, chart.item? n with
  | some e, _, _ => ⟨f, stack, some ⟨e, none⟩⟩
  | none, some cut, _ => ⟨f, stack, some ⟨nothing chart n, some cut⟩⟩
  | none, none, none => ⟨f, stack, some ⟨nothing chart n, none⟩⟩
  | none, none, some i =>
      if i.isPredicted then
        let e := i.expansion [[]]
        ⟨{ f with known := (n, e) :: f.known }, stack, some ⟨e, none⟩⟩
      else
        ⟨{ f with active := (n, depth) :: f.active },
          ⟨n, i, depth, chart.derivations n, none, [], none⟩ :: stack, none⟩

/-- Ends the innermost frame.  What came of it is kept unless it was cut at a frame further out. -/
def finish (f : Forest chart) (top : Frame rules) (rest : List (Frame rules)) : Unfolding chart :=
  let e := top.item.expansion top.found
  let active := f.active.filter (fun p => p.1 ≠ top.edge)
  if top.cut.all (fun cut => top.depth ≤ cut) then
    ⟨⟨(top.edge, e) :: f.known, active⟩, rest, some ⟨e, none⟩⟩
  else ⟨⟨f.known, active⟩, rest, some ⟨e, top.cut⟩⟩

end Forest

namespace Unfolding

variable {chart : Chart rules}

/-- One step of the work: the innermost frame takes what came of the last edge, and goes on to the next
one or ends. -/
def step (w : Unfolding chart) : Unfolding chart :=
  match w.stack with
  | [] => w
  | top :: rest =>
      let top := match w.last with
        | some u => top.receive u
        | none => top
      match top.advance chart with
      | (top, some n) => w.forest.visit (top :: rest) n (top.depth + 1)
      | (top, none) => w.forest.finish top rest

/-- Works until the stack is empty, but takes no more than `fuel` steps. -/
def run : Nat → Unfolding chart → Unfolding chart
  | 0, w => w
  | fuel + 1, w => if w.stack.isEmpty then w else run fuel w.step

end Unfolding

namespace Forest

variable {chart : Chart rules}

/-- A bound on the steps of unfolding an edge: a frame asks for two edges for each derivation, and the
frames on the stack are of different edges. -/
def steps (chart : Chart rules) : Nat :=
  let derivations := chart.edges.foldl (fun n e => n + e.derivations.length) 0
  Nat.pow (2 * derivations + 2) (chart.size + 2)

/-- What an edge unfolds into. -/
def expand (f : Forest chart) (n : Nat) : Forest chart × Expansion :=
  let w := (f.visit [] n 0).run (steps chart)
  (w.forest, match w.last with
    | some u => u.expansion
    | none => nothing chart n)

/-- The readings of a finished edge; an open one has none. -/
def results (f : Forest chart) (n : Nat) : Forest chart × List Reading :=
  let (f, e) := f.expand n
  (f, e.toReadings)

/-- The readings of several edges, one after the other. -/
def resultsOfAll (f : Forest chart) : List Nat → List Reading
  | [] => []
  | n :: rest =>
      let (f, readings) := f.results n
      readings ++ resultsOfAll f rest

end Forest

end ChartParsing
