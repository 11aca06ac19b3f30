import ChartParsing.Chart.Store
import ChartParsing.Parser

/-!
# Parsing with a store

Here the work of a parser is done on a store.  What is added may be there already: then its derivations
are merged into the edge that the table of keys leads to, and this fails if that is another edge after
all.  So every addition may fail, and with it every step of a parser.  The first failure ends the work and
leaves the store as it was then.

The steps are those of `Parser`, one for one.
-/

namespace ChartParsing

/-- What is done with a store and may fail. -/
abbrev Work (rules : Array Rule) := ExceptT Failure (StateM (Store rules))

namespace Work

variable {rules : Array Rule} {α : Type}

/-- What the work comes to, and the store that it leaves. -/
def outcome (x : Work rules α) (s : Store rules) : Except Failure α × Store rules := x.run.run s

/-- Looks something up. -/
def look (f : Store rules → α) : Work rules α := return f (← get)

/-- Adds the derivations of another edge to an edge. -/
def merge (into : Nat) (source : Edge rules) : Work rules Unit := do
  match (← look (·.merge into source)) with
  | .ok s => set s
  | .error e => throw e

/-- Adds an edge, or merges it into the one that the table leads to. -/
def add (e : Edge rules) (place : Destination) : Work rules Nat := do
  match (← look (·.find? e.item)) with
  | some n =>
      merge n e
      return n
  | none =>
      let n ← look (·.edges.size)
      modify (·.push e place)
      return n

/-- Predicts a rule at a place. -/
def predict (number : Fin rules.size) (place : Position) : Work rules Nat :=
  add ⟨.initial number place, []⟩ .agenda

/-- Moves the dot of an open edge over a finished one, unless the operators forbid it. -/
def advance (base child : Nat) : Work rules (Option Nat) := do
  match (← look (·.item? base)), (← look (·.item? child)) with
  | some o, some f =>
      if (Chart.veto? o f).isSome then return none
      else return some (← add ⟨o.joined f, [⟨some base, some child, none⟩]⟩ .agenda)
  | _, _ => return none

/-- Moves the dot of an edge over a terminal. -/
def scan (base : Nat) (stop : Position) (texts : List String) (start : Option Position) :
    Work rules Nat := do
  match (← look (·.item? base)) with
  | some o => add ⟨o.step (start.getD o.start) stop, [⟨some base, none, some texts⟩]⟩ .agenda
  | none => return base

/-- Starts a rule whose first terminal was found already. -/
def seed (number : Fin rules.size) (start stop : Nat) (texts : List String) : Work rules Nat := do
  let base ← add ⟨.initial number (.offset start), []⟩ .staged
  scan base (.offset stop) texts none

/-- Takes the next edge from the agenda. -/
def next? : Work rules (Option Nat) := do
  match (← look (·.next?)) with
  | some (n, s) =>
      set s
      return some n
  | none => return none

/-- Takes the deferred edges. -/
def takeDeferred : Work rules (List Nat) := modifyGet (·.takeDeferred)

/-! ### Steps on one edge -/

variable {g : Grammar}

/-- Predicts rules at a place. -/
def predictAll (place : Position) (numbers : List g.RuleId) : Work g.rules Unit :=
  numbers.forM (fun number => discard (predict number place))

/-- Predicts rules at a place if there is a reason to. -/
def predictIf (b : Bool) (place : Position) (numbers : List g.RuleId) : Work g.rules Unit :=
  if b then predictAll place numbers else return

/-- The open edges that a finished edge can be put into. -/
def waitingFor (s : Store rules) (i : Item rules) : List Nat :=
  match i.start with
  | .anywhere => s.allWaiting i.lhs
  | .offset n => s.waiting i.lhs (.offset n) ++ s.waiting i.lhs .anywhere

/-- The finished edges that can be put into an open edge which wants `name` at a place. -/
def readyFor (s : Store rules) (name : String) (place : Position) : List Nat :=
  match place with
  | .anywhere => s.reduced name .anywhere
  | .offset n => s.reduced name (.offset n) ++ s.floatingReduced name

/-- Puts a finished edge into all edges that wait for it. -/
def complete (strategy : Strategy) (n : Nat) : Work g.rules Unit := do
  match (← look (·.item? n)) with
  | none => return
  | some i =>
      predictIf strategy.isBottomUp i.start (g.rulesStartingWith i.lhs)
      (← look (waitingFor · i)).forM (fun base => discard (advance base n))

/-- Predicts the rules for the nonterminal that an edge wants, and gives the edge what is there
already. -/
def predictWanted (strategy : Strategy) (n : Nat) : Work g.rules Unit := do
  match (← look (·.item? n)) with
  | none => return
  | some i =>
      match i.wanted? with
      | none => return
      | some name =>
          predictIf strategy.predictsWanted i.stop (g.rulesFor name)
          predictIf strategy.isBottomUp i.stop (g.emptyRulesFor name)
          (← look (readyFor · name i.stop)).forM (fun child => discard (advance n child))

/-- Moves an edge over what the lexer finds for its terminal. -/
def scanTerminal (lexer : Lexer) (input : Text) (n : Nat) : Work g.rules Unit := do
  match (← look (·.item? n)) with
  | none => return
  | some i =>
      match i.next? with
      | none => return
      | some s =>
          match i.stop with
          | .offset place =>
              match lexer s input place with
              | some m => discard (scan n (.offset m.stop) m.texts none)
              | none => return
          | .anywhere =>
              (s.occurrences input).forM (fun o =>
                match lexer s input o.start with
                | some m => discard (scan n (.offset m.stop) m.texts (some (.offset o.start)))
                | none => return)

/-- Where finished edges for `name` start behind `place` and within the reach of a gap, in increasing
order; only the nearest of them if the gap says so. -/
def gapEnds (s : Store rules) (gap : Gap) (name : String) (place : Nat) : List Nat :=
  let starts := (s.reduced name .anywhere).filterMap (fun n =>
    (s.item? n).bind (fun i => i.start.offset?))
  let inReach := starts.filter (fun p => place < p ∧ p - place ≤ gap.reach)
  let ends := inReach.foldr Parser.insertNumber []
  if gap.nearestOnly then ends.take 1 else ends

/-- Fills the gap that an edge waits for. -/
def fillGap (input : Text) (n : Nat) : Work g.rules Unit := do
  match (← look (·.item? n)) with
  | none => return
  | some i =>
      match Parser.gapAt i, i.stop with
      | .error e, _ => throw e
      | .ok _, .anywhere => return
      | .ok (gap, name), .offset place =>
          (← look (gapEnds · gap name place)).forM (fun stop =>
            match gap.matchSpan? input place stop with
            | some m => discard (scan n (.offset m.stop) m.texts none)
            | none => return)

/-- What is to be done with an edge from the agenda. -/
def process (strategy : Strategy) (lexer : Lexer) (input : Text) (n : Nat) : Work g.rules Unit := do
  match (← look (·.item? n)) with
  | none => return
  | some i =>
      if i.isReduced then complete strategy n
      else if i.isShift then scanTerminal lexer input n
      else predictWanted strategy n

/-! ### The whole input -/

/-- Starts a rule wherever its first terminal stands and the lexer accepts it. -/
def seedRule (lexer : Lexer) (input : Text) (number : g.RuleId) : Work g.rules Unit :=
  match (g.rule number).first? with
  | none => return
  | some s =>
      (s.occurrences input).forM (fun o =>
        match lexer s input o.start with
        | some m => discard (seed number o.start m.stop m.texts)
        | none => return)

/-- Starts the rules that start with terminals, and then the empty rules anywhere. -/
def beginBottomUp (lexer : Lexer) (input : Text) : Work g.rules Unit := do
  g.terminalRules.forM (seedRule lexer input)
  predictAll .anywhere g.emptyRules

/-- What is done before the first edge is taken from the agenda. -/
def begin (strategy : Strategy) (lexer : Lexer) (input : Text) : Work g.rules Unit := do
  match strategy with
  | .topDown => predictAll (.offset 0) g.entityRules
  | .bottomUp | .bottomUpWithGaps => beginBottomUp lexer input
  modify Store.settle

/-- Takes edges from the agenda until it is empty, then those in front of gaps, and so on until nothing
is left.  Takes no more than `fuel` turns. -/
def drain (strategy : Strategy) (lexer : Lexer) (input : Text) : Nat → Work g.rules Unit
  | 0 => throw .outOfSteps
  | fuel + 1 => do
      match (← next?) with
      | some n =>
          process strategy lexer input n
          drain strategy lexer input fuel
      | none =>
          if (← look (·.deferred.isEmpty)) then return
          else
            let round ← takeDeferred
            if strategy = .bottomUpWithGaps then
              round.forM (fillGap input)
              drain strategy lexer input fuel
            else drain strategy lexer input fuel

/-- Parses an input with no more than this many turns. -/
def parseWithin (g : Grammar) (strategy : Strategy) (lexer : Lexer) (input : Text) (turns : Nat) :
    Work g.rules Unit := do
  begin strategy lexer input
  drain strategy lexer input turns

end Work

end ChartParsing
