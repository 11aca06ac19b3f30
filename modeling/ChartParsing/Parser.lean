import ChartParsing.Chart.Outermost
import ChartParsing.Forest
import ChartParsing.Grammar
import ChartParsing.Lexer
import ChartParsing.Strategy

/-!
# Parsing

A parser fills a chart with all that can be found in an input.  The edges on the agenda are taken one
by one: a finished edge is put into the edges that wait for it, an edge in front of a nonterminal is
given the finished edges that are there already, and an edge in front of a terminal is moved over what
the lexer finds.  When the agenda is empty the edges in front of gaps have their turn, and what they
bring goes on the agenda again, until nothing is left.

Every step looks up first what it has to do and then does it, so edges that it adds itself have their
own turn later.
-/

namespace ChartParsing

/-- A parser for a grammar: how it works, and what it found in the last input. -/
structure Parser (g : Grammar) where
  strategy : Strategy
  lexer : Lexer
  chart : Chart g.rules
  input : Option Text

namespace Parser

variable {g : Grammar}

/-- A parser that has not parsed anything. -/
def new (g : Grammar) (strategy : Strategy) (lexer : Lexer) : Parser g :=
  ⟨strategy, lexer, .empty, none⟩

/-! ### Steps on one edge -/

/-- Predicts rules at a place. -/
def predictAll (place : Position) (c : Chart g.rules) (numbers : List g.RuleId) : Chart g.rules :=
  numbers.foldl (fun c number => (c.predict number place).1) c

/-- The open edges that a finished edge can be put into. -/
def waitingFor (c : Chart g.rules) (i : Item g.rules) : List Nat :=
  match i.start with
  | .anywhere => c.allWaiting i.lhs
  | .offset n => c.waiting i.lhs (.offset n) ++ c.waiting i.lhs .anywhere

/-- The finished edges that can be put into an open edge which wants `name` at a place. -/
def readyFor (c : Chart g.rules) (name : String) (place : Position) : List Nat :=
  match place with
  | .anywhere => c.reduced name .anywhere
  | .offset n => c.reduced name (.offset n) ++ c.floatingReduced name

/-- Puts a finished edge into all edges that wait for it.  Bottom up, the rules that start with its
nonterminal are predicted first. -/
def complete (strategy : Strategy) (c : Chart g.rules) (n : Nat) : Chart g.rules :=
  match c.item? n with
  | none => c
  | some i =>
      let c := if strategy.isBottomUp then predictAll i.start c (g.rulesStartingWith i.lhs) else c
      (waitingFor c i).foldl (fun c base => (c.advance base n).1) c

/-- Predicts the rules for the nonterminal that an edge wants, and gives the edge what is there
already. -/
def predict (strategy : Strategy) (c : Chart g.rules) (n : Nat) : Chart g.rules :=
  match c.item? n with
  | none => c
  | some i =>
      match i.wanted? with
      | none => c
      | some name =>
          let c := if strategy.predictsWanted then predictAll i.stop c (g.rulesFor name) else c
          let c := if strategy.isBottomUp then predictAll i.stop c (g.emptyRulesFor name) else c
          (readyFor c name i.stop).foldl (fun c child => (c.advance n child).1) c

/-- Moves an edge over what the lexer finds for its terminal.  An edge that can start anywhere is
started wherever the terminal stands. -/
def scan (lexer : Lexer) (input : Text) (c : Chart g.rules) (n : Nat) : Chart g.rules :=
  match c.item? n with
  | none => c
  | some i =>
      match i.next? with
      | none => c
      | some s =>
          match i.stop with
          | .offset place =>
              match lexer s input place with
              | some m => (c.scan n (.offset m.stop) m.texts none).1
              | none => c
          | .anywhere =>
              (s.occurrences input).foldl (fun c o =>
                match lexer s input o.start with
                | some m => (c.scan n (.offset m.stop) m.texts (some (.offset o.start))).1
                | none => c) c

/-- Puts a number in its place among others in increasing order, unless it is there already. -/
def insertNumber (n : Nat) : List Nat → List Nat
  | [] => [n]
  | m :: rest => if n = m then m :: rest else if n < m then n :: m :: rest
      else m :: insertNumber n rest

/-- Where finished edges for `name` start behind `place` and within the reach of a gap, in increasing
order; only the nearest of them if the gap says so. -/
def gapEnds (c : Chart g.rules) (gap : Gap) (name : String) (place : Nat) : List Nat :=
  let starts := (c.reduced name .anywhere).filterMap (fun n =>
    (c.item? n).bind (fun i => i.start.offset?))
  let inReach := starts.filter (fun s => place < s ∧ s - place ≤ gap.reach)
  let ends := inReach.foldr insertNumber []
  if gap.nearestOnly then ends.take 1 else ends

/-- The gap that an item waits for and the nonterminal behind it, or what is wrong with the item. -/
def gapAt (i : Item g.rules) : Except Failure (Gap × String) :=
  match i.next?.bind Symbol.gap? with
  | none => .error (.notAtGap i.render)
  | some gap =>
      match i.following?.bind Symbol.nonterminal? with
      | none => .error (.gapNotFollowed gap.name i.rule.render)
      | some name => .ok (gap, name)

/-- Fills the gap that an edge waits for, up to the finished edges for the nonterminal behind it.  An
edge that can start anywhere is left alone. -/
def fillGap (input : Text) (c : Chart g.rules) (n : Nat) : Except Failure (Chart g.rules) :=
  match c.item? n with
  | none => .ok c
  | some i =>
      match gapAt i, i.stop with
      | .error e, _ => .error e
      | .ok _, .anywhere => .ok c
      | .ok (gap, name), .offset place =>
          .ok ((gapEnds c gap name place).foldl (fun c stop =>
            match gap.matchSpan? input place stop with
            | some m => (c.scan n (.offset m.stop) m.texts none).1
            | none => c) c)

/-- Fills the gaps of several edges.  Stops at the first failure and also answers the chart as it was
then. -/
def fillGaps (input : Text) : Chart g.rules → List Nat → Chart g.rules × Option Failure
  | c, [] => (c, none)
  | c, n :: rest =>
      match fillGap input c n with
      | .ok c => fillGaps input c rest
      | .error e => (c, some e)

/-- What is to be done with an edge from the agenda. -/
def process (strategy : Strategy) (lexer : Lexer) (input : Text) (c : Chart g.rules) (n : Nat) :
    Chart g.rules :=
  match c.item? n with
  | none => c
  | some i =>
      if i.isReduced then complete strategy c n
      else if i.isShift then scan lexer input c n
      else predict strategy c n

/-! ### The whole input -/

/-- Predicts the rules of entities at the start. -/
def beginTopDown (c : Chart g.rules) : Chart g.rules :=
  predictAll (.offset 0) c g.entityRules

/-- Starts a rule wherever its first terminal stands and the lexer accepts it. -/
def seedRule (lexer : Lexer) (input : Text) (c : Chart g.rules) (number : g.RuleId) :
    Chart g.rules :=
  match (g.rule number).first? with
  | none => c
  | some s =>
      (s.occurrences input).foldl (fun c o =>
        match lexer s input o.start with
        | some m => (c.seed number o.start m.stop m.texts).1
        | none => c) c

/-- Starts the rules that start with terminals, and then the empty rules anywhere. -/
def beginBottomUp (lexer : Lexer) (input : Text) (c : Chart g.rules) : Chart g.rules :=
  predictAll .anywhere (g.terminalRules.foldl (seedRule lexer input) c) g.emptyRules

/-- The chart of an input before the first edge is taken from the agenda. -/
def begin (strategy : Strategy) (lexer : Lexer) (input : Text) : Chart g.rules :=
  (match strategy with
    | .topDown => beginTopDown .empty
    | .bottomUp | .bottomUpWithGaps => beginBottomUp lexer input .empty).settle

/-- Takes edges from the agenda until it is empty, then those in front of gaps, and so on until nothing
is left.  Takes no more than `fuel` turns. -/
def drain (strategy : Strategy) (lexer : Lexer) (input : Text) :
    Nat → Chart g.rules → Chart g.rules × Option Failure
  | 0, c => (c, some .outOfSteps)
  | fuel + 1, c =>
      match c.next? with
      | some (n, c) => drain strategy lexer input fuel (process strategy lexer input c n)
      | none =>
          if !c.hasDeferred then (c, none)
          else
            let (round, c) := c.takeDeferred
            if strategy = .bottomUpWithGaps then
              match fillGaps input c round with
              | (c, none) => drain strategy lexer input fuel c
              | (c, some e) => (c, some e)
            else drain strategy lexer input fuel c

/-- How many edges a chart can have for an input of `length` bytes: a rule, a place for the dot, and two
offsets or none. -/
def edgeBound (g : Grammar) (length : Nat) : Nat :=
  g.rules.foldl (fun n r => n + (r.length + 1) * ((length + 1) * (length + 1) + 1)) 0

/-- Fills the chart for an input.  Also says what went wrong, if anything did; the chart is then what was
found until that. -/
def parse (p : Parser g) (input : Text) : Parser g × Option Failure :=
  let (chart, failure) := drain p.strategy p.lexer input (edgeBound g input.byteLength + 1)
    (begin p.strategy p.lexer input)
  ({ p with chart, input := some input }, failure)

/-! ### Results -/

/-- The outermost entities that take the whole input, those of the greatest priority first. -/
def wholeEntities (c : Chart g.rules) (input : Text) : List Nat :=
  preferred c.priority? (c.outermost.filter (fun n =>
    (c.item? n).any (fun i => i.start = .offset 0 ∧ i.stop = .offset input.byteLength)))

/-- The readings of the outermost entities, or of those that take the whole input. -/
def results (p : Parser g) (whole : Bool) : Except Failure (List Reading) :=
  match p.input with
  | none => .error .inputNotSet
  | some input =>
      .ok ((Forest.new p.chart).resultsOfAll
        (if whole then wholeEntities p.chart input else p.chart.outermost))

/-- The text that shows a parser. -/
def describe (p : Parser g) : String :=
  "Parser \x7b kind: " ++ p.strategy.word ++ ", input: "
    ++ (match p.input with
      | some input => "Some(" ++ quoted (String.ofList input) ++ ")"
      | none => "None")
    ++ ", edges: " ++ toString p.chart.size ++ ", .. \x7d"

end Parser

/-- The readings of an input as a whole. -/
def Grammar.parse (g : Grammar) (strategy : Strategy) (input : Text) :
    Except Failure (List Reading) :=
  match (Parser.new g strategy .skippingBlanks).parse input with
  | (p, none) => p.results true
  | (_, some e) => .error e

end ChartParsing
