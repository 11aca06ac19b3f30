import ChartParsing.Lexicon
import ChartParsing.Rule

/-!
# Vocabularies

A vocabulary holds what grammars refer to by name: lexicons of entities, gaps and actions.  Registering
a name again replaces what it stood for.
-/

namespace ChartParsing

/-- A registered lexicon: its texts, and the terminal that matches them. -/
structure EntityList where
  name : String
  texts : List String
  terminal : PatternTerminal

/-- What grammars refer to by name; of two entries with one name the first counts. -/
structure Vocabulary where
  entities : List EntityList
  gaps : List Gap
  actions : List Action

namespace Vocabulary

/-- Nothing at all. -/
def empty : Vocabulary := ⟨[], [], []⟩

/-- Registers an action under its name. -/
def addAction (v : Vocabulary) (a : Action) : Vocabulary := { v with actions := a :: v.actions }

/-- Registers several actions. -/
def addActions (v : Vocabulary) (actions : List Action) : Vocabulary := actions.foldl addAction v

/-- The vocabulary that grammars start with: the standard actions. -/
def standard : Vocabulary := empty.addActions Action.standard

/-- Registers a gap under its name. -/
def addGap (v : Vocabulary) (g : Gap) : Vocabulary := { v with gaps := g :: v.gaps }

/-- Registers a lexicon: compiles its texts into one terminal. -/
def addEntity (v : Vocabulary) (name : String) (texts : List String) (caseInsensitive : Bool)
    (boundary : Boundary) (escape : Text → Text) : Except Failure Vocabulary := do
  let source := String.ofList (Lexicon.pattern escape (texts.map String.toList))
  let terminal ← PatternTerminal.compile source caseInsensitive boundary
  .ok { v with entities := ⟨name, texts, terminal⟩ :: v.entities }

/-! ### Looking up -/

/-- The lexicon with this name. -/
def entityList? (v : Vocabulary) (name : String) : Option EntityList :=
  v.entities.find? (fun e => e.name = name)

/-- The symbol for the lexicon with this name. -/
def entity (v : Vocabulary) (name : String) : Except Failure Symbol :=
  match v.entityList? name with
  | some e => .ok (.entity name e.terminal)
  | none => .error (.unregisteredEntity name)

/-- The gap with this name. -/
def gap? (v : Vocabulary) (name : String) : Option Gap := v.gaps.find? (fun g => g.name = name)

/-- The symbol for the gap with this name. -/
def gap (v : Vocabulary) (name : String) : Except Failure Symbol :=
  match v.gap? name with
  | some g => .ok (.gap g)
  | none => .error (.unregisteredGap name)

/-- The action with this name. -/
def action (v : Vocabulary) (name : String) : Except Failure Action :=
  match v.actions.find? (fun a => a.name = name) with
  | some a => .ok a
  | none => .error (.unknownAction name)

end Vocabulary

end ChartParsing
