import ChartParsing.Reading

/-!
# Values and readings as JSON texts

`Json.Tree` is what a JSON text says, with numbers as they are to be written.  It can be written in
one line, or with one item on a line, two blanks deeper than what holds it.
-/

namespace ChartParsing.Json

/-- What a JSON text says. -/
inductive Tree where
  /-- A text that stands for itself: a number, a truth value, nothing. -/
  | word (text : String)
  | string (text : String)
  | array (items : List Tree)
  | object (fields : List (String × Tree))
deriving Inhabited

/-! ### Texts in quotes -/

/-- How a character is written in a JSON text. -/
def escapeChar (c : Char) : String :=
  if c = '"' then "\\\""
  else if c = '\\' then "\\\\"
  else if c = '\n' then "\\n"
  else if c = '\r' then "\\r"
  else if c = '\t' then "\\t"
  else if c = '\x08' then "\\b"
  else if c = '\x0c' then "\\f"
  else if c.toNat < 32 then
    "\\u00" ++ (if c.toNat < 16 then "0" else "1")
      ++ String.ofList (Nat.toDigits 16 (c.toNat % 16))
  else c.toString

/-- A text in quotes. -/
def escaped (s : String) : String := "\"" ++ String.join (s.toList.map escapeChar) ++ "\""

/-! ### Writing -/

mutual

/-- A tree in one line. -/
def compact : Tree → String
  | .word text => text
  | .string text => escaped text
  | .array items => "[" ++ String.intercalate "," (compactAll items) ++ "]"
  | .object fields => "\x7b" ++ String.intercalate "," (compactFields fields) ++ "\x7d"

/-- Each of several trees in one line. -/
def compactAll : List Tree → List String
  | [] => []
  | t :: ts => compact t :: compactAll ts

/-- Each of several fields in one line. -/
def compactFields : List (String × Tree) → List String
  | [] => []
  | (name, t) :: rest => (escaped name ++ ":" ++ compact t) :: compactFields rest

end

/-- The blanks in front of a line. -/
def indent (depth : Nat) : String := String.ofList (List.replicate (2 * depth) ' ')

/-- Puts pieces on lines of their own between brackets; nothing stays in one line. -/
def block (opening closing : String) (depth : Nat) (pieces : List String) : String :=
  if pieces.isEmpty then opening ++ closing
  else
    opening ++ "\n" ++ String.intercalate ",\n" (pieces.map (indent (depth + 1) ++ ·)) ++ "\n"
      ++ indent depth ++ closing

mutual

/-- A tree with one item on a line. -/
def pretty (depth : Nat) : Tree → String
  | .word text => text
  | .string text => escaped text
  | .array items => block "[" "]" depth (prettyAll (depth + 1) items)
  | .object fields => block "\x7b" "\x7d" depth (prettyFields (depth + 1) fields)

/-- Each of several trees with one item on a line. -/
def prettyAll (depth : Nat) : List Tree → List String
  | [] => []
  | t :: ts => pretty depth t :: prettyAll depth ts

/-- Each of several fields with one item on a line. -/
def prettyFields (depth : Nat) : List (String × Tree) → List String
  | [] => []
  | (name, t) :: rest => (escaped name ++ ": " ++ pretty depth t) :: prettyFields depth rest

end

/-! ### Trees of values -/

mutual

/-- The tree of a value. -/
def ofValue : Value → Tree
  | .null => .word "null"
  | .bool b => .word (Value.boolText b)
  | .number x => .word (Decimal.json.write x)
  | .text s => .string s
  | .list items => .array (ofValues items)

/-- The trees of several values. -/
def ofValues : List Value → List Tree
  | [] => []
  | v :: vs => ofValue v :: ofValues vs

end

/-- The tree of a position. -/
def ofPosition : Position → Tree
  | .anywhere => .string "Any"
  | .offset n => .object [("At", .word (toString n))]

/-- The tree of a reading. -/
def ofReading (r : Reading) : Tree :=
  .object [
    ("data", ofValue r.value), ("weight", .word (Decimal.json.write r.weight)),
    ("txt", .string r.trace), ("start", ofPosition r.start), ("end", ofPosition r.stop)]

end ChartParsing.Json
