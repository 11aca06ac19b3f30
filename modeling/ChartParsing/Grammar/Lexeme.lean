import ChartParsing.Text.Blank
import ChartParsing.Unicode.Property

/-!
# The words of grammar texts

A grammar's text is read from its start, one word after the other.  Each function of this module looks
for one sort of word at the start of a text: it answers the word together with the rest of the text, or
nothing if there is no such word.  Between words stand blanks, and comments from `#` to the end of a
line.
-/

namespace ChartParsing.Lexeme

/-! ### Blanks and comments -/

/-- Drops blanks and comments; `inComment` says that a comment has begun. -/
def dropSpaceFrom (inComment : Bool) : Text → Text
  | [] => []
  | c :: cs =>
      if inComment then dropSpaceFrom (c ≠ '\n') cs
      else if isBlank c then dropSpaceFrom false cs
      else if c = '#' then dropSpaceFrom true cs
      else c :: cs

/-- Drops the blanks and comments at the start. -/
def dropSpace (t : Text) : Text := dropSpaceFrom false t

/-! ### Words of one class of characters -/

/-- May a name start with the character? -/
def startsName (c : Char) : Bool := c.isAlpha || c = '_'

/-- Is the character one of names and classes? -/
def isNameChar (c : Char) : Bool := c.isAlphanum || c = '_'

/-- Is the character one of registered names of lexicons and gaps? -/
def isEntityChar (c : Char) : Bool := isNameChar c || c = '-'

/-- Is the character one of registered names of actions? -/
def isActionChar (c : Char) : Bool := isEntityChar c || c = '.' || c = ':'

/-- A row of at least one character that satisfies `p`, as long as it goes. -/
def row? (p : Char → Bool) (t : Text) : Option (Text × Text) :=
  match t.takeWhile p with
  | [] => none
  | word => some (word, t.dropWhile p)

/-- A name: letters, digits and underscores, but no digit first. -/
def name? (t : Text) : Option (Text × Text) :=
  match t with
  | [] => none
  | c :: _ => if startsName c then row? isNameChar t else none

/-- Starts a rule here, with a name and an arrow? -/
def isRuleStart (t : Text) : Bool :=
  match name? t with
  | some (_, rest) => (Text.dropBlanks rest).startsWith "->".toList
  | none => false

/-! ### Bracketed words -/

/-- A text up to its closing delimiter.  A backslash takes the next character with it, which may not be
a line feed. -/
def delimited? (delimiter : Char) : Text → Option (Text × Text)
  | [] => none
  | c :: cs =>
      if c = delimiter then some ([], cs)
      else if c = '\\' then
        match cs with
        | [] => none
        | d :: ds =>
            if d = '\n' then none
            else (delimited? delimiter ds).map (fun (body, rest) => (c :: d :: body, rest))
      else (delimited? delimiter cs).map (fun (body, rest) => (c :: body, rest))

/-- Drops the backslashes, and keeps the characters that they stand before. -/
def unescape : Text → Text
  | [] => []
  | ['\\'] => []
  | '\\' :: c :: rest => c :: unescape rest
  | c :: rest => c :: unescape rest

/-- Drops the backslashes that stand before a slash. -/
def unescapeSlashes : Text → Text
  | [] => []
  | '\\' :: '/' :: rest => '/' :: unescapeSlashes rest
  | c :: rest => c :: unescapeSlashes rest

/-- A text between delimiters. -/
def between? (delimiter : Char) : Text → Option (Text × Text)
  | [] => none
  | c :: cs => if c = delimiter then delimited? delimiter cs else none

/-- A literal between double quotes: its text. -/
def literal? (t : Text) : Option (Text × Text) :=
  (between? '"' t).map (fun (body, rest) => (unescape body, rest))

/-- A pattern between slashes. -/
def pattern? (t : Text) : Option (Text × Text) :=
  (between? '/' t).map (fun (body, rest) => (unescapeSlashes body, rest))

/-- A row of characters between an opening and a closing text, with blanks around it. -/
def bracketed? (opening closing : String) (p : Char → Bool) (t : Text) : Option (Text × Text) :=
  match t.dropPrefix? opening.toList with
  | none => none
  | some inner =>
      match row? p inner.dropBlanks with
      | none => none
      | some (word, rest) => (rest.dropBlanks.dropPrefix? closing.toList).map (fun r => (word, r))

/-- The name of an action. -/
def action? (t : Text) : Option (Text × Text) := bracketed? "\x7b%" "%\x7d" isActionChar t

/-- The name of a lexicon, as a symbol. -/
def entity? (t : Text) : Option (Text × Text) := bracketed? "EntityTerminal(" ")" isEntityChar t

/-- The name of a gap, as a symbol. -/
def gap? (t : Text) : Option (Text × Text) := bracketed? "ApproxTerminal(" ")" isEntityChar t

/-! ### Values of options -/

/-- The first of several texts that stands here. -/
def oneOf? (words : List String) (t : Text) : Option (String × Text) :=
  words.findSome? (fun w => (t.dropPrefix? w.toList).map (fun rest => (w, rest)))

/-- A colon with blanks around it. -/
def colon? (t : Text) : Option Text :=
  (t.dropBlanks.dropPrefix? [':']).map Text.dropBlanks

/-- A truth value that no word character follows. -/
def flag? (t : Text) : Option (Bool × Text) :=
  match oneOf? ["true", "false"] t with
  | none => none
  | some (word, rest) =>
      if rest.head?.any CharClass.word.contains then none else some (word = "true", rest)

/-- Decimal digits of any script, perhaps after a minus sign. -/
def integer? (t : Text) : Option (Text × Text) :=
  match t with
  | '-' :: rest => (row? CharClass.digits.contains rest).map (fun (ds, r) => ('-' :: ds, r))
  | _ => row? CharClass.digits.contains t

/-- An integer, perhaps with a point and digits behind it. -/
def decimal? (t : Text) : Option (Text × Text) :=
  match integer? t with
  | none => none
  | some (whole, '.' :: rest) =>
      match row? CharClass.digits.contains rest with
      | some (ds, r) => some (whole ++ '.' :: ds, r)
      | none => some (whole, '.' :: rest)
  | some other => some other

/-- The items that follow a first one, each after a comma with blanks around it.  The reader of an item
takes at least one character, so `fuel` need not exceed the length of the text. -/
def moreItems {α : Type} (item? : Text → Option (α × Text)) : Nat → Text → List α × Text
  | 0, t => ([], t)
  | fuel + 1, t =>
      match t.dropBlanks.dropPrefix? [','] with
      | none => ([], t)
      | some rest =>
          match item? rest.dropBlanks with
          | none => ([], t)
          | some (first, rest) =>
              let (others, rest) := moreItems item? fuel rest
              (first :: others, rest)

/-- At least one item, with commas between them. -/
def items? {α : Type} (item? : Text → Option (α × Text)) (t : Text) : Option (List α × Text) :=
  (item? t).map (fun (first, rest) =>
    let (others, rest) := moreItems item? rest.length rest
    (first :: others, rest))

/-- A list of classes. -/
def classes? (t : Text) : Option (List Text × Text) := items? (row? isNameChar) t

/-- A class and the text of its precedence, and the text of both as it stands there. -/
structure Precedence where
  cls : Text
  value : Text
  written : Text

/-- A class and its precedence, with a colon between them. -/
def precedence? (t : Text) : Option (Precedence × Text) :=
  match row? isNameChar t with
  | none => none
  | some (cls, rest) =>
      match colon? rest with
      | none => none
      | some rest =>
          (integer? rest).map (fun (value, rest) =>
            (⟨cls, value, t.take (t.length - rest.length)⟩, rest))

/-- A list of classes with their precedences. -/
def precedences? (t : Text) : Option (List Precedence × Text) := items? precedence? t

end ChartParsing.Lexeme
