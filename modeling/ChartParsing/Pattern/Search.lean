import ChartParsing.NatSet
import ChartParsing.Pattern.Program
import ChartParsing.Text.Offset
import ChartParsing.Unicode.Property

/-!
# Running programs

`Program.search` runs a program from a place in a text and answers where the preferred match ends.  It
tries what is preferred first and comes back to the rest later; each instruction is tried once only at
each place, for a second try could bring nothing new.  The tries made are the members of a `NatSet`, and
their number bounds the steps of the search.

The whole text is there to look at: conditions see the characters on both sides of a place, also in
front of where the match starts.
-/

namespace ChartParsing.Pattern

/-! ### Conditions -/

/-- Is there a word character? -/
def isWord (unicode : Bool) (c : Option Char) : Bool :=
  match c with
  | none => false
  | some c => if unicode then CharClass.word.contains c else CharClass.asciiWord.contains c

/-- Does the condition hold between these characters? -/
def Look.holds (before after : Option Char) : Look → Bool
  | .start => before.isNone
  | .stop => after.isNone
  | .lineStart => before.isNone || before == some '\n'
  | .lineEnd => after.isNone || after == some '\n'
  | .crlfStart => before.isNone || before == some '\n' || (before == some '\r' && after != some '\n')
  | .crlfEnd => after.isNone || after == some '\r' || (after == some '\n' && before != some '\r')
  | .boundary u => isWord u before != isWord u after
  | .notBoundary u => isWord u before == isWord u after
  | .wordStart u => !isWord u before && isWord u after
  | .wordEnd u => isWord u before && !isWord u after
  | .wordStartHalf u => !isWord u before
  | .wordEndHalf u => !isWord u after

/-! ### Tries -/

/-- An instruction to be tried at a place, `steps` characters behind the start. -/
structure Try where
  address : Nat
  steps : Nat
  cursor : Cursor

/-- Where to go on when the instruction at hand is tried at a place: the tries that follow, preferred
ones first. -/
def Inst.follow (t : Try) : Inst → List Try
  | .char c next =>
      match t.cursor.rest with
      | x :: xs => if x = c then [⟨next, t.steps + 1, step x xs⟩] else []
      | [] => []
  | .set s next =>
      match t.cursor.rest with
      | x :: xs => if s.contains x then [⟨next, t.steps + 1, step x xs⟩] else []
      | [] => []
  | .look condition next =>
      if condition.holds t.cursor.before t.cursor.after then [{ t with address := next }] else []
  | .split preferred other => [{ t with address := preferred }, { t with address := other }]
  | .accept | .fail => []
where
  /-- The place behind the character. -/
  step (x : Char) (xs : Text) : Cursor := ⟨t.cursor.offset + x.utf8Size, some x, xs⟩

namespace Program

/-- Works through a stack of tries, at most `fuel` of them. -/
def run (code : Array Inst) : Nat → NatSet → List Try → Option Cursor
  | 0, _, _ => none
  | _ + 1, _, [] => none
  | fuel + 1, seen, t :: stack =>
      let key := t.steps * code.size + t.address
      if seen.contains key then run code fuel seen stack
      else
        match code[t.address]? with
        | some .accept => some t.cursor
        | some i => run code fuel (seen.insert key) (i.follow t ++ stack)
        | none => run code fuel (seen.insert key) stack

/-- How many tries a search can take: each instruction once at each place, and each leaves two tries
at most. -/
def tries (code : Array Inst) (places : Nat) : Nat := 2 * (code.size + 1) * places + 2

/-- The end of the preferred match that starts at the cursor. -/
def search (p : Program) (c : Cursor) : Option Cursor :=
  run p.code (tries p.code (c.rest.length + 1)) NatSet.empty [⟨p.entry, 0, c⟩]

end Program

end ChartParsing.Pattern
