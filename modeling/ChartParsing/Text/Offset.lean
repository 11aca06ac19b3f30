/-!
# Texts and byte offsets

A text is a list of characters.  Places in it are counted in bytes of its UTF-8 form, so an offset
may lie outside the text or inside a character: `Text.seek?` answers only for offsets that lie
between two characters or at an end, and every other look-up goes through it.

A `Cursor` is such a place together with what stands on either side of it.  `Text.cursors` lists all
cursors of a text from its start to its end.
-/

namespace ChartParsing

/-- A text, as its characters. -/
abbrev Text := List Char

/-- A place between two characters of a text, or at one of its ends. -/
structure Cursor where
  /-- The number of bytes in front. -/
  offset : Nat
  /-- The character in front, if any. -/
  before : Option Char
  /-- The characters behind. -/
  rest : Text
deriving DecidableEq, Repr

namespace Cursor

/-- The character behind, if any. -/
def after (c : Cursor) : Option Char := c.rest.head?

/-- The cursor one character further on. -/
def next? (c : Cursor) : Option Cursor :=
  match c.rest with
  | [] => none
  | x :: xs => some ⟨c.offset + x.utf8Size, some x, xs⟩

/-- The cursor this many bytes further on, if that is a place between characters. -/
def skip? : Text → Nat → Option Char → Nat → Option Cursor
  | rest, offset, before, 0 => some ⟨offset, before, rest⟩
  | [], _, _, _ + 1 => none
  | x :: xs, offset, _, n + 1 =>
      if x.utf8Size ≤ n + 1 then skip? xs (offset + x.utf8Size) (some x) (n + 1 - x.utf8Size)
      else none

end Cursor

namespace Text

/-- The number of bytes of a text. -/
def byteLength : Text → Nat
  | [] => 0
  | c :: cs => c.utf8Size + byteLength cs

/-- The cursor at the start. -/
def start (t : Text) : Cursor := ⟨0, none, t⟩

/-- The cursor at an offset, if that is a place between characters or at an end. -/
def seek? (t : Text) (offset : Nat) : Option Cursor := Cursor.skip? t 0 none offset

/-- The cursors from a cursor on to the end. -/
def cursorsFrom : Text → Nat → Option Char → List Cursor
  | [], offset, before => [⟨offset, before, []⟩]
  | x :: xs, offset, before =>
      ⟨offset, before, x :: xs⟩ :: cursorsFrom xs (offset + x.utf8Size) (some x)

/-- All cursors of a text. -/
def cursors (t : Text) : List Cursor := cursorsFrom t 0 none

/-- The first bytes of a text, if they end between characters. -/
def takeBytes? : Text → Nat → Option Text
  | _, 0 => some []
  | [], _ + 1 => none
  | c :: cs, n + 1 =>
      if c.utf8Size ≤ n + 1 then (takeBytes? cs (n + 1 - c.utf8Size)).map (c :: ·) else none

/-- The text from one offset to another, if both lie between characters and in this order. -/
def slice? (t : Text) (start stop : Nat) : Option Text :=
  if start ≤ stop then
    match t.seek? start with
    | some c => takeBytes? c.rest (stop - start)
    | none => none
  else none

/-- What remains of a text after the given beginning, if it starts with that. -/
def dropPrefix? : Text → Text → Option Text
  | rest, [] => some rest
  | [], _ :: _ => none
  | x :: xs, p :: ps => if x = p then dropPrefix? xs ps else none

/-- Does the text start with the given one? -/
def startsWith (t beginning : Text) : Bool := (t.dropPrefix? beginning).isSome

/-- Does the given text occur in this one? -/
def hasPart (t part : Text) : Bool :=
  match t with
  | [] => part.isEmpty
  | _ :: xs => t.startsWith part || hasPart xs part

/-- Does the text end with the given one? -/
def endsWith (t ending : Text) : Bool := startsWith t.reverse ending.reverse

/-! ### Lengths -/

@[simp] theorem byteLength_append (s t : Text) :
    byteLength (s ++ t) = byteLength s + byteLength t := by
  induction s with
  | nil => simp [byteLength]
  | cons c cs ih =>
      simp only [List.cons_append, byteLength, ih]
      omega

/-- What is dropped and what remains make up the text. -/
theorem eq_append_of_dropPrefix? {t p rest : Text} (h : t.dropPrefix? p = some rest) :
    t = p ++ rest := by
  induction p generalizing t with
  | nil => simpa [dropPrefix?] using h
  | cons x xs ih =>
      cases t with
      | nil => simp [dropPrefix?] at h
      | cons y ys =>
          simp only [dropPrefix?] at h
          split at h
          · next e => rw [e, ih h, List.cons_append]
          · simp at h

end Text

end ChartParsing
