import ChartParsing.Pattern.Node
import ChartParsing.Pattern.Reader
import ChartParsing.Unicode.CaseFold
import ChartParsing.Unicode.Class

/-!
# Applying flags

`Ast.toNode` turns a pattern as it is written into a pattern without flags: it resolves classes by
name, adds the other case of characters where case is ignored, and settles what the dot, the line ends
and the word boundaries mean.

Flags hold for what follows in the same group, also in its later branches, so they are passed along
from left to right.  Without the Unicode flag the shorthands mean ASCII, and what could match a part
of a character is refused.
-/

namespace ChartParsing.Pattern

/-- The flags in force. -/
structure Flags where
  caseInsensitive : Bool
  multiLine : Bool
  dotAll : Bool
  swapGreed : Bool
  unicode : Bool
  crlf : Bool
deriving DecidableEq, Repr

namespace Flags

/-- The flags that a pattern starts with. -/
def initial (caseInsensitive : Bool) : Flags := ⟨caseInsensitive, false, false, false, true, false⟩

/-- Changes one flag. -/
def set (fl : Flags) (setting : Flag × Bool) : Flags :=
  match setting.1 with
  | .caseInsensitive => { fl with caseInsensitive := setting.2 }
  | .multiLine => { fl with multiLine := setting.2 }
  | .dotAll => { fl with dotAll := setting.2 }
  | .swapGreed => { fl with swapGreed := setting.2 }
  | .unicode => { fl with unicode := setting.2 }
  | .crlf => { fl with crlf := setting.2 }
  | .ignoreBlanks => fl

/-- Changes several flags. -/
def setAll (fl : Flags) (settings : List (Flag × Bool)) : Flags := settings.foldl set fl

end Flags

/-! ### Classes -/

/-- The members of a shorthand class. -/
def Shorthand.members (unicode : Bool) : Shorthand → CharSet
  | .digit => if unicode then CharClass.digits else CharSet.range 0x30 0x39
  | .space => if unicode then blanks else ⟨[(0x09, 0x0D), (0x20, 0x20)]⟩
  | .word => if unicode then CharClass.word else CharClass.asciiWord

/-- The members of a named ASCII class. -/
def AsciiClass.members : AsciiClass → CharSet
  | .alnum => ⟨[(0x30, 0x39), (0x41, 0x5A), (0x61, 0x7A)]⟩
  | .alpha => ⟨[(0x41, 0x5A), (0x61, 0x7A)]⟩
  | .ascii => ⟨[(0x00, 0x7F)]⟩
  | .blank => ⟨[(0x09, 0x09), (0x20, 0x20)]⟩
  | .cntrl => ⟨[(0x00, 0x1F), (0x7F, 0x7F)]⟩
  | .digit => ⟨[(0x30, 0x39)]⟩
  | .graph => ⟨[(0x21, 0x7E)]⟩
  | .lower => ⟨[(0x61, 0x7A)]⟩
  | .print => ⟨[(0x20, 0x7E)]⟩
  | .punct => ⟨[(0x21, 0x2F), (0x3A, 0x40), (0x5B, 0x60), (0x7B, 0x7E)]⟩
  | .space => ⟨[(0x09, 0x0D), (0x20, 0x20)]⟩
  | .upper => ⟨[(0x41, 0x5A)]⟩
  | .word => CharClass.asciiWord
  | .xdigit => ⟨[(0x30, 0x39), (0x41, 0x46), (0x61, 0x66)]⟩

/-- Adds the other case where case is ignored. -/
def Flags.fold (fl : Flags) (s : CharSet) : CharSet :=
  if fl.caseInsensitive then
    (if fl.unicode then s.closeUnderCase else s.closeUnderAsciiCase)
  else s

/-- Adds the other case and takes the complement where that is asked for.  Without Unicode a class has
to stay within ASCII. -/
def Flags.foldAndNegate (fl : Flags) (negated : Bool) (s : CharSet) : Except Fault CharSet :=
  let folded := fl.fold s
  let s := if negated then folded.complement else folded
  if fl.unicode ∨ s.isAscii then .ok s else .error .notUtf8

/-- The members of a shorthand, or what is left. -/
def Flags.shorthand (fl : Flags) (kind : Shorthand) (negated : Bool) : Except Fault CharSet :=
  let s := kind.members fl.unicode
  let s := if negated then s.complement else s
  if fl.unicode ∨ s.isAscii then .ok s else .error .notUtf8

/-- The members of a class by name, or what is left. -/
def Flags.named (fl : Flags) (name : ClassName) (negated : Bool) : Except Fault CharSet :=
  if !fl.unicode then .error .unicodeOff
  else
    let found := match name with
      | .alone name => (classNamed? name).map (fun s => (s, negated))
      | .valued property value differs =>
          (classValued? property value).map (fun s => (s, negated != differs))
    match found with
    | some (s, negated) => fl.foldAndNegate negated s
    | none => .error .unknownProperty

/-- The character of a literal.  Without Unicode two hexadecimal digits are a byte, and a byte beyond
ASCII is no character. -/
def Flags.literal (fl : Flags) (l : Literal) : Except Fault Char :=
  if !fl.unicode && l.byte && 128 ≤ l.char.toNat then .error .notUtf8 else .ok l.char

/-- The character of a literal in a class, which has to be ASCII without Unicode. -/
def Flags.classLiteral (fl : Flags) (l : Literal) : Except Fault Char := do
  let c ← fl.literal l
  if fl.unicode ∨ c.toNat < 128 then .ok c else .error .unicodeOff

/-- Applies an operation between sets. -/
def SetOp.apply (op : SetOp) (s t : CharSet) : CharSet :=
  match op with
  | .intersection => s.inter t
  | .difference => s.diff t
  | .symmetricDifference => s.symmDiff t

mutual

/-- The members that an item of a class adds. -/
def ClassItem.members (fl : Flags) : ClassItem → Except Fault CharSet
  | .char l => do
      let c ← fl.classLiteral l
      .ok (CharSet.single c)
  | .range low high => do
      let a ← fl.classLiteral low
      let b ← fl.classLiteral high
      .ok (CharSet.range a.toNat b.toNat)
  | .ascii kind negated => fl.foldAndNegate negated kind.members
  | .shorthand kind negated => fl.shorthand kind negated
  | .named name negated => fl.named name negated
  | .bracketed negated set => do
      let s ← ClassSet.members fl set
      fl.foldAndNegate negated s

/-- The members of the inside of a class. -/
def ClassSet.members (fl : Flags) : ClassSet → Except Fault CharSet
  | .items list => itemsMembers fl CharSet.empty list
  | .operation op left right => do
      let s ← ClassSet.members fl left
      let t ← ClassSet.members fl right
      .ok (op.apply (fl.fold s) (fl.fold t))

/-- Adds the members of items to a set. -/
def itemsMembers (fl : Flags) (s : CharSet) : List ClassItem → Except Fault CharSet
  | [] => .ok s
  | item :: rest => do
      let t ← ClassItem.members fl item
      itemsMembers fl (s.union t) rest

end

/-! ### Patterns -/

/-- What an assertion asks for under the flags. -/
def Flags.look (fl : Flags) : Assertion → Look
  | .lineStart => if fl.multiLine then (if fl.crlf then .crlfStart else .lineStart) else .start
  | .lineEnd => if fl.multiLine then (if fl.crlf then .crlfEnd else .lineEnd) else .stop
  | .textStart => .start
  | .textEnd => .stop
  | .wordBoundary => .boundary fl.unicode
  | .notWordBoundary => .notBoundary fl.unicode
  | .wordStart => .wordStart fl.unicode
  | .wordEnd => .wordEnd fl.unicode
  | .wordStartHalf => .wordStartHalf fl.unicode
  | .wordEndHalf => .wordEndHalf fl.unicode

/-- The characters that the dot stands for. -/
def Flags.dot (fl : Flags) : CharSet :=
  if fl.dotAll then CharSet.all
  else if fl.crlf then (CharSet.ofList ['\n', '\r']).complement
  else (CharSet.single '\n').complement

/-- The pattern of one character, in either case where case is ignored. -/
def Flags.charNode (fl : Flags) (c : Char) : Node :=
  if fl.caseInsensitive then Node.class (fl.fold (CharSet.single c)) else .literal [c]

mutual

/-- Applies the flags to a pattern.  Also says which flags hold behind it. -/
def Ast.toNodeUnder (fl : Flags) : Ast → Except Fault (Node × Flags)
  | .empty => .ok (.empty, fl)
  | .flags settings => .ok (.empty, fl.setAll settings)
  | .literal l => do
      let c ← fl.literal l
      .ok (fl.charNode c, fl)
  | .dot => if fl.unicode then .ok (Node.class fl.dot, fl) else .error .notUtf8
  | .assertion kind => .ok (.look (fl.look kind), fl)
  | .shorthand kind negated => do
      let s ← fl.shorthand kind negated
      .ok (Node.class s, fl)
  | .named name negated => do
      let s ← fl.named name negated
      .ok (Node.class s, fl)
  | .bracketed negated set => do
      let s ← ClassSet.members fl set
      let s ← fl.foldAndNegate negated s
      .ok (Node.class s, fl)
  | .repetition min max greedy body => do
      let (n, fl) ← Ast.toNodeUnder fl body
      .ok (Node.repeated min max (greedy != fl.swapGreed) n, fl)
  | .capture index body => do
      let (n, _) ← Ast.toNodeUnder fl body
      .ok (.capture index n, fl)
  | .group settings body => do
      let (n, _) ← Ast.toNodeUnder (fl.setAll settings) body
      .ok (n, fl)
  | .concat parts => do
      let (ns, fl) ← toNodes fl parts
      .ok (Node.joined ns, fl)
  | .alternation branches => do
      let (ns, fl) ← toNodes fl branches
      .ok (Node.either ns, fl)

/-- Applies the flags to patterns from left to right. -/
def toNodes (fl : Flags) : List Ast → Except Fault (List Node × Flags)
  | [] => .ok ([], fl)
  | part :: rest => do
      let (n, fl) ← Ast.toNodeUnder fl part
      let (ns, fl) ← toNodes fl rest
      .ok (n :: ns, fl)

end

/-- The pattern without flags that a pattern stands for. -/
def Ast.toNode (caseInsensitive : Bool) (ast : Ast) : Except Fault Node :=
  (ast.toNodeUnder (Flags.initial caseInsensitive)).map Prod.fst

end ChartParsing.Pattern
