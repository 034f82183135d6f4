import Scaffold.Text.Letter

/-!
# A place in a document

The text of a document that is still to be read, with the place where that is.  Five characters break
lines, of which carriage return and line feed together are one break; the byte order mark takes no
column.
-/

namespace Scaffold

namespace Yaml

/-- What is wrong with a document: its form, or a scalar that has no value of its kind. -/
inductive Fault where
  | malformed (what : String)
  | badValue (message : String)
  /-- A collection in the place of a text. -/
  | badType (message : String)
  /-- A word that is none of those of its kind. -/
  | noEntry (message : String)
  /-- A text that is no point in time. -/
  | noField (message : String)
  /-- A number without a character. -/
  | outOfRange (message : String)
  /-- A character whose code is too large. -/
  | tooLarge (message : String)
  deriving DecidableEq, Inhabited, Repr

/-- The rest of a document and its place. -/
structure Cursor where
  rest : List Char
  index : Nat := 0
  line : Nat := 0
  column : Nat := 0
  deriving DecidableEq, Inhabited, Repr

/-- Reads part of a document. -/
abbrev Reads := StateT Cursor (Except Fault)

/-- Refuses the document. -/
def refuse {α : Type} (what : String) : Reads α := throw (.malformed what)

/-! ## Characters -/

/-- The byte order mark. -/
def orderMark : Char := Char.ofNat 0xfeff

/-- A character that breaks a line. -/
def isBreak (c : Char) : Bool :=
  c == '\n' || c == '\r' || c.toNat == 0x85 || c.toNat == 0x2028 || c.toNat == 0x2029

/-- A space or a tab. -/
def isSpace (c : Char) : Bool := c == ' ' || c == '\t'

/-- The end of the text or a break. -/
def endsLine (c : Option Char) : Bool := c.all isBreak

/-- The end of the text, a break or a space. -/
def endsLineOrSpace (c : Option Char) : Bool := c.all fun c => isBreak c || c == ' '

/-- The end of the text, a break, a space or a tab. -/
def separates (c : Option Char) : Bool := c.all fun c => isBreak c || isSpace c

/-- A character that a document may hold. -/
def isAllowed (c : Char) : Bool :=
  let n := c.toNat
  n == 9 || n == 10 || n == 13 || (0x20 ≤ n && n ≤ 0x7e) || n == 0x85
    || (0xa0 ≤ n && n ≤ 0xd7ff) || (0xe000 ≤ n && n ≤ 0xfffd) || 0x10000 ≤ n

/-- A letter, a digit, a hyphen or an underscore of ASCII. -/
def isNameChar (c : Char) : Bool :=
  Text.isCapital c || Text.isSmall c || Text.isAsciiDigit c || c == '-' || c == '_'

/-! ## Moving on -/

namespace Cursor

/-- The place behind one more character. -/
def next (c : Cursor) : Cursor :=
  match c.rest with
  | [] => c
  | ch :: rest =>
    let broken := isBreak ch && (ch != '\r' || rest.head? != some '\n')
    if broken then ⟨rest, c.index + 1, c.line + 1, 0⟩
    else ⟨rest, c.index + 1, c.line, if ch == orderMark then c.column else c.column + 1⟩

/-- The place behind some more characters. -/
def skip (c : Cursor) : Nat → Cursor
  | 0 => c
  | n + 1 => c.next.skip n

/-- Whether a line that separates documents starts here. -/
def atSeparator (c : Cursor) : Bool :=
  match c.rest with
  | '-' :: '-' :: '-' :: r => separates r.head?
  | '.' :: '.' :: '.' :: r => separates r.head?
  | _ => false

end Cursor

/-- The character here. -/
def peek : Reads (Option Char) := return (← get).rest.head?

/-- The character `n` places on. -/
def peekAt (n : Nat) : Reads (Option Char) := return (← get).rest[n]?

/-- Moves on by some characters. -/
def advance (n : Nat) : Reads Unit := modify fun c => c.skip n

/-- Reads the characters up to the first that does not satisfy `p`. -/
def takeWhile (p : Char → Bool) : Reads (List Char) := do
  let s := (← get).rest.takeWhile p
  advance s.length
  return s

/-- Reads a line break, if there is one; most breaks read as a line feed. -/
def lineBreak : Reads (List Char) := do
  match (← get).rest with
  | '\r' :: '\n' :: _ => advance 2; return ['\n']
  | c :: _ =>
    if !isBreak c then return []
    advance 1
    return [if c.toNat < 0x2000 then '\n' else c]
  | [] => return []

/-- Passes over spaces and a comment up to the end of a line. -/
def restOfLine : Reads Unit := do
  let _ ← takeWhile (· == ' ')
  if (← peek) == some '#' then
    let _ ← takeWhile fun c => !isBreak c
  if !endsLine (← peek) then refuse "expected a comment or a line break"
  let _ ← lineBreak

end Yaml

end Scaffold
