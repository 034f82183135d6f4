import Scaffold.Value.Written

/-!
# UTF-8

Decoding of octets.  One left to right reading cuts a sequence of octets into characters and
stretches that no character has; a strict decoder fails at the first such stretch, a lenient one
puts the replacement character in the place of each.

A character is read as its first octet, which fixes how many more are owed and the range of the next
one, and then its continuation octets.  An octet outside that range ends the stretch before it and
is read afresh.
-/

namespace Scaffold

/-- How characters are written in octets; units of several octets have the high ones first or last. -/
inductive Encoding where
  | utf8
  | utf16 (highFirst : Bool)
  | utf32 (highFirst : Bool)
  deriving DecidableEq, Inhabited, Repr

/-- The name of an encoding. -/
def Encoding.name : Encoding → String
  | .utf8 => "utf-8"
  | .utf16 highFirst => if highFirst then "utf-16-be" else "utf-16-le"
  | .utf32 highFirst => if highFirst then "utf-32-be" else "utf-32-le"

namespace Octets

/-- Why a stretch of octets has no character. -/
inductive Cause where
  | badStart
  | badContinuation
  | unexpectedEnd
  | truncated
  | outOfRange
  deriving DecidableEq, Inhabited, Repr

/-- The wording of a cause. -/
def Cause.text : Cause → String
  | .badStart => "invalid start byte"
  | .badContinuation => "invalid continuation byte"
  | .unexpectedEnd => "unexpected end of data"
  | .truncated => "truncated data"
  | .outOfRange => "code point not in range(0x110000)"

/-- The first stretch without a character, where it is and how long. -/
structure Fault where
  cause : Cause
  first : UInt8
  offset : Nat
  octets : Nat
  encoding : Encoding := .utf8
  deriving DecidableEq, Inhabited, Repr

/-- The wording of a fault. -/
def Fault.message (f : Fault) : String :=
  "'" ++ f.encoding.name ++ "' codec can't decode " ++
    (if f.octets = 1 then
      "byte 0x" ++ String.ofList (Quoted.hex 2 f.first.toNat) ++ " in position " ++ toString f.offset
    else
      "bytes in position " ++ toString f.offset ++ "-" ++ toString (f.offset + f.octets - 1)) ++
    ": " ++ f.cause.text

end Octets

namespace Utf8

open Octets

/-- A character and the number of its octets, or a stretch without a character. -/
inductive Item where
  | char (c : Char) (octets : Nat)
  | bad (cause : Cause) (first : UInt8) (octets : Nat)
  deriving DecidableEq, Inhabited, Repr

/-- A character begun: how many octets are owed, the range of the next one, the code so far, its
first octet and the number of octets read. -/
structure Begun where
  owed : Nat
  low : Nat
  high : Nat
  code : Nat
  first : UInt8
  octets : Nat
  deriving DecidableEq, Inhabited, Repr

/-- Reads the first octet of a character: the character, a stretch without one, or one begun. -/
def start (b : UInt8) : Item ⊕ Begun :=
  let n := b.toNat
  if n < 0x80 then .inl (.char (Char.ofNat n) 1)
  else if n < 0xc2 then .inl (.bad .badStart b 1)
  else if n < 0xe0 then .inr ⟨1, 0x80, 0xbf, n - 0xc0, b, 1⟩
  else if n < 0xf0 then
    .inr ⟨2, if n = 0xe0 then 0xa0 else 0x80, if n = 0xed then 0x9f else 0xbf, n - 0xe0, b, 1⟩
  else if n < 0xf5 then
    .inr ⟨3, if n = 0xf0 then 0x90 else 0x80, if n = 0xf4 then 0x8f else 0xbf, n - 0xf0, b, 1⟩
  else .inl (.bad .badStart b 1)

/-- Reads a first octet and hands on what it gave. -/
def startWith (b : UInt8) (k : Option Begun → List Item) : List Item :=
  match start b with
  | .inl item => item :: k none
  | .inr s => k (some s)

/-- The items of octets behind what was begun. -/
def items : Option Begun → List UInt8 → List Item
  | none, [] => []
  | some s, [] => [.bad .unexpectedEnd s.first s.octets]
  | none, b :: rest => startWith b fun s => items s rest
  | some s, b :: rest =>
    let n := b.toNat
    if s.low ≤ n && n ≤ s.high then
      let code := s.code * 64 + (n - 0x80)
      if s.owed ≤ 1 then .char (Char.ofNat code) (s.octets + 1) :: items none rest
      else items (some ⟨s.owed - 1, 0x80, 0xbf, code, s.first, s.octets + 1⟩) rest
    else .bad .badContinuation s.first s.octets :: startWith b fun s => items s rest

/-- The characters of items up to the first stretch without one. -/
def strictly (offset : Nat) : List Item → Except Fault (List Char)
  | [] => .ok []
  | .char c n :: rest => (strictly (offset + n) rest).map (c :: ·)
  | .bad cause first n :: _ => .error { cause, first, offset, octets := n }

/-- The text of octets, or the first fault. -/
def decode (bs : List UInt8) : Except Fault String :=
  (strictly 0 (items none bs)).map String.ofList

/-- The text of octets with a replacement character for every stretch that has none. -/
def decodeLenient (bs : List UInt8) : String :=
  String.ofList <| (items none bs).map fun
    | .char c _ => c
    | .bad .. => Char.ofNat 0xfffd

/-- The octets of a text. -/
def encode (s : String) : List UInt8 := s.toUTF8.toList

end Utf8

end Scaffold
