import Scaffold.Json.Reader
import Scaffold.Text.Utf8

/-!
# JSON in octets

Octets that hold a JSON text need not say how its characters are written.  A mark of the order of octets
in front tells; it is no part of the text.  Without one the zeros among the first octets tell, since a JSON
text begins with characters that have small codes.

Half of a surrogate pair without its partner reads as the replacement character, as an escape for one does.
-/

namespace Scaffold

namespace Json

/-- How the text in octets is written, and the number of octets of the mark in front. -/
def encodingOf (bs : List UInt8) : Encoding × Nat :=
  match (bs.take 4).map (·.toNat) with
  | [0, 0, 0xfe, 0xff] => (.utf32 true, 4)
  | [0xff, 0xfe, 0, 0] => (.utf32 false, 4)
  | 0xfe :: 0xff :: _ => (.utf16 true, 2)
  | 0xff :: 0xfe :: _ => (.utf16 false, 2)
  | 0xef :: 0xbb :: 0xbf :: _ => (.utf8, 3)
  | [0, 0, _, _] => (.utf32 true, 0)
  | [0, _, _, _] => (.utf16 true, 0)
  | [_, 0, 0, 0] => (.utf32 false, 0)
  | [_, 0, _, _] => (.utf16 false, 0)
  | [0, _] => (.utf16 true, 0)
  | [_, 0] => (.utf16 false, 0)
  | _ => (.utf8, 0)

/-- The number that a unit of octets is. -/
def unitOf (highFirst : Bool) (unit : List UInt8) : Nat :=
  (if highFirst then unit else unit.reverse).foldl (fun n b => n * 256 + b.toNat) 0

/-- The characters of units of two octets, the first of which stands at an offset. -/
def decode16 (highFirst : Bool) (offset : Nat) : List UInt8 → Except Octets.Fault (List Char)
  | a :: b :: c :: d :: rest =>
    let n := unitOf highFirst [a, b]
    let m := unitOf highFirst [c, d]
    if 0xd800 ≤ n && n ≤ 0xdbff && 0xdc00 ≤ m && m ≤ 0xdfff then
      (decode16 highFirst (offset + 4) rest).map (pairUnit n m :: ·)
    else (decode16 highFirst (offset + 2) (c :: d :: rest)).map (loneUnit n :: ·)
  | a :: b :: rest => (decode16 highFirst (offset + 2) rest).map (loneUnit (unitOf highFirst [a, b]) :: ·)
  | [b] => .error { cause := .truncated, first := b, offset, octets := 1, encoding := .utf16 highFirst }
  | [] => .ok []

/-- The characters of units of four octets, the first of which stands at an offset. -/
def decode32 (highFirst : Bool) (offset : Nat) : List UInt8 → Except Octets.Fault (List Char)
  | a :: b :: c :: d :: rest =>
    let n := unitOf highFirst [a, b, c, d]
    if n < 0x110000 then (decode32 highFirst (offset + 4) rest).map (loneUnit n :: ·)
    else .error { cause := .outOfRange, first := a, offset, octets := 4, encoding := .utf32 highFirst }
  | [] => .ok []
  | b :: rest =>
    .error { cause := .truncated, first := b, offset, octets := rest.length + 1, encoding := .utf32 highFirst }

/-- Octets with the replacement character in the place of each half of a surrogate pair. -/
def withoutHalves : List UInt8 → List UInt8
  | a :: b :: c :: rest =>
    if a.toNat = 0xed && 0xa0 ≤ b.toNat && b.toNat ≤ 0xbf && 0x80 ≤ c.toNat && c.toNat ≤ 0xbf then
      0xef :: 0xbf :: 0xbd :: withoutHalves rest
    else a :: withoutHalves (b :: c :: rest)
  | short => short

/-- The text in octets. -/
def decode (bs : List UInt8) : Except Octets.Fault String :=
  let (encoding, mark) := encodingOf bs
  let rest := bs.drop mark
  match encoding with
  | .utf8 => Utf8.decode (withoutHalves rest)
  | .utf16 highFirst => (decode16 highFirst mark rest).map String.ofList
  | .utf32 highFirst => (decode32 highFirst mark rest).map String.ofList

/-- The value of a text that was in octets, where no further mark of their order is known. -/
def readDecoded (s : String) : Except Error Value :=
  (readAll.body s.toList).mapError (locate s.toList)

end Json

end Scaffold
