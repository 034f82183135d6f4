import Scaffold.Number.Binary64
import Scaffold.Text.Blank
import Scaffold.Text.Letter

/-!
# Reading numbers

The numeral of a floating point number: an optional sign, digits with at most one point, an optional
exponent; or one of the words for infinity and not-a-number in any case.  The general reader allows
blanks around the numeral, decimal digits of any script and single underscores between digits.
-/

namespace Scaffold

namespace Numeral

/-- The number that a list of ASCII digits writes. -/
def natOfDigits (ds : List Char) : Nat := ds.foldl (fun n c => 10 * n + (c.toNat - 48)) 0

/-- A sign in front, and the rest. -/
def sign : List Char → Bool × List Char
  | '-' :: s => (true, s)
  | '+' :: s => (false, s)
  | s => (false, s)

/-- The exponent part of a numeral that ends with it; none if it is ill-formed. -/
def exponent? : List Char → Option Int
  | [] => some 0
  | c :: s =>
    if c == 'e' || c == 'E' then
      let (negative, ds) := sign s
      if ds.isEmpty || !ds.all Text.isAsciiDigit then none
      else some (if negative then -(natOfDigits ds : Int) else natOfDigits ds)
    else none

/-- A power of ten this far out is beyond the format in either direction. -/
def clampScale (digits : Nat) (scale : Int) : Int :=
  max (-(400 + digits : Int)) (min scale 400)

/-- The value of an unsigned decimal numeral. -/
def decimal? (negative : Bool) (s : List Char) : Option Binary64 :=
  let whole := s.takeWhile Text.isAsciiDigit
  let rest := s.dropWhile Text.isAsciiDigit
  let (places, tail) :=
    match rest with
    | '.' :: r => (r.takeWhile Text.isAsciiDigit, r.dropWhile Text.isAsciiDigit)
    | r => ([], r)
  if whole.isEmpty && places.isEmpty then none
  else
    (exponent? tail).map fun x =>
      let ds := whole ++ places
      Binary64.ofDecimal negative (natOfDigits ds)
        (clampScale ds.length (x - (places.length : Int)))

/-- Small letters for ASCII capitals. -/
def lowerAscii (s : List Char) : List Char :=
  s.map fun c => if Text.isCapital c then Char.ofNat (c.toNat + 32) else c

/-- The value of a numeral without blanks, underscores or foreign digits. -/
def float? (s : List Char) : Option Binary64 :=
  let (negative, body) := sign s
  let word := lowerAscii body
  if word == "inf".toList || word == "infinity".toList then some (.infinite negative)
  else if word == "nan".toList then some .nan
  else decimal? negative body

/-- The text without its underscores, if each of them stands between two digits. -/
def dropUnderscores? : (before : Option Char) → List Char → Option (List Char)
  | _, [] => some []
  | before, '_' :: rest =>
    if before.any Text.isAsciiDigit && rest.head?.any Text.isAsciiDigit then
      dropUnderscores? (some '_') rest
    else none
  | _, c :: rest => (dropUnderscores? (some c) rest).map (c :: ·)

/-- Digits of all scripts as ASCII digits. -/
def asciiDigits (s : List Char) : List Char :=
  s.map fun c => match Text.digitValue? c with
    | some d => Text.digitChar d
    | none => c

/-- The value of a numeral in its general form. -/
def read? (s : String) : Option Binary64 :=
  (dropUnderscores? none (asciiDigits (Text.trimChars s.toList))).bind float?

/-- The integer that a text of an optional sign and digits writes, in its general form. -/
def readInt? (s : String) : Option Int :=
  (dropUnderscores? none (asciiDigits (Text.trimChars s.toList))).bind fun s =>
    let (negative, ds) := sign s
    if ds.isEmpty || !ds.all Text.isAsciiDigit then none
    else some (if negative then -(natOfDigits ds : Int) else natOfDigits ds)

end Numeral

end Scaffold
