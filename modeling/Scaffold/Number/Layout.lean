import Scaffold.Number.Shortest
import Scaffold.Text.Letter

/-!
# How numbers are written

Three ways to write a floating point number: in full (the shortest digits, always with a point or
an exponent), to six significant digits without trailing zeros, and with a fixed count of places.
-/

namespace Scaffold

namespace Decimal

/-- Digits as characters. -/
def digitText (ds : List Nat) : String := String.ofList (ds.map Text.digitChar)

/-- `ds` padded with zeros at the back to at least `n` digits. -/
def padded (ds : List Nat) (n : Nat) : List Nat := ds ++ List.replicate (n - ds.length) 0

/-- Positional writing; a whole number has no point. -/
def positional (ds : List Nat) (p : Int) : String :=
  if p ≤ 0 then "0." ++ digitText (List.replicate (-p).toNat 0 ++ ds)
  else
    let whole := padded ds p.toNat
    if whole.length ≤ p.toNat then digitText whole
    else digitText (whole.take p.toNat) ++ "." ++ digitText (whole.drop p.toNat)

/-- Writing with an exponent of at least two digits. -/
def exponential (ds : List Nat) (p : Int) : String :=
  let x := p - 1
  let head := digitText (ds.take 1)
  let tail := ds.drop 1
  let mantissa := if tail.isEmpty then head else head ++ "." ++ digitText tail
  let magnitude := Nat.toDigits 10 x.natAbs
  let exponent := String.ofList (List.replicate (2 - magnitude.length) '0' ++ magnitude)
  mantissa ++ "e" ++ (if x < 0 then "-" else "+") ++ exponent

/-- `body` behind a minus sign if asked for. -/
def signed (negative : Bool) (body : String) : String := if negative then "-" ++ body else body

end Decimal

namespace Binary64

open Decimal

/-- The number in full: the shortest digits, positional from `1e-4` up to below `1e16`. -/
def full : Binary64 → String
  | .nan => "nan"
  | .infinite s => signed s "inf"
  | .finite s m e =>
    if m = 0 then signed s "0.0"
    else
      let (ds, p) := shortest m e
      signed s <|
        if -4 < p && p ≤ 16 then
          if (ds.length : Int) ≤ p then positional ds p ++ ".0" else positional ds p
        else exponential ds p

/-- The number to six significant digits, without trailing zeros. -/
def brief : Binary64 → String
  | .nan => "nan"
  | .infinite s => signed s "inf"
  | .finite s m e =>
    if m = 0 then signed s "0"
    else
      let (num, den) := magnitude m e
      let (ds, p) := rounded num den 6
      let ds := trimZeros ds
      signed s <| if -4 < p && p ≤ 6 then positional ds p else exponential ds p

/-- The number with `places` digits behind the point, a half going to the even neighbour. -/
def fixed (places : Nat) : Binary64 → String
  | .nan => "nan"
  | .infinite s => signed s "inf"
  | .finite s m e =>
    let (num, den) := magnitude m e
    let ds := Nat.toDigits 10 (roundDiv (num * Power.ten places) den)
    let ds := List.replicate (places + 1 - ds.length) '0' ++ ds
    let whole := String.ofList (ds.take (ds.length - places))
    signed s <|
      if places = 0 then whole else whole ++ "." ++ String.ofList (ds.drop (ds.length - places))

end Binary64

/-- The decimal digits of an integer, with a minus sign if it is negative. -/
def intText (n : Int) : String := Decimal.signed (n < 0) (String.ofList (Nat.toDigits 10 n.natAbs))

end Scaffold
