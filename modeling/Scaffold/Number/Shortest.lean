import Scaffold.Number.Binary64

/-!
# Decimal digits of a floating point number

The fewest decimal digits that read back as the same number, and the digits rounded to a given
count.  Both describe a positive number as `0.d₁d₂… · 10 ^ point`, digits first to last.

For one digit, two digits and so on up to seventeen, the two neighbours of the number on that
decimal grid are tested against the interval of reals that round to it (its ends belong to it
exactly when the mantissa is even); the first grid with a hit wins, and of two hits the nearer.
-/

namespace Scaffold

namespace Decimal

/-- The least `p` from `start` on with `num < den · 10 ^ p`, looking at no more than `fuel`. -/
def pointFrom (num den : Nat) (start : Int) : (fuel : Nat) → Int
  | 0 => start
  | fuel + 1 =>
    let below : Bool :=
      if 0 ≤ start then num < den * Power.ten start.toNat else num * Power.ten (-start).toNat < den
    if below then start else pointFrom num den (start + 1) fuel

/-- The decimal point of a positive fraction: `10 ^ (p - 1) ≤ num / den < 10 ^ p`. -/
def point (num den : Nat) : Int :=
  let bits : Int := (num.log2 : Int) - den.log2 - 1
  pointFrom num den (Int.fdiv (bits * 30103) 100000 - 1) 6

/-- The digits of a number, first to last. -/
def digitsOf (n : Nat) : List Nat := (Nat.toDigits 10 n).map fun c => c.toNat - 48

/-- The digits without the zeros at the end. -/
def trimZeros (ds : List Nat) : List Nat := (ds.reverse.dropWhile (· == 0)).reverse

/-- The fraction multiplied by `10 ^ k`. -/
def scale (num den : Nat) (k : Int) : Nat × Nat :=
  if 0 ≤ k then (num * Power.ten k.toNat, den) else (num, den * Power.ten (-k).toNat)

/-- Digits and point of a positive fraction rounded to `count` digits. -/
def rounded (num den count : Nat) : List Nat × Int :=
  let p := point num den
  let (a, b) := scale num den (count - p)
  let q := Binary64.roundDiv a b
  if q = Power.ten count then (1 :: List.replicate (count - 1) 0, p + 1) else (digitsOf q, p)

/-- The interval of reals that round to the number `m · 2 ^ e`, in quarters of `2 ^ e`. -/
def roundingInterval (m : Nat) (e : Int) : Nat × Nat :=
  (if m = Power.two 52 && e > -1074 then 4 * m - 1 else 4 * m - 2, 4 * m + 2)

/-- The shortest digits on the grids of `count`, `count + 1`, … digits. -/
def shortestFrom (m : Nat) (e : Int) (p : Int) (count : Nat) : (fuel : Nat) → List Nat × Int
  | 0 =>
    let (num, den) := Binary64.magnitude m e
    rounded num den 17
  | fuel + 1 =>
    let (num, den) := Binary64.magnitude m e
    let (a, b) := scale num den (count - p)
    let low := a / b
    let (lo, hi) := roundingInterval m e
    let closed : Bool := m % 2 = 0
    let inside (d : Nat) : Bool :=
      let lhs := d * b * 4 * m
      let (l, h) := (lo * a, hi * a)
      if closed then l ≤ lhs && lhs ≤ h else l < lhs && lhs < h
    let near := Binary64.roundDiv a b
    let other := if near = low then low + 1 else low
    let pick : Option Nat := if inside near then some near else if inside other then some other else none
    match pick with
    | some d =>
      if d = Power.ten count then ([1], p + 1) else (trimZeros (digitsOf d), p)
    | none => shortestFrom m e p (count + 1) fuel

/-- The fewest digits that read back as `m · 2 ^ e`, with their point. -/
def shortest (m : Nat) (e : Int) : List Nat × Int :=
  let (num, den) := Binary64.magnitude m e
  shortestFrom m e (point num den) 1 17

end Decimal

end Scaffold
