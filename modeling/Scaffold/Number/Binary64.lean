/-!
# Binary floating point

Numbers of the 64-bit binary format as data: a sign, a mantissa below `2 ^ 53` and a power of two.
Every operation computes its exact rational result and rounds once, to the nearest representable
number, a tie to the even mantissa.  Nothing here touches the machine's own floating point, so
closed statements about these numbers can be evaluated by the kernel.

A finite number is kept in the one form in which either the mantissa is at least `2 ^ 52` or the
exponent is the least one, `-1074`; `ofRatio` produces that form and all other functions go through
it.
-/

namespace Scaffold

/-! ## Powers of two and of ten, in which the weight of a digit is given -/

namespace Power

/-- The power of two with an exponent. -/
def two (k : Nat) : Nat := Nat.pow 2 k

/-- The power of ten with an exponent. -/
def ten (k : Nat) : Nat := Nat.pow 10 k

theorem two_zero : two 0 = 1 := rfl

theorem two_succ (k : Nat) : two (k + 1) = two k * 2 := rfl

theorem ten_zero : ten 0 = 1 := rfl

theorem ten_succ (k : Nat) : ten (k + 1) = ten k * 10 := rfl

theorem two_pos (k : Nat) : 0 < two k := by
  induction k with
  | zero => decide
  | succ k ih => rw [two_succ]; exact Nat.mul_pos ih (by decide)

theorem ten_pos (k : Nat) : 0 < ten k := by
  induction k with
  | zero => decide
  | succ k ih => rw [ten_succ]; exact Nat.mul_pos ih (by decide)

end Power

/-! ## Numbers -/

/-- A 64-bit binary floating point number. -/
inductive Binary64 where
  | nan
  | infinite (negative : Bool)
  | finite (negative : Bool) (mantissa : Nat) (exponent : Int)
  deriving DecidableEq, Inhabited, Repr

namespace Binary64

/-- The quotient rounded to the nearest integer, a half to the even neighbour. -/
def roundDiv (num den : Nat) : Nat :=
  let q := num / den
  let r := num % den
  if 2 * r < den then q
  else if den < 2 * r then q + 1
  else if q % 2 = 0 then q else q + 1

/-- The number `± num / den` rounded to the format. -/
def ofRatio (negative : Bool) (num den : Nat) : Binary64 :=
  if num = 0 then .finite negative 0 (-1074)
  else
    let guess : Int := (num.log2 : Int) - den.log2
    let below : Bool :=
      if 0 ≤ guess then num < den * Power.two guess.toNat else num * Power.two (-guess).toNat < den
    let top := if below then guess - 1 else guess
    let e := max (top - 52) (-1074)
    let m := if 0 ≤ e then roundDiv num (den * Power.two e.toNat)
      else roundDiv (num * Power.two (-e).toNat) den
    let (m, e) := if m = Power.two 53 then (Power.two 52, e + 1) else (m, e)
    if e > 971 then .infinite negative else .finite negative m e

/-- Zero. -/
def zero : Binary64 := .finite false 0 (-1074)

/-- The number nearest to an integer. -/
def ofInt (n : Int) : Binary64 := ofRatio (n < 0) n.natAbs 1

/-- The number nearest to `± digits · 10 ^ scale`. -/
def ofDecimal (negative : Bool) (digits : Nat) (scale : Int) : Binary64 :=
  if 0 ≤ scale then ofRatio negative (digits * Power.ten scale.toNat) 1
  else ofRatio negative digits (Power.ten (-scale).toNat)

/-- Whether the sign bit is set. -/
def isNegative : Binary64 → Bool
  | .nan => false
  | .infinite s => s
  | .finite s _ _ => s

/-- The magnitude of a finite number as a fraction. -/
def magnitude (m : Nat) (e : Int) : Nat × Nat :=
  if 0 ≤ e then (m * Power.two e.toNat, 1) else (m, Power.two (-e).toNat)

/-- The exact value of a finite number as a fraction. -/
def ratio? : Binary64 → Option (Int × Nat)
  | .finite s m e =>
    let (p, q) := magnitude m e
    some (if s then -(p : Int) else p, q)
  | _ => none

/-- The integer a number is equal to, if any. -/
def toInt? (x : Binary64) : Option Int :=
  x.ratio?.bind fun (p, q) => if p % q = 0 then some (p / q) else none

/-- Change of sign. -/
def neg : Binary64 → Binary64
  | .nan => .nan
  | .infinite s => .infinite (!s)
  | .finite s m e => .finite (!s) m e

/-- The sum. -/
def add : Binary64 → Binary64 → Binary64
  | .nan, _ | _, .nan => .nan
  | .infinite s, .infinite t => if s = t then .infinite s else .nan
  | .infinite s, .finite .. | .finite .., .infinite s => .infinite s
  | .finite s m e, .finite t n f =>
    let (p, q) := magnitude m e
    let (p', q') := magnitude n f
    let a : Int := (if s then -(p * q' : Int) else p * q') + (if t then -(p' * q : Int) else p' * q)
    if a = 0 then ofRatio (s && t) 0 1 else ofRatio (a < 0) a.natAbs (q * q')

/-- The product. -/
def mul : Binary64 → Binary64 → Binary64
  | .nan, _ | _, .nan => .nan
  | .infinite s, .infinite t => .infinite (s != t)
  | .infinite s, .finite t m _ | .finite t m _, .infinite s =>
    if m = 0 then .nan else .infinite (s != t)
  | .finite s m e, .finite t n f =>
    let (p, q) := magnitude m e
    let (p', q') := magnitude n f
    ofRatio (s != t) (p * p') (q * q')

/-- The quotient by a positive integer. -/
def divNat (x : Binary64) (d : Nat) : Binary64 :=
  match x with
  | .finite s m e => let (p, q) := magnitude m e; ofRatio s p (q * d)
  | x => x

/-- The order of the extended reals as a comparison; nothing compares with `nan`. -/
def compare? : Binary64 → Binary64 → Option Ordering
  | .nan, _ | _, .nan => none
  | .infinite s, .infinite t => some (if s = t then .eq else if s then .lt else .gt)
  | .infinite s, .finite .. => some (if s then .lt else .gt)
  | .finite .., .infinite s => some (if s then .gt else .lt)
  | .finite s m e, .finite t n f =>
    let (p, q) := magnitude m e
    let (p', q') := magnitude n f
    let a : Int := if s then -(p * q' : Int) else p * q'
    let b : Int := if t then -(p' * q : Int) else p' * q
    some (compare a b)

/-- The comparison of an integer with a floating point number, exact on both sides. -/
def compareInt? (n : Int) : Binary64 → Option Ordering
  | .nan => none
  | .infinite s => some (if s then .gt else .lt)
  | .finite t m f =>
    let (p, q) := magnitude m f
    some (compare (n * q) (if t then -(p : Int) else p))

/-- Whether two floating point numbers are equal as numbers: both zeros are, `nan` never is. -/
def same (x y : Binary64) : Bool := compare? x y == some .eq

/-- Whether the number is zero. -/
def isZero : Binary64 → Bool
  | .finite _ m _ => m == 0
  | _ => false

end Binary64

/-- An exact integer or a floating point number. -/
inductive Number where
  | int (n : Int)
  | float (x : Binary64)
  deriving DecidableEq, Inhabited, Repr

namespace Number

/-- The order of numbers, exact between the two kinds. -/
def compare? : Number → Number → Option Ordering
  | .int a, .int b => some (compare a b)
  | .int a, .float y => Binary64.compareInt? a y
  | .float x, .int b => (Binary64.compareInt? b x).map Ordering.swap
  | .float x, .float y => Binary64.compare? x y

/-- Strictly less. -/
def lt (a b : Number) : Bool := compare? a b == some .lt

/-- Less or equal. -/
def le (a b : Number) : Bool := compare? a b == some .lt || compare? a b == some .eq

/-- Equal as numbers. -/
def same (a b : Number) : Bool := compare? a b == some .eq

/-- The nearest floating point number. -/
def toBinary64 : Number → Binary64
  | .int n => .ofInt n
  | .float x => x

/-- The sum, exact for integers and rounded otherwise. -/
def add : Number → Number → Number
  | .int a, .int b => .int (a + b)
  | a, b => .float (a.toBinary64.add b.toBinary64)

/-- The product, exact for integers and rounded otherwise. -/
def mul : Number → Number → Number
  | .int a, .int b => .int (a * b)
  | a, b => .float (a.toBinary64.mul b.toBinary64)

/-- The quotient by a positive integer, rounded once. -/
def divNat : Number → Nat → Binary64
  | .int a, d => .ofRatio (a < 0) a.natAbs d
  | .float x, d => x.divNat d

end Number

end Scaffold
