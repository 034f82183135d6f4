import Mathlib.Algebra.Group.Nat.Defs
import Scaffold.Number.Binary64

/-!
# Integers among floating point numbers

An integer is rounded to 53 binary digits.

Two numbers compare, in either order, unless one of them is not a number.  So of two that compare one is
at most the other exactly if it is not above it, and what is not a number is neither.
-/

namespace Scaffold

namespace Binary64

/-- An integer with at most 53 binary digits in front of its zeros, in the range of the format. -/
def Represents (n : Int) : Prop := ∃ m k : Nat, n.natAbs = m * 2 ^ k ∧ m < 2 ^ 53 ∧ k ≤ 971

variable {num den k : Nat} {s : Bool}

/-- An integer of a sign. -/
def withSign (s : Bool) (n : Nat) : Int := if s then -n else n

theorem withSign_natAbs (n : Int) : withSign (n < 0) n.natAbs = n := by
  unfold withSign
  by_cases negative : n < 0
  · rw [if_pos (decide_eq_true negative)]
    omega
  · rw [if_neg (by simpa using negative)]
    omega

theorem withSign_mul (s : Bool) (a b : Nat) : withSign s (a * b) = withSign s a * b := by
  unfold withSign
  split
  · rw [Int.natCast_mul, Int.neg_mul]
  · exact Int.natCast_mul a b

theorem withSign_inj {a b : Nat} (h : withSign s a = withSign s b) : a = b := by
  unfold withSign at h
  split at h <;> omega

theorem two_eq (k : Nat) : Power.two k = 2 ^ k := rfl

theorem roundDiv_one (num : Nat) : roundDiv num 1 = num := by
  simp [roundDiv, Nat.mod_one]

/-- A quotient is rounded to itself exactly if it is whole. -/
theorem roundDiv_mul_eq_iff (pos : 0 < den) : roundDiv num den * den = num ↔ den ∣ num := by
  constructor
  · exact fun h => ⟨roundDiv num den, by rw [Nat.mul_comm, h]⟩
  · rintro ⟨q, rfl⟩
    have whole : roundDiv (den * q) den = q := by
      rw [roundDiv, Nat.mul_mod_right, Nat.mul_div_cancel_left q pos, if_pos (by omega)]
    rw [whole, Nat.mul_comm]

/-- A fraction with a sign is an integer if its denominator is a factor of its numerator. -/
theorem toInt?_of_ratio? {x : Binary64} {m q : Nat} (pos : q ≠ 0)
    (h : x.ratio? = some (withSign s (m * q), q)) : x.toInt? = some (withSign s m) := by
  have there : (q : Int) ≠ 0 := Int.natCast_ne_zero.mpr pos
  rw [toInt?, h, Option.bind_some, withSign_mul]
  dsimp only
  rw [if_pos (Int.mul_emod_left _ _), Int.mul_ediv_cancel _ there]

theorem toInt?_of_nonneg (s : Bool) (m k : Nat) :
    (finite s m k).toInt? = some (withSign s (m * 2 ^ k)) := by
  have up : (0 : Int) ≤ k := Int.natCast_nonneg k
  refine toInt?_of_ratio? Nat.one_ne_zero ?_
  unfold ratio? magnitude
  dsimp only
  rw [if_pos up, Int.toNat_natCast, two_eq, Nat.mul_one]
  rfl

theorem toInt?_of_neg (s : Bool) (m k : Nat) (pos : 0 < k) :
    (finite s (m * 2 ^ k) (-k)).toInt? = some (withSign s m) := by
  have down : ¬ (0 : Int) ≤ -k := by omega
  refine toInt?_of_ratio? (Nat.ne_of_gt (Nat.two_pow_pos k)) ?_
  unfold ratio? magnitude
  dsimp only
  rw [if_neg down, Int.neg_neg, Int.toNat_natCast, two_eq]
  rfl

/-- A mantissa with its exponent, where the mantissa may have been rounded up to one more digit. -/
def carried (s : Bool) (m : Nat) (e : Int) : Binary64 :=
  if m = 2 ^ 53 then if 971 < e + 1 then infinite s else finite s (2 ^ 52) (e + 1)
  else if 971 < e then infinite s else finite s m e

/-- An integer is rounded to the 53 digits from its first one on. -/
theorem ofRatio_one (pos : num ≠ 0) {e : Int} (place : (num.log2 : Int) - 52 = e) :
    ofRatio s num 1 =
      carried s (if 0 ≤ e then roundDiv num (2 ^ e.toNat) else num * 2 ^ (-e).toNat) e := by
  have low : ¬ num < 2 ^ num.log2 := Nat.not_lt.mpr (Nat.log2_self_le pos)
  have one : Nat.log2 1 = 0 := by decide
  have top : max e (-1074) = e := by omega
  unfold ofRatio carried
  simp only [if_neg pos, one, two_eq, Int.natCast_zero, Int.sub_zero, Int.natCast_nonneg, if_true,
    Int.toNat_natCast, low, decide_false, Bool.false_eq_true, if_false, place, top, Nat.one_mul,
    roundDiv_one]
  generalize (if 0 ≤ e then roundDiv num (2 ^ e.toNat) else num * 2 ^ (-e).toNat) = m
  split <;> rfl

/-- An integer with fewer digits has digits to spare. -/
theorem ofRatio_small (pos : num ≠ 0) (place : num.log2 + (k + 1) = 52) :
    ofRatio s num 1 = finite s (num * 2 ^ (k + 1)) (-(k + 1 : Nat)) := by
  have down : ¬ (0 : Int) ≤ -(k + 1 : Nat) := by omega
  have fits : num * 2 ^ (k + 1) < 2 ^ 53 := by
    calc num * 2 ^ (k + 1) < 2 ^ (num.log2 + 1) * 2 ^ (k + 1) :=
          Nat.mul_lt_mul_of_pos_right Nat.lt_log2_self (Nat.two_pow_pos _)
      _ = 2 ^ 53 := by rw [← Nat.pow_add]; congr 1; omega
  rw [ofRatio_one pos (e := -(k + 1 : Nat)) (by omega), if_neg down, Int.neg_neg, Int.toNat_natCast,
    carried, if_neg (Nat.ne_of_lt fits), if_neg (by omega)]

/-- Any other integer is rounded to a multiple of a power of two. -/
theorem ofRatio_large (pos : num ≠ 0) (place : num.log2 = k + 52) :
    ofRatio s num 1 = carried s (roundDiv num (2 ^ k)) k := by
  have up : (0 : Int) ≤ k := Int.natCast_nonneg k
  rw [ofRatio_one pos (e := k) (by omega), if_pos up, Int.toNat_natCast]

/-- What a mantissa stands for does not depend on whether it was rounded up to one more digit. -/
theorem toInt?_carried (s : Bool) (m k : Nat) : (carried s m k).toInt? =
    if 971 < k ∨ m = 2 ^ 53 ∧ 971 < k + 1 then none else some (withSign s (m * 2 ^ k)) := by
  unfold carried
  split
  next full =>
    split
    · rw [if_pos (by omega)]
      rfl
    · rw [if_neg (by omega), full]
      have double : 2 ^ 52 * 2 ^ (k + 1) = 2 ^ 53 * 2 ^ k := by
        rw [← Nat.pow_add, ← Nat.pow_add]
        congr 1
        omega
      rw [← double]
      exact toInt?_of_nonneg s (2 ^ 52) (k + 1)
  next =>
    split
    · rw [if_pos (by omega)]
      rfl
    · rw [if_neg (by omega)]
      exact toInt?_of_nonneg s m k

/-- An integer is the number that it is rounded to exactly if the format represents it. -/
theorem toInt?_ofInt_iff (n : Int) : (ofInt n).toInt? = some n ↔ Represents n := by
  unfold ofInt
  by_cases zero : n = 0
  · subst zero
    exact iff_of_true (by decide +kernel) ⟨0, 0, by decide, by decide, by decide⟩
  have pos : n.natAbs ≠ 0 := Int.natAbs_ne_zero.mpr zero
  by_cases small : n.natAbs.log2 < 52
  · obtain ⟨k, place⟩ : ∃ k, n.natAbs.log2 + (k + 1) = 52 := ⟨51 - n.natAbs.log2, by omega⟩
    rw [ofRatio_small pos place, toInt?_of_neg _ _ _ (Nat.succ_pos k), withSign_natAbs]
    refine iff_of_true rfl ⟨n.natAbs, 0, by simp, ?_, by decide⟩
    exact Nat.lt_of_lt_of_le Nat.lt_log2_self (Nat.pow_le_pow_right (by decide) (by omega))
  · obtain ⟨k, place⟩ : ∃ k, n.natAbs.log2 = k + 52 := ⟨n.natAbs.log2 - 52, by omega⟩
    rw [ofRatio_large pos place, toInt?_carried]
    -- what has no more than 53 digits from the first one on is below the next power of two
    have digits {q : Nat} (whole : q * 2 ^ k = n.natAbs) : q < 2 ^ 53 := by
      refine Nat.lt_of_mul_lt_mul_right (a := 2 ^ k) ?_
      calc q * 2 ^ k = n.natAbs := whole
        _ < 2 ^ (n.natAbs.log2 + 1) := Nat.lt_log2_self
        _ = 2 ^ 53 * 2 ^ k := by rw [← Nat.pow_add]; congr 1; omega
    constructor
    · intro same
      split at same
      next => cases same
      next inside =>
        have whole : roundDiv n.natAbs (2 ^ k) * 2 ^ k = n.natAbs :=
          withSign_inj ((Option.some.inj same).trans (withSign_natAbs n).symm)
        exact ⟨_, k, whole.symm, digits whole, by omega⟩
    · rintro ⟨m, j, same, below, inside⟩
      have fits : k ≤ j := by
        have less : 2 ^ (k + 52) < 2 ^ (53 + j) :=
          calc 2 ^ (k + 52) = 2 ^ n.natAbs.log2 := by rw [place]
            _ ≤ n.natAbs := Nat.log2_self_le pos
            _ = m * 2 ^ j := same
            _ < 2 ^ 53 * 2 ^ j := Nat.mul_lt_mul_of_pos_right below (Nat.two_pow_pos j)
            _ = 2 ^ (53 + j) := (Nat.pow_add 2 53 j).symm
        have := (Nat.pow_lt_pow_iff_right (by decide)).mp less
        omega
      have whole : roundDiv n.natAbs (2 ^ k) * 2 ^ k = n.natAbs :=
        (roundDiv_mul_eq_iff (Nat.two_pow_pos k)).mpr
          (same ▸ Nat.dvd_mul_left_of_dvd (Nat.pow_dvd_pow 2 fits) m)
      have below := digits whole
      rw [if_neg (by omega), whole, withSign_natAbs]

end Binary64

/-! ## The order of numbers -/

namespace Binary64

/-- The comparison the other way round. -/
theorem compare?_swap (x y : Binary64) : (compare? x y).map Ordering.swap = compare? y x := by
  cases x with
  | nan => cases y <;> rfl
  | infinite s =>
    cases y with
    | nan => rfl
    | infinite t => cases s <;> cases t <;> rfl
    | finite => cases s <;> rfl
  | finite =>
    cases y with
    | nan => rfl
    | infinite t => cases t <;> rfl
    | finite => exact congrArg some Std.OrientedCmp.eq_swap.symm

theorem compare?_isSome_iff {x y : Binary64} : (compare? x y).isSome = true ↔ x ≠ .nan ∧ y ≠ .nan := by
  cases x <;> cases y <;> simp [compare?]

theorem compareInt?_isSome_iff {n : Int} {y : Binary64} :
    (compareInt? n y).isSome = true ↔ y ≠ .nan := by
  cases y <;> simp [compareInt?]

end Binary64

namespace Number

/-- The comparison the other way round. -/
theorem compare?_swap (a b : Number) : (compare? a b).map Ordering.swap = compare? b a := by
  cases a with
  | int m =>
    cases b with
    | int n => exact congrArg some Std.OrientedCmp.eq_swap.symm
    | float y => rfl
  | float x =>
    cases b with
    | int n =>
      show ((Binary64.compareInt? n x).map Ordering.swap).map Ordering.swap = Binary64.compareInt? n x
      cases Binary64.compareInt? n x <;> simp
    | float y => exact Binary64.compare?_swap x y

/-- Only what is not a number does not compare. -/
theorem compare?_isSome_iff {a b : Number} :
    (compare? a b).isSome = true ↔ a ≠ .float .nan ∧ b ≠ .float .nan := by
  cases a <;> cases b <;>
    simp [compare?, Binary64.compareInt?_isSome_iff, Binary64.compare?_isSome_iff]

/-- A number is at most another one exactly if both are numbers and the other is not less. -/
theorem le_iff {a b : Number} :
    a.le b = true ↔ (a ≠ .float .nan ∧ b ≠ .float .nan) ∧ b.lt a = false := by
  rw [← compare?_isSome_iff, lt, le, ← compare?_swap a b]
  rcases compare? a b with _ | order
  · decide
  · cases order <;> decide

end Number

end Scaffold
