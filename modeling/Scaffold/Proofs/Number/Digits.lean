import Mathlib.Data.List.DropRight
import Scaffold.Proofs.Number.Numerals
import Scaffold.Proofs.Number.Rounding

/-!
# The shortest digits of a number

Seventeen digits are enough: on their grid, the neighbour of a number lies so close to it that it is
rounded to it.  What is taken from a coarser grid is tested to be rounded to the number, so that the digits
always read back as the number.
-/

namespace Scaffold

namespace Decimal

/-! ## The decimal point -/

/-- The place of the first decimal digit of a fraction. -/
structure Point (x : ℚ) (p : ℤ) : Prop where
  low : (10 : ℚ) ^ (p - 1) ≤ x
  high : x < 10 ^ p

/-- Powers of two below powers of ten: the quotients are close to the logarithm on either side. -/
theorem two_zpow_le_ten_zpow {a b : ℤ} (h : 28 * b ≤ 93 * a) (h' : 59 * b ≤ 196 * a) :
    (2 : ℚ) ^ b ≤ 10 ^ a := by
  rcases le_or_gt 0 a with up | down
  · obtain ⟨n, rfl⟩ := Int.eq_ofNat_of_zero_le up
    refine le_of_pow_le_pow_left₀ (show 28 ≠ 0 by decide) (by positivity) ?_
    calc ((2 : ℚ) ^ b) ^ 28 = 2 ^ (b * 28) := by rw [zpow_mul]; norm_cast
      _ ≤ 2 ^ ((93 : ℤ) * n) := zpow_le_zpow_right₀ (by norm_num) (by omega)
      _ = (2 ^ 93) ^ n := by rw [zpow_mul]; norm_cast
      _ ≤ (10 ^ 28) ^ n := by gcongr; norm_num
      _ = ((10 : ℚ) ^ (n : ℤ)) ^ 28 := by rw [zpow_natCast, ← pow_mul, ← pow_mul, Nat.mul_comm]
  · obtain ⟨n, same⟩ := Int.eq_ofNat_of_zero_le (show 0 ≤ -a by omega)
    obtain rfl : a = -n := by omega
    refine le_of_pow_le_pow_left₀ (show 59 ≠ 0 by decide) (by positivity) ?_
    calc ((2 : ℚ) ^ b) ^ 59 = 2 ^ (b * 59) := by rw [zpow_mul]; norm_cast
      _ ≤ 2 ^ ((-196 : ℤ) * n) := zpow_le_zpow_right₀ (by norm_num) (by omega)
      _ = ((2 ^ 196) ^ n)⁻¹ := by rw [neg_mul, zpow_neg, zpow_mul]; norm_cast
      _ ≤ ((10 ^ 59) ^ n)⁻¹ := by gcongr; norm_num
      _ = ((10 : ℚ) ^ (-n : ℤ)) ^ 59 := by
        rw [zpow_neg, zpow_natCast, inv_pow, ← pow_mul, ← pow_mul, Nat.mul_comm]

/-- Powers of ten below powers of two. -/
theorem ten_zpow_le_two_zpow {a b : ℤ} (h : 93 * a ≤ 28 * b) (h' : 196 * a ≤ 59 * b) :
    (10 : ℚ) ^ a ≤ 2 ^ b := by
  have less := two_zpow_le_ten_zpow (a := -a) (b := -b) (by omega) (by omega)
  rw [zpow_neg, zpow_neg] at less
  exact (inv_le_inv₀ (by positivity) (by positivity)).mp less

section Fraction

variable {num den : ℕ}

theorem pointFrom_spec (pos : 0 < den) (fuel : ℕ) (start : ℤ) (low : (10 : ℚ) ^ (start - 1) ≤ (num : ℚ) / den)
    (high : (num : ℚ) / den < 10 ^ (start + fuel - 1)) :
    Point ((num : ℚ) / den) (pointFrom num den start fuel) := by
  induction fuel generalizing start with
  | zero =>
    rw [Nat.cast_zero, add_zero] at high
    exact absurd (low.trans_lt high) (lt_irrefl _)
  | succ fuel ih =>
    have compared := Binary64.lt_power_iff num (b := 10) (by decide) pos start
    have cast : ((10 : ℕ) : ℚ) = 10 := by norm_num
    rw [cast] at compared
    by_cases less : (num : ℚ) / den < 10 ^ start
    · have here : pointFrom num den start (fuel + 1) = start := if_pos (compared.mpr less)
      rw [here]
      exact ⟨low, less⟩
    · have next : pointFrom num den start (fuel + 1) = pointFrom num den (start + 1) fuel :=
        if_neg (mt compared.mp less)
      rw [next]
      refine ih (start + 1) ?_ ?_
      · rw [add_sub_cancel_right]
        exact not_lt.mp less
      · rwa [Nat.cast_succ, ← add_assoc, add_right_comm] at high

/-- The point of a fraction in the range of the format is found among the six that are looked at. -/
theorem point_spec (pos : 0 < den) (least : (2 : ℚ) ^ (-1074 : ℤ) ≤ (num : ℚ) / den)
    (most : (num : ℚ) / den < 2 ^ (1024 : ℤ)) : Point ((num : ℚ) / den) (point num den) := by
  have some : num ≠ 0 := by
    rintro rfl
    rw [Nat.cast_zero, zero_div] at least
    exact absurd least (not_le.mpr (by positivity))
  obtain ⟨low, high⟩ := Binary64.log2_bounds some pos
  have above : (num.log2 : ℤ) - den.log2 - 1 < 1024 :=
    (zpow_lt_zpow_iff_right₀ one_lt_two).mp (low.trans_lt most)
  have below : -1074 < (num.log2 : ℤ) - den.log2 + 1 :=
    (zpow_lt_zpow_iff_right₀ one_lt_two).mp (least.trans_lt high)
  unfold point
  dsimp only
  generalize bits : (num.log2 : ℤ) - den.log2 - 1 = k at *
  have floor : Int.fdiv (k * 30103) 100000 = k * 30103 / 100000 := Int.fdiv_eq_ediv_of_nonneg _ (by decide)
  rw [floor]
  refine pointFrom_spec pos 6 _ (le_trans ?_ low) (high.trans_le ?_)
  · exact ten_zpow_le_two_zpow (by omega) (by omega)
  · exact two_zpow_le_ten_zpow (by omega) (by omega)

end Fraction

/-! ## Digits and what they stand for -/

/-- Digits as they are written. -/
def chars (ds : List ℕ) : List Char := ds.map Text.digitChar

/-- The integer that digits stand for. -/
def valueOf (ds : List ℕ) : ℕ := Numeral.natOfDigits (chars ds)

theorem isAsciiDigit_chars {ds : List ℕ} (h : ∀ d ∈ ds, d < 10) :
    ∀ c ∈ chars ds, Text.isAsciiDigit c = true := by
  intro c mem
  obtain ⟨d, there, rfl⟩ := List.mem_map.mp mem
  have all : ∀ d < 10, Text.isAsciiDigit (Text.digitChar d) = true := by decide
  exact all d (h d there)

theorem chars_zeros (k : ℕ) : chars (List.replicate k 0) = List.replicate k '0' := by
  rw [chars, List.map_replicate]
  rfl

theorem natOfDigits_zeros (cs : List Char) (k : ℕ) :
    Numeral.natOfDigits (cs ++ List.replicate k '0') = Numeral.natOfDigits cs * 10 ^ k := by
  show Nat.ofDigitChars 10 (cs ++ List.replicate k '0') 0 = Nat.ofDigitChars 10 cs 0 * 10 ^ k
  rw [Nat.ofDigitChars_append, Nat.ofDigitChars_replicate_zero, Nat.mul_comm]

theorem natOfDigits_leadingZeros (cs : List Char) (k : ℕ) :
    Numeral.natOfDigits (List.replicate k '0' ++ cs) = Numeral.natOfDigits cs := by
  show Nat.ofDigitChars 10 (List.replicate k '0' ++ cs) 0 = Nat.ofDigitChars 10 cs 0
  rw [Nat.ofDigitChars_append, Nat.ofDigitChars_replicate_zero, Nat.mul_zero]

/-- Digits the first of which counts. -/
structure Digits (ds : List ℕ) : Prop where
  small : ∀ d ∈ ds, d < 10
  some : ds ≠ []
  first : 0 ∉ ds.head?

theorem chars_digitsOf (n : ℕ) : chars (digitsOf n) = Nat.toDigits 10 n := by
  have each : ∀ c ∈ Numeral.digits, Text.digitChar (c.toNat - 48) = c :=
    List.all_iff_forall_prop.mp (by decide)
  rw [chars, digitsOf, List.map_map]
  refine (List.map_congr_left fun c mem => ?_).trans (List.map_id _)
  exact each c (Numeral.mem_digits_iff.mpr (Numeral.isAsciiDigit_of_mem_toDigits mem))

theorem digits_digitsOf {n : ℕ} (some : n ≠ 0) : Digits (digitsOf n) := by
  refine ⟨fun d mem => ?_, ?_, fun zero => ?_⟩
  · obtain ⟨c, there, rfl⟩ := List.mem_map.mp mem
    have each : ∀ c ∈ Numeral.digits, c.toNat - 48 < 10 := List.all_iff_forall_prop.mp (by decide)
    exact each c (Numeral.mem_digits_iff.mpr (Numeral.isAsciiDigit_of_mem_toDigits there))
  · exact mt List.map_eq_nil_iff.mp Nat.toDigits_ne_nil
  · have zero : '0' ∈ (chars (digitsOf n)).head? := by
      rw [chars, List.head?_map]
      exact Option.mem_map_of_mem Text.digitChar zero
    rw [chars_digitsOf] at zero
    exact Numeral.head_toDigits some zero

theorem length_digitsOf {n k : ℕ} (low : 10 ^ k ≤ n) (high : n < 10 ^ (k + 1)) :
    (digitsOf n).length = k + 1 := by
  rw [digitsOf, List.length_map]
  have upper := (Nat.length_toDigits_le_iff (b := 10) (by decide) (Nat.succ_pos k)).mpr high
  cases k with
  | zero => exact Nat.le_antisymm upper Nat.length_toDigits_pos
  | succ k =>
    have lower := mt (Nat.length_toDigits_le_iff (b := 10) (by decide) (Nat.succ_pos k)).mp (Nat.not_lt.mpr low)
    omega

/-- What is cut off at the end are zeros. -/
theorem exists_trimZeros (ds : List ℕ) : ∃ k, ds = trimZeros ds ++ List.replicate k 0 := by
  refine ⟨(ds.reverse.takeWhile (· == 0)).length, ?_⟩
  have zeros : ds.reverse.takeWhile (· == 0) =
      List.replicate (ds.reverse.takeWhile (· == 0)).length 0 :=
    List.eq_replicate_of_mem fun d mem => eq_of_beq (List.mem_takeWhile_imp (p := (· == 0)) mem)
  have around := List.takeWhile_append_dropWhile (p := (· == 0)) (l := ds.reverse)
  rw [zeros] at around
  rw [trimZeros, ← List.reverse_replicate, ← List.reverse_append, around, List.reverse_reverse]

theorem Digits.trimZeros {ds : List ℕ} (h : Digits ds) : Digits (trimZeros ds) := by
  obtain ⟨k, parts⟩ := exists_trimZeros ds
  have some : Decimal.trimZeros ds ≠ [] := by
    intro none
    rw [none, List.nil_append] at parts
    cases k with
    | zero => exact h.some parts
    | succ k => exact h.first (parts ▸ rfl)
  refine ⟨fun d mem => h.small d ?_, some, fun zero => h.first ?_⟩
  · rw [parts]
    exact List.mem_append_left _ mem
  · rw [parts, List.head?_append_of_ne_nil _ some]
    exact zero

/-- Zeros at the end move the digits in front of them, and nothing else. -/
theorem valueOf_trimZeros (ds : List ℕ) (p : ℤ) :
    (valueOf (trimZeros ds) : ℚ) * 10 ^ (p - (trimZeros ds).length) = valueOf ds * 10 ^ (p - ds.length) := by
  obtain ⟨k, parts⟩ := exists_trimZeros ds
  have value : valueOf ds = valueOf (trimZeros ds) * 10 ^ k := by
    conv_lhs => rw [parts]
    rw [valueOf, chars, List.map_append, ← chars, ← chars, chars_zeros, natOfDigits_zeros, valueOf]
  have length : ds.length = (trimZeros ds).length + k := by
    conv_lhs => rw [parts]
    rw [List.length_append, List.length_replicate]
  rw [value, length, Nat.cast_mul, Nat.cast_pow, Nat.cast_ofNat, mul_assoc, ← zpow_natCast,
    ← zpow_add₀ (by norm_num)]
  congr 2
  push_cast
  ring

/-! ## The grids -/

theorem magnitude_spec (m : ℕ) (e : ℤ) : 0 < (Binary64.magnitude m e).2 ∧
    ((Binary64.magnitude m e).1 : ℚ) / (Binary64.magnitude m e).2 = m * 2 ^ e := by
  unfold Binary64.magnitude
  split
  next up =>
    obtain ⟨n, rfl⟩ := Int.eq_ofNat_of_zero_le up
    refine ⟨Nat.one_pos, ?_⟩
    rw [Int.toNat_natCast, Binary64.two_eq, zpow_natCast, Nat.cast_one, div_one]
    exact_mod_cast rfl
  next down =>
    obtain ⟨n, same⟩ := Int.eq_ofNat_of_zero_le (show 0 ≤ -e by omega)
    obtain rfl : e = -n := by omega
    refine ⟨Power.two_pos _, ?_⟩
    rw [Int.neg_neg, Int.toNat_natCast, Binary64.two_eq, zpow_neg, zpow_natCast, div_eq_mul_inv]
    exact_mod_cast rfl

theorem scale_spec (num : ℕ) {den : ℕ} (pos : 0 < den) (k : ℤ) : 0 < (scale num den k).2 ∧
    ((scale num den k).1 : ℚ) / (scale num den k).2 = (num : ℚ) / den * 10 ^ k := by
  unfold scale
  split
  next up =>
    obtain ⟨n, rfl⟩ := Int.eq_ofNat_of_zero_le up
    refine ⟨pos, ?_⟩
    rw [Int.toNat_natCast, zpow_natCast, div_mul_eq_mul_div]
    show ((num * 10 ^ n : ℕ) : ℚ) / den = _
    push_cast
    rfl
  next down =>
    obtain ⟨n, same⟩ := Int.eq_ofNat_of_zero_le (show 0 ≤ -k by omega)
    obtain rfl : k = -n := by omega
    refine ⟨Nat.mul_pos pos (Power.ten_pos _), ?_⟩
    rw [Int.neg_neg, Int.toNat_natCast, zpow_neg, zpow_natCast, ← div_eq_mul_inv, div_div]
    show (num : ℚ) / ((den * 10 ^ n : ℕ) : ℚ) = _
    push_cast
    rfl

/-- Whether a place of a decimal grid lies in the interval around a number. -/
def hits (m : ℕ) (e : ℤ) (a b d : ℕ) : Bool :=
  let (lo, hi) := roundingInterval m e
  let closed : Bool := m % 2 = 0
  let lhs := d * b * 4 * m
  let (l, h) := (lo * a, hi * a)
  if closed then l ≤ lhs && lhs ≤ h else l < lhs && lhs < h

/-- Of the two neighbours of a number on a decimal grid, the nearer one that is rounded to it. -/
def pick (m : ℕ) (e : ℤ) (a b : ℕ) : Option ℕ :=
  let near := Binary64.roundDiv a b
  let other := if near = a / b then a / b + 1 else a / b
  if hits m e a b near then some near else if hits m e a b other then some other else none

/-- A place of a decimal grid of a count of digits, as digits with their point. -/
def placed (p : ℤ) (count d : ℕ) : List ℕ × ℤ :=
  if d = Power.ten count then ([1], p + 1) else (trimZeros (digitsOf d), p)

/-- A number in units of the last place of a count of digits, as a fraction. -/
def grid (m : ℕ) (e p : ℤ) (count : ℕ) : ℕ × ℕ :=
  scale (Binary64.magnitude m e).1 (Binary64.magnitude m e).2 (count - p)

theorem grid_spec (m : ℕ) (e p : ℤ) (count : ℕ) : 0 < (grid m e p count).2 ∧
    ((grid m e p count).1 : ℚ) / (grid m e p count).2 * 10 ^ (p - count) = m * 2 ^ e := by
  obtain ⟨pos, value⟩ := magnitude_spec m e
  obtain ⟨pos', scaled⟩ := scale_spec (Binary64.magnitude m e).1 pos (count - p)
  refine ⟨pos', ?_⟩
  rw [grid, scaled, value, mul_assoc, ← zpow_add₀ (by norm_num), sub_add_sub_cancel, sub_self, zpow_zero,
    mul_one]

theorem shortestFrom_succ (m : ℕ) (e p : ℤ) (count fuel : ℕ) :
    shortestFrom m e p count (fuel + 1) =
      match pick m e (grid m e p count).1 (grid m e p count).2 with
      | some d => placed p count d
      | none => shortestFrom m e p (count + 1) fuel := rfl

section Interval

open Binary64 (reach RoundsTo Kept)

variable {m : ℕ} {e p : ℤ} {a b d count : ℕ} {unit : ℚ}

theorem roundingInterval_spec (some : 0 < m) :
    ((roundingInterval m e).1 : ℚ) = 4 * (m - reach m e) ∧
      ((roundingInterval m e).2 : ℚ) = 4 * (m + 1 / 2) := by
  have lower : (roundingInterval m e).1 = if m = 2 ^ 52 ∧ -1074 < e then 4 * m - 1 else 4 * m - 2 := by
    simp only [roundingInterval, Bool.and_eq_true, decide_eq_true_eq, gt_iff_lt]
    rfl
  have upper : (roundingInterval m e).2 = 4 * m + 2 := rfl
  refine ⟨?_, ?_⟩
  · rw [lower, reach]
    split
    · rw [Nat.cast_sub (by omega)]
      push_cast
      ring
    · rw [Nat.cast_sub (by omega)]
      push_cast
      ring
  · rw [upper]
    push_cast
    ring

/-- The test is exact. -/
theorem hits_iff (some : 0 < m) (pos : 0 < b) (one : 0 < unit) (same : (a : ℚ) / b * unit = m * 2 ^ e) :
    hits m e a b d = true ↔ RoundsTo m e (d * unit) := by
  have there : (0 : ℚ) < b := by exact_mod_cast pos
  have some' : (0 : ℚ) < m := by exact_mod_cast some
  have weight : (0 : ℚ) < m * b / unit := by positivity
  have number : (a : ℚ) = 2 ^ e * (m * b / unit) := by
    rw [div_mul_eq_mul_div, div_eq_iff there.ne'] at same
    rw [mul_div_assoc', eq_div_iff one.ne', same]
    ring
  -- both sides of a comparison have the same weight
  have left (x : ℕ) : ((x * a : ℕ) : ℚ) = x * 2 ^ e * (m * b / unit) := by
    rw [Nat.cast_mul, number, mul_assoc]
  have right : ((d * b * 4 * m : ℕ) : ℚ) = 4 * (d * unit) * (m * b / unit) := by
    push_cast
    field_simp
  have le (x : ℕ) : x * a ≤ d * b * 4 * m ↔ (x : ℚ) * 2 ^ e ≤ 4 * (d * unit) := by
    have cast : x * a ≤ d * b * 4 * m ↔ ((x * a : ℕ) : ℚ) ≤ (d * b * 4 * m : ℕ) := Nat.cast_le.symm
    rw [cast, left, right, mul_le_mul_iff_left₀ weight]
  have ge (x : ℕ) : d * b * 4 * m ≤ x * a ↔ 4 * (d * unit) ≤ (x : ℚ) * 2 ^ e := by
    have cast : d * b * 4 * m ≤ x * a ↔ ((d * b * 4 * m : ℕ) : ℚ) ≤ (x * a : ℕ) := Nat.cast_le.symm
    rw [cast, left, right, mul_le_mul_iff_left₀ weight]
  have lt (x : ℕ) : x * a < d * b * 4 * m ↔ (x : ℚ) * 2 ^ e < 4 * (d * unit) :=
    lt_iff_lt_of_le_iff_le (ge x)
  have gt (x : ℕ) : d * b * 4 * m < x * a ↔ 4 * (d * unit) < (x : ℚ) * 2 ^ e :=
    lt_iff_lt_of_le_iff_le (le x)
  obtain ⟨lower, upper⟩ := roundingInterval_spec (e := e) some
  have test : hits m e a b d = true ↔
      if m % 2 = 0 then ((roundingInterval m e).1 : ℚ) * 2 ^ e ≤ 4 * (d * unit) ∧
        4 * (d * unit) ≤ ((roundingInterval m e).2 : ℚ) * 2 ^ e
      else ((roundingInterval m e).1 : ℚ) * 2 ^ e < 4 * (d * unit) ∧
        4 * (d * unit) < ((roundingInterval m e).2 : ℚ) * 2 ^ e := by
    rw [← le, ← ge, ← lt, ← gt]
    unfold hits
    by_cases even : m % 2 = 0 <;> simp [even]
  rw [test, lower, upper]
  have quarters (x : ℚ) : 4 * x * 2 ^ e = 4 * (x * 2 ^ e) := mul_assoc _ _ _
  rw [quarters, quarters]
  split
  next even =>
    refine ⟨fun ⟨low, high⟩ => ⟨by linarith, by linarith, fun odd => by omega⟩, fun h => ?_⟩
    exact ⟨by linarith [h.low], by linarith [h.high]⟩
  next odd =>
    refine ⟨fun ⟨low, high⟩ => ⟨by linarith, by linarith, fun _ => ⟨by linarith, by linarith⟩⟩, fun h => ?_⟩
    obtain ⟨low, high⟩ := h.odd (by omega)
    exact ⟨by linarith, by linarith⟩

theorem roundDiv_neighbour (a b : ℕ) : Binary64.roundDiv a b = a / b ∨ Binary64.roundDiv a b = a / b + 1 := by
  unfold Binary64.roundDiv
  dsimp only
  split
  · exact .inl rfl
  · split
    · exact .inr rfl
    · split
      · exact .inl rfl
      · exact .inr rfl

theorem pick_some (h : pick m e a b = some d) : hits m e a b d = true ∧ (d = a / b ∨ d = a / b + 1) := by
  unfold pick at h
  dsimp only at h
  have either : (if Binary64.roundDiv a b = a / b then a / b + 1 else a / b) = a / b ∨
      (if Binary64.roundDiv a b = a / b then a / b + 1 else a / b) = a / b + 1 := by
    split
    · exact .inr rfl
    · exact .inl rfl
  generalize (if Binary64.roundDiv a b = a / b then a / b + 1 else a / b) = other at h either
  by_cases near : hits m e a b (Binary64.roundDiv a b) = true
  · rw [if_pos near] at h
    obtain rfl := Option.some.inj h
    exact ⟨near, roundDiv_neighbour a b⟩
  · rw [if_neg near] at h
    by_cases hit : hits m e a b other = true
    · rw [if_pos hit] at h
      obtain rfl := Option.some.inj h
      exact ⟨hit, either⟩
    · rw [if_neg hit] at h
      cases h

/-- The neighbours of a number on the grid of a count of digits have this many digits, or one of them is the
power of ten behind these. -/
theorem neighbour_bounds (point : Point (m * 2 ^ e) p) (pos : 0 < b) (first : 0 < count)
    (same : (a : ℚ) / b * 10 ^ (p - count) = m * 2 ^ e) : 10 ^ (count - 1) ≤ a / b ∧ a / b < 10 ^ count := by
  have there : (0 : ℚ) < b := by exact_mod_cast pos
  have unit : (0 : ℚ) < 10 ^ (p - count) := by positivity
  have tens (k : ℕ) : ((10 ^ k : ℕ) : ℚ) * 10 ^ (p - count) = 10 ^ (k + (p - count)) := by
    rw [zpow_add₀ (by norm_num), Nat.cast_pow, Nat.cast_ofNat, zpow_natCast]
  have low : ((10 ^ (count - 1) : ℕ) : ℚ) ≤ a / b := by
    refine le_of_mul_le_mul_right ?_ unit
    rw [same, tens, show ((count - 1 : ℕ) : ℤ) + (p - count) = p - 1 by omega]
    exact point.low
  have high : (a : ℚ) / b < ((10 ^ count : ℕ) : ℚ) := by
    refine lt_of_mul_lt_mul_right ?_ unit.le
    rw [same, tens, add_sub_cancel]
    exact point.high
  constructor
  · rw [Nat.le_div_iff_mul_le pos]
    rw [le_div_iff₀ there] at low
    exact_mod_cast low
  · rw [Nat.div_lt_iff_lt_mul pos]
    rw [div_lt_iff₀ there] at high
    exact_mod_cast high

/-- On the grid of seventeen digits the nearest place to a number is rounded to it. -/
theorem pick_seventeen (kept : Kept m e) (some : 0 < m) (point : Point (m * 2 ^ e) p) (pos : 0 < b)
    (same : (a : ℚ) / b * 10 ^ (p - 17) = m * 2 ^ e) : pick m e a b ≠ none := by
  have one : (0 : ℚ) < 10 ^ (p - 17) := by positivity
  have ulp : (0 : ℚ) < 2 ^ e := by positivity
  have step : (10 : ℚ) ^ (p - 17) * 10 ^ 16 ≤ m * 2 ^ e := by
    refine le_of_eq_of_le ?_ point.low
    rw [← zpow_natCast, ← zpow_add₀ (by norm_num)]
    congr 1
    push_cast
    ring
  have half : (10 : ℚ) ^ (p - 17) / 2 < reach m e * 2 ^ e ∧ (10 : ℚ) ^ (p - 17) / 2 < 1 / 2 * 2 ^ e := by
    by_cases first : m = 2 ^ 52
    · have quarter : 1 / 4 ≤ reach m e := by
        unfold reach
        split <;> norm_num
      have small : (10 : ℚ) ^ (p - 17) / 2 < 1 / 4 * 2 ^ e := by
        rw [first] at step
        push_cast at step
        linarith
      have : (1 / 4 : ℚ) * 2 ^ e ≤ reach m e * 2 ^ e := by gcongr
      exact ⟨by linarith, by linarith⟩
    · have bounded : (m : ℚ) ≤ 2 ^ 53 := by exact_mod_cast kept.below.le
      have : (m : ℚ) * 2 ^ e ≤ 2 ^ 53 * 2 ^ e := by gcongr
      rw [reach, if_neg (fun both => first both.1)]
      exact ⟨by linarith, by linarith⟩
  have nearest := Binary64.nearest_roundDiv a pos
  have near : hits m e a b (Binary64.roundDiv a b) = true := by
    rw [hits_iff some pos one same]
    have low : ((Binary64.roundDiv a b : ℚ) - 1 / 2) * 10 ^ (p - 17) ≤ (a : ℚ) / b * 10 ^ (p - 17) := by
      gcongr
      exact nearest.low
    have high : (a : ℚ) / b * 10 ^ (p - 17) ≤ ((Binary64.roundDiv a b : ℚ) + 1 / 2) * 10 ^ (p - 17) := by
      gcongr
      exact nearest.high
    rw [same] at low high
    have strict : (m - reach m e) * 2 ^ e < (Binary64.roundDiv a b : ℚ) * 10 ^ (p - 17) ∧
        (Binary64.roundDiv a b : ℚ) * 10 ^ (p - 17) < (m + 1 / 2) * 2 ^ e :=
      ⟨by linarith [half.1], by linarith [half.2]⟩
    exact ⟨strict.1.le, strict.2.le, fun _ => strict⟩
  unfold pick
  dsimp only
  rw [if_pos near]
  exact Option.some_ne_none _

/-- Digits with their point that are rounded to a number. -/
structure Spells (m : ℕ) (e : ℤ) (ds : List ℕ) (p : ℤ) : Prop where
  digits : Digits ds
  low : -330 ≤ p
  high : p ≤ 310
  rounds : RoundsTo m e (valueOf ds * 10 ^ (p - ds.length))

/-- The first digit of a number of the format is not far from the point. -/
theorem Point.bounds (kept : Kept m e) (some : 0 < m) (point : Point (m * 2 ^ e) p) : -330 ≤ p ∧ p ≤ 309 := by
  have tens {a b : ℤ} (h : (10 : ℚ) ^ a < 10 ^ b) : a < b :=
    (zpow_lt_zpow_iff_right₀ (by norm_num)).mp h
  obtain ⟨least, most⟩ := kept.range some
  constructor
  · have less : (10 : ℚ) ^ (-330 : ℤ) < 10 ^ p :=
      calc (10 : ℚ) ^ (-330 : ℤ) ≤ 2 ^ (-1074 : ℤ) := ten_zpow_le_two_zpow (by decide) (by decide)
        _ ≤ m * 2 ^ e := least
        _ < 10 ^ p := point.high
    exact (tens less).le
  · have less : (10 : ℚ) ^ (p - 1) < 10 ^ (309 : ℤ) :=
      calc (10 : ℚ) ^ (p - 1) ≤ m * 2 ^ e := point.low
        _ < 2 ^ (1024 : ℤ) := most
        _ ≤ 10 ^ (309 : ℤ) := two_zpow_le_ten_zpow (by decide) (by decide)
    have := tens less
    omega

theorem placed_spells (kept : Kept m e) (some : 0 < m) (point : Point (m * 2 ^ e) p) (first : 0 < count)
    (low : 10 ^ (count - 1) ≤ d) (high : d ≤ 10 ^ count) (rounds : RoundsTo m e (d * 10 ^ (p - count))) :
    Spells m e (placed p count d).1 (placed p count d).2 := by
  obtain ⟨above, below⟩ := point.bounds kept some
  unfold placed
  split
  next full =>
    have full : d = 10 ^ count := full
    have single : Digits [1] := ⟨by decide, by decide, by decide⟩
    refine ⟨single, by omega, by omega, ?_⟩
    have value : valueOf [1] = 1 := by decide
    rw [value, Nat.cast_one, one_mul, List.length_singleton, Nat.cast_one, add_sub_cancel_right]
    rw [full, Nat.cast_pow, Nat.cast_ofNat, ← zpow_natCast, ← zpow_add₀ (by norm_num), add_sub_cancel] at rounds
    exact rounds
  next notFull =>
    have notFull : d ≠ 10 ^ count := notFull
    have length : (digitsOf d).length = count := by
      have same := length_digitsOf low (by rw [Nat.sub_add_cancel first]; omega)
      omega
    have some : d ≠ 0 := (lt_of_lt_of_le (by positivity) low).ne'
    refine ⟨(digits_digitsOf some).trimZeros, above, by omega, ?_⟩
    have value : valueOf (digitsOf d) = d := by
      rw [valueOf, chars_digitsOf]
      exact Nat.ofDigitChars_ten_toDigits
    rw [valueOf_trimZeros, value, length]
    exact rounds

/-- What is picked from a grid are digits of the number. -/
theorem pick_spells (kept : Kept m e) (some : 0 < m) (point : Point (m * 2 ^ e) p) (first : 0 < count)
    (pos : 0 < b) (same : (a : ℚ) / b * 10 ^ (p - count) = m * 2 ^ e) (h : pick m e a b = .some d) :
    Spells m e (placed p count d).1 (placed p count d).2 := by
  obtain ⟨low, high⟩ := neighbour_bounds point pos first same
  obtain ⟨hit, neighbour⟩ := pick_some h
  refine placed_spells kept some point first (by omega) (by omega) ?_
  exact (hits_iff some pos (by positivity) same).mp hit

theorem shortestFrom_spells (kept : Kept m e) (some : 0 < m) (point : Point (m * 2 ^ e) p) (fuel : ℕ)
    (first : 0 < count) (last : count + fuel = 17) :
    Spells m e (shortestFrom m e p count (fuel + 1)).1 (shortestFrom m e p count (fuel + 1)).2 := by
  induction fuel generalizing count with
  | zero =>
    obtain ⟨pos, same⟩ := grid_spec m e p count
    obtain rfl : count = 17 := last
    rw [shortestFrom_succ]
    cases found : pick m e (grid m e p 17).1 (grid m e p 17).2 with
    | none => exact absurd found (pick_seventeen kept some point pos same)
    | some d => exact pick_spells kept some point first pos same found
  | succ fuel ih =>
    obtain ⟨pos, same⟩ := grid_spec m e p count
    rw [shortestFrom_succ]
    cases found : pick m e (grid m e p count).1 (grid m e p count).2 with
    | none => exact ih (Nat.succ_pos count) (by omega)
    | some d => exact pick_spells kept some point first pos same found

/-- The shortest digits of a number are rounded to it. -/
theorem shortest_spells (kept : Kept m e) (some : 0 < m) :
    Spells m e (shortest m e).1 (shortest m e).2 := by
  obtain ⟨least, most⟩ := kept.range some
  obtain ⟨pos, value⟩ := magnitude_spec m e
  rw [← value] at least most
  have point := point_spec pos least most
  rw [value] at point
  exact shortestFrom_spells kept some point 16 Nat.one_pos rfl

end Interval

end Decimal

end Scaffold
