import Mathlib.Algebra.Order.Field.Power
import Mathlib.Data.Rat.Cast.Order
import Mathlib.Tactic.FieldSimp
import Mathlib.Tactic.Linarith
import Mathlib.Tactic.NormNum
import Mathlib.Tactic.Positivity
import Mathlib.Tactic.Ring
import Scaffold.Proofs.Number.Integers

/-!
# Which fractions are rounded to a number

A fraction is rounded to the floating point number `m · 2 ^ e` if it lies in an interval around it: half a
unit of the last place to either side, or a quarter below where the numbers below stand closer together.
The ends belong to the interval exactly if the mantissa is even.
-/

namespace Scaffold

namespace Binary64

/-- The one form in which a finite number is kept. -/
structure Kept (m : ℕ) (e : ℤ) : Prop where
  below : m < 2 ^ 53
  full : 2 ^ 52 ≤ m ∨ e = -1074
  least : -1074 ≤ e
  most : e ≤ 971

/-- The range of the format. -/
theorem Kept.range {m : ℕ} {e : ℤ} (kept : Kept m e) (some : 0 < m) :
    (2 : ℚ) ^ (-1074 : ℤ) ≤ m * 2 ^ e ∧ (m : ℚ) * 2 ^ e < 2 ^ (1024 : ℤ) := by
  have first : (1 : ℚ) ≤ m := by exact_mod_cast some
  have below : (m : ℚ) < 2 ^ (53 : ℤ) := by exact_mod_cast kept.below
  constructor
  · calc (2 : ℚ) ^ (-1074 : ℤ) ≤ 2 ^ e := zpow_le_zpow_right₀ (by norm_num) kept.least
      _ ≤ m * 2 ^ e := le_mul_of_one_le_left (by positivity) first
  · calc (m : ℚ) * 2 ^ e < 2 ^ (53 : ℤ) * 2 ^ e := by gcongr
      _ = 2 ^ (53 + e) := (zpow_add₀ two_ne_zero _ _).symm
      _ ≤ 2 ^ (1024 : ℤ) := zpow_le_zpow_right₀ (by norm_num) (by have := kept.most; omega)

/-- A number in the form in which it is kept. -/
def Canonical : Binary64 → Prop
  | .finite _ m e => Kept m e
  | _ => True

/-! ## Rounding to integers -/

/-- An integer that no other one is nearer to than to a fraction; halfway between two it is the even one. -/
structure Nearest (x : ℚ) (r : ℕ) : Prop where
  low : r - 1 / 2 ≤ x
  high : x ≤ r + 1 / 2
  even : x = r - 1 / 2 ∨ x = r + 1 / 2 → r % 2 = 0

theorem Nearest.unique {x : ℚ} {r r' : ℕ} (h : Nearest x r) (h' : Nearest x r') : r = r' := by
  have close : ∀ {a b : ℕ}, Nearest x a → Nearest x b → ¬a < b := by
    intro a b ha hb less
    have step : (a : ℚ) + 1 ≤ b := by exact_mod_cast less
    have tie : x = a + 1 / 2 := by linarith [ha.high, hb.low]
    have next : (b : ℚ) = a + 1 := by linarith [ha.high, hb.low]
    have same : b = a + 1 := by exact_mod_cast next
    have even := ha.even (.inr tie)
    have even' := hb.even (.inl (by linarith))
    omega
  exact Nat.le_antisymm (Nat.le_of_not_lt (close h' h)) (Nat.le_of_not_lt (close h h'))

theorem nearest_roundDiv (num : ℕ) {den : ℕ} (pos : 0 < den) :
    Nearest ((num : ℚ) / den) (roundDiv num den) := by
  have there : (0 : ℚ) < den := by exact_mod_cast pos
  have parts : (num : ℚ) / den = (num / den : ℕ) + (num % den : ℕ) / den := by
    have whole : (num : ℚ) = den * (num / den : ℕ) + (num % den : ℕ) := by
      exact_mod_cast (Nat.div_add_mod num den).symm
    field_simp
    linarith
  have part : (0 : ℚ) ≤ (num % den : ℕ) / den := by positivity
  have part' : ((num % den : ℕ) : ℚ) / den < 1 := by
    rw [div_lt_one there]
    exact_mod_cast Nat.mod_lt num pos
  have next : ((num / den + 1 : ℕ) : ℚ) = (num / den : ℕ) + 1 := Nat.cast_succ _
  unfold roundDiv
  dsimp only
  rw [parts]
  split
  next less =>
    have half : ((num % den : ℕ) : ℚ) / den < 1 / 2 := by
      rw [div_lt_div_iff₀ there two_pos]
      exact_mod_cast (by omega : num % den * 2 < 1 * den)
    refine ⟨by linarith, by linarith, ?_⟩
    rintro (tie | tie) <;> exfalso <;> linarith
  next notLess =>
    split
    next more =>
      have half : 1 / 2 < ((num % den : ℕ) : ℚ) / den := by
        rw [div_lt_div_iff₀ two_pos there]
        exact_mod_cast (by omega : 1 * den < num % den * 2)
      refine ⟨by linarith, by linarith, ?_⟩
      rintro (tie | tie) <;> exfalso <;> linarith
    next notMore =>
      have half : ((num % den : ℕ) : ℚ) / den = 1 / 2 := by
        rw [div_eq_div_iff there.ne' two_ne_zero]
        exact_mod_cast (by omega : num % den * 2 = 1 * den)
      split
      next even => exact ⟨by linarith, by linarith, fun _ => even⟩
      next odd => exact ⟨by linarith, by linarith, fun _ => by omega⟩

/-! ## Fractions and powers of a base -/

section Powers

variable (num : ℕ) {den b : ℕ}

/-- A fraction is compared with a power of a base through integers. -/
theorem lt_power_iff (base : 0 < b) (pos : 0 < den) (k : ℤ) :
    (if 0 ≤ k then decide (num < den * b ^ k.toNat) else decide (num * b ^ (-k).toNat < den)) = true ↔
      (num : ℚ) / den < (b : ℚ) ^ k := by
  have there : (0 : ℚ) < den := by exact_mod_cast pos
  have base' : (0 : ℚ) < b := by exact_mod_cast base
  rw [div_lt_iff₀ there]
  split
  next up =>
    obtain ⟨n, rfl⟩ := Int.eq_ofNat_of_zero_le up
    rw [decide_eq_true_eq, Int.toNat_natCast, zpow_natCast, mul_comm]
    exact_mod_cast Iff.rfl
  next down =>
    obtain ⟨n, same⟩ := Int.eq_ofNat_of_zero_le (show 0 ≤ -k by omega)
    have power : (0 : ℚ) < (b : ℚ) ^ n := by positivity
    rw [decide_eq_true_eq, same, Int.toNat_natCast, show k = -(n : ℤ) by omega, zpow_neg, zpow_natCast,
      inv_mul_eq_div, lt_div_iff₀ power]
    exact_mod_cast Iff.rfl

/-- A fraction is divided by a power of a base through integers. -/
theorem roundDiv_nearest_power (pos : 0 < den) (k : ℤ) :
    Nearest ((num : ℚ) / den / 2 ^ k)
      (if 0 ≤ k then roundDiv num (den * 2 ^ k.toNat) else roundDiv (num * 2 ^ (-k).toNat) den) := by
  split
  next up =>
    obtain ⟨n, rfl⟩ := Int.eq_ofNat_of_zero_le up
    have nearest := nearest_roundDiv num (Nat.mul_pos pos (Nat.two_pow_pos n))
    rw [Int.toNat_natCast, zpow_natCast, div_div]
    exact_mod_cast nearest
  next down =>
    obtain ⟨n, same⟩ := Int.eq_ofNat_of_zero_le (show 0 ≤ -k by omega)
    have nearest := nearest_roundDiv (num * 2 ^ n) pos
    rw [same, Int.toNat_natCast, show k = -(n : ℤ) by omega, zpow_neg, zpow_natCast, div_inv_eq_mul,
      div_mul_eq_mul_div]
    exact_mod_cast nearest

end Powers

/-! ## Rounding to the format -/

section Format

variable {num den : ℕ}

theorem carried_eq (s : Bool) (m : ℕ) (e : ℤ) :
    (match if m = Power.two 53 then (Power.two 52, e + 1) else (m, e) with
      | (m, e) => if e > 971 then infinite s else finite s m e) = carried s m e := by
  unfold carried
  rw [two_eq, two_eq]
  by_cases full : m = 2 ^ 53
  · rw [if_pos full, if_pos full]
  · rw [if_neg full, if_neg full]

/-- A fraction is rounded to a multiple of a power of two, as its first binary digit says. -/
theorem ofRatio_eq (s : Bool) (some : num ≠ 0) {t : ℤ}
    (top : (if (if 0 ≤ (num.log2 : ℤ) - den.log2 then
          decide (num < den * 2 ^ ((num.log2 : ℤ) - den.log2).toNat)
        else decide (num * 2 ^ (-((num.log2 : ℤ) - den.log2)).toNat < den)) = true
      then (num.log2 : ℤ) - den.log2 - 1 else (num.log2 : ℤ) - den.log2) = t) :
    ofRatio s num den = carried s
      (if 0 ≤ max (t - 52) (-1074) then roundDiv num (den * 2 ^ (max (t - 52) (-1074)).toNat)
        else roundDiv (num * 2 ^ (-max (t - 52) (-1074)).toNat) den) (max (t - 52) (-1074)) := by
  subst top
  unfold ofRatio
  rw [if_neg some]
  exact carried_eq s _ _

/-- The numbers of binary digits of a fraction's two parts give its first binary digit up to one place. -/
theorem log2_bounds (some : num ≠ 0) (pos : 0 < den) :
    (2 : ℚ) ^ ((num.log2 : ℤ) - den.log2 - 1) ≤ (num : ℚ) / den ∧
      (num : ℚ) / den < 2 ^ ((num.log2 : ℤ) - den.log2 + 1) := by
  have there : (0 : ℚ) < den := by exact_mod_cast pos
  have around (n : ℕ) (pos : n ≠ 0) : (2 : ℚ) ^ (n.log2 : ℤ) ≤ n ∧ (n : ℚ) < 2 ^ ((n.log2 : ℤ) + 1) := by
    refine ⟨?_, ?_⟩
    · rw [zpow_natCast]
      exact_mod_cast Nat.log2_self_le pos
    · have less := Nat.lt_log2_self (n := n)
      exact_mod_cast less
  obtain ⟨numLow, numHigh⟩ := around num some
  obtain ⟨denLow, denHigh⟩ := around den pos.ne'
  constructor
  · rw [le_div_iff₀ there]
    calc (2 : ℚ) ^ ((num.log2 : ℤ) - den.log2 - 1) * den
        ≤ 2 ^ ((num.log2 : ℤ) - den.log2 - 1) * 2 ^ ((den.log2 : ℤ) + 1) := by gcongr
      _ = 2 ^ (num.log2 : ℤ) := by rw [← zpow_add₀ two_ne_zero]; congr 1; ring
      _ ≤ num := numLow
  · rw [div_lt_iff₀ there]
    calc (num : ℚ) < 2 ^ ((num.log2 : ℤ) + 1) := numHigh
      _ = 2 ^ ((num.log2 : ℤ) - den.log2 + 1) * 2 ^ (den.log2 : ℤ) := by
        rw [← zpow_add₀ two_ne_zero]; congr 1; ring
      _ ≤ 2 ^ ((num.log2 : ℤ) - den.log2 + 1) * den := by gcongr

/-- The place of the first binary digit of a fraction, and what the fraction is rounded to. -/
theorem exists_binade (s : Bool) (some : num ≠ 0) (pos : 0 < den) :
    ∃ (t : ℤ) (r : ℕ), (2 : ℚ) ^ t ≤ (num : ℚ) / den ∧ (num : ℚ) / den < 2 ^ (t + 1) ∧
      Nearest ((num : ℚ) / den / 2 ^ max (t - 52) (-1074)) r ∧
      ofRatio s num den = carried s r (max (t - 52) (-1074)) := by
  obtain ⟨low, high⟩ := log2_bounds some pos
  have compared := lt_power_iff num two_pos pos ((num.log2 : ℤ) - den.log2)
  by_cases less : (num : ℚ) / den < ((2 : ℕ) : ℚ) ^ ((num.log2 : ℤ) - den.log2)
  · refine ⟨(num.log2 : ℤ) - den.log2 - 1, _, low, ?_, roundDiv_nearest_power num pos _,
      ofRatio_eq s some (if_pos (compared.mpr less))⟩
    rw [sub_add_cancel]
    exact_mod_cast less
  · refine ⟨(num.log2 : ℤ) - den.log2, _, ?_, high, roundDiv_nearest_power num pos _,
      ofRatio_eq s some (if_neg (mt compared.mp less))⟩
    exact_mod_cast not_lt.mp less

/-- Every fraction is rounded to a number in the form in which numbers are kept. -/
theorem canonical_ofRatio (s : Bool) (num : ℕ) (pos : 0 < den) : (ofRatio s num den).Canonical := by
  by_cases zero : num = 0
  · rw [ofRatio, if_pos zero]
    exact ⟨by norm_num, .inr rfl, le_refl _, by norm_num⟩
  obtain ⟨t, r, low, high, nearest, same⟩ := exists_binade s zero pos
  have unit : (0 : ℚ) < 2 ^ max (t - 52) (-1074) := by positivity
  have power (k : ℤ) : (2 : ℚ) ^ (k + max (t - 52) (-1074)) = 2 ^ k * 2 ^ max (t - 52) (-1074) :=
    zpow_add₀ two_ne_zero _ _
  have below : r ≤ 2 ^ 53 := by
    have bound : (num : ℚ) / den / 2 ^ max (t - 52) (-1074) < 2 ^ 53 := by
      rw [div_lt_iff₀ unit]
      calc (num : ℚ) / den < 2 ^ (t + 1) := high
        _ ≤ 2 ^ (53 + max (t - 52) (-1074)) := zpow_le_zpow_right₀ (by norm_num) (by omega)
        _ = 2 ^ 53 * 2 ^ max (t - 52) (-1074) := by rw [power]; norm_cast
    have less : (r : ℚ) < ((2 ^ 53 + 1 : ℕ) : ℚ) := by
      push_cast
      linarith [nearest.low]
    exact Nat.lt_succ_iff.mp (by exact_mod_cast less)
  have full : 2 ^ 52 ≤ r ∨ max (t - 52) (-1074) = -1074 := by
    rw [or_iff_not_imp_right]
    intro above
    have place : max (t - 52) (-1074) = t - 52 := by omega
    rw [place] at nearest unit
    have bound : (2 : ℚ) ^ 52 ≤ (num : ℚ) / den / 2 ^ (t - 52) := by
      rw [le_div_iff₀ unit]
      refine le_of_eq_of_le ?_ low
      rw [← zpow_natCast, ← zpow_add₀ two_ne_zero]
      congr 1
      push_cast
      ring
    have less : ((2 ^ 52 : ℕ) : ℚ) < ((r + 1 : ℕ) : ℚ) := by
      push_cast
      linarith [nearest.high]
    exact Nat.lt_succ_iff.mp (by exact_mod_cast less)
  rw [same]
  unfold carried
  split
  next => 
    split
    next => trivial
    next => exact ⟨by norm_num, .inl (le_refl _), by omega, by omega⟩
  next other =>
    split
    next => trivial
    next => exact ⟨lt_of_le_of_ne below other, full, by omega, by omega⟩

theorem canonical_ofDecimal (s : Bool) (digits : ℕ) (scale : ℤ) : (ofDecimal s digits scale).Canonical := by
  unfold ofDecimal
  split
  · exact canonical_ofRatio s _ Nat.one_pos
  · exact canonical_ofRatio s _ (Power.ten_pos _)

/-- How far below `m · 2 ^ e` a fraction may lie to be rounded to it, in units of the last place. -/
def reach (m : ℕ) (e : ℤ) : ℚ := if m = 2 ^ 52 ∧ -1074 < e then 1 / 4 else 1 / 2

/-- A fraction lies in the interval around `m · 2 ^ e`, the ends of which belong to it where `m` is even. -/
structure RoundsTo (m : ℕ) (e : ℤ) (x : ℚ) : Prop where
  low : (m - reach m e) * 2 ^ e ≤ x
  high : x ≤ (m + 1 / 2) * 2 ^ e
  odd : m % 2 = 1 → (m - reach m e) * 2 ^ e < x ∧ x < (m + 1 / 2) * 2 ^ e

theorem reach_le (m : ℕ) (e : ℤ) : reach m e ≤ 1 / 2 := by
  unfold reach
  split <;> norm_num

variable {m : ℕ} {e : ℤ}

theorem RoundsTo.nearest {x : ℚ} (h : RoundsTo m e x) : Nearest (x / 2 ^ e) m := by
  have unit : (0 : ℚ) < 2 ^ e := by positivity
  have low : ((m : ℚ) - 1 / 2) * 2 ^ e ≤ (m - reach m e) * 2 ^ e := by
    gcongr
    exact reach_le m e
  refine ⟨(le_div_iff₀ unit).mpr (low.trans h.low), (div_le_iff₀ unit).mpr h.high, fun tie => ?_⟩
  by_contra notEven
  obtain ⟨above, below⟩ := h.odd (by omega)
  rcases tie with tie | tie
  · rw [div_eq_iff unit.ne'] at tie
    linarith
  · rw [div_eq_iff unit.ne'] at tie
    linarith

/-- A fraction in the interval around a number is rounded to the number. -/
theorem ofRatio_of_roundsTo (s : Bool) (kept : Kept m e) (some : 0 < m) (pos : 0 < den)
    (h : RoundsTo m e ((num : ℚ) / den)) : ofRatio s num den = finite s m e := by
  have unit : (0 : ℚ) < 2 ^ e := by positivity
  have power (k : ℤ) : (2 : ℚ) ^ (k + e) = 2 ^ k * 2 ^ e := zpow_add₀ two_ne_zero k e
  have less {a b : ℤ} (h : (2 : ℚ) ^ a < 2 ^ b) : a < b := (zpow_lt_zpow_iff_right₀ one_lt_two).mp h
  have some' : (1 : ℚ) ≤ m := by exact_mod_cast some
  have bounded : (m : ℚ) ≤ 2 ^ 53 - 1 := by
    have := kept.below
    have le : m + 1 ≤ 2 ^ 53 := this
    have cast : (m : ℚ) + 1 ≤ 2 ^ 53 := by exact_mod_cast le
    linarith
  have positive : (0 : ℚ) < (num : ℚ) / den := by
    refine lt_of_lt_of_le (mul_pos ?_ unit) h.low
    linarith [reach_le m e]
  have there : num ≠ 0 := by
    rintro rfl
    simp at positive
  obtain ⟨t, r, tLow, tHigh, nearest, same⟩ := exists_binade s there pos
  have top : t < 53 + e := by
    refine less (tLow.trans_lt (h.high.trans_lt ?_))
    rw [power]
    gcongr
    norm_num
    linarith
  by_cases inside : e = -1074 ∨ (2 : ℚ) ^ (52 + e) ≤ (num : ℚ) / den
  · have place : max (t - 52) (-1074) = e := by
      rcases inside with rfl | inside
      · omega
      · have := less (inside.trans_lt tHigh)
        have := kept.least
        omega
    rw [place] at nearest same
    rw [same, nearest.unique h.nearest, carried, if_neg kept.below.ne, if_neg (not_lt.mpr kept.most)]
  · -- the fraction lies below a power of two, and is rounded up to it
    obtain ⟨above, below⟩ := not_or.mp inside
    have least : -1074 < e := lt_of_le_of_ne kept.least (Ne.symm above)
    have full : 2 ^ 52 ≤ m := kept.full.resolve_right above
    have below : (num : ℚ) / den < 2 ^ 52 * 2 ^ e := by
      have := not_le.mp below
      rw [power] at this
      exact_mod_cast this
    have first : m = 2 ^ 52 := by
      by_contra other
      have more : 2 ^ 52 + 1 ≤ m := by omega
      have cast : (2 : ℚ) ^ 52 + 1 ≤ m := by exact_mod_cast more
      have : ((2 : ℚ) ^ 52) * 2 ^ e ≤ (m - reach m e) * 2 ^ e := by
        gcongr
        linarith [reach_le m e]
      linarith [h.low]
    subst first
    have quarter : reach (2 ^ 52) e = 1 / 4 := if_pos ⟨rfl, least⟩
    have low := h.low
    rw [quarter] at low
    push_cast at low
    have place : t = 51 + e := by
      have upper : t < 52 + e := less (tLow.trans_lt (by rw [power]; exact_mod_cast below))
      have lower : 51 + e < t + 1 := by
        refine less (lt_of_le_of_lt ?_ tHigh)
        rw [power]
        refine le_trans ?_ low
        gcongr
        norm_num
      omega
    have unit' : max (t - 52) (-1074) = e - 1 := by omega
    have half : (2 : ℚ) ^ (e - 1) = 2 ^ e / 2 := zpow_sub_one₀ two_ne_zero e
    rw [unit'] at nearest same
    have carry : Nearest ((num : ℚ) / den / 2 ^ (e - 1)) (2 ^ 53) := by
      rw [half]
      push_cast
      refine ⟨?_, ?_, fun _ => by norm_num⟩
      · rw [le_div_iff₀ (by positivity)]
        linarith
      · rw [div_le_iff₀ (by positivity)]
        linarith
    rw [same, nearest.unique carry, carried, if_pos rfl, if_neg (by have := kept.most; omega),
      sub_add_cancel]

/-- A decimal number in the interval around a number is rounded to the number. -/
theorem ofDecimal_of_roundsTo (s : Bool) (kept : Kept m e) (some : 0 < m) {digits : ℕ} {scale : ℤ}
    (h : RoundsTo m e (digits * 10 ^ scale)) : ofDecimal s digits scale = finite s m e := by
  unfold ofDecimal
  split
  next up =>
    obtain ⟨n, rfl⟩ := Int.eq_ofNat_of_zero_le up
    refine ofRatio_of_roundsTo s kept some Nat.one_pos ?_
    rw [zpow_natCast] at h
    rw [Int.toNat_natCast, Nat.cast_one, div_one]
    exact_mod_cast h
  next down =>
    obtain ⟨n, same⟩ := Int.eq_ofNat_of_zero_le (show 0 ≤ -scale by omega)
    refine ofRatio_of_roundsTo s kept some (Power.ten_pos _) ?_
    rw [show scale = -(n : ℤ) by omega, zpow_neg, zpow_natCast, ← div_eq_mul_inv] at h
    rw [same, Int.toNat_natCast]
    exact_mod_cast h

end Format

end Binary64

end Scaffold
