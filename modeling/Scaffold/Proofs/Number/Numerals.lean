import Mathlib.Data.Bool.AllAny
import Mathlib.Data.List.Basic
import Mathlib.Data.List.TakeWhile
import Scaffold.Number.Layout
import Scaffold.Number.Reader
import Scaffold.Proofs.Number.Integers

/-!
# Integers as numerals

The decimal numeral of an integer is read as the floating point number nearest to the integer: a minus
sign, or none, and digits alone, so that nothing of what else a numeral may have is there.
-/

namespace Scaffold

namespace Numeral

variable {c : Char} {s : List Char} {n : Int}

/-- The ASCII digits. -/
def digits : List Char := ['0', '1', '2', '3', '4', '5', '6', '7', '8', '9']

theorem mem_digits_iff : c ∈ digits ↔ Text.isAsciiDigit c = true := by
  constructor
  · have all : ∀ d ∈ digits, Text.isAsciiDigit d = true := List.all_iff_forall_prop.mp (by decide)
    exact all c
  · intro digit
    simp only [Text.isAsciiDigit, Bool.and_eq_true, decide_eq_true_eq, Char.le_def] at digit
    have all : ∀ k < 58, 48 ≤ k → Char.ofNat k ∈ digits := by decide
    have mem := all c.toNat (Nat.lt_succ_of_le digit.2) digit.1
    rwa [Char.ofNat_toNat] at mem

/-- The decimal digits of an integer without its sign. -/
def digitsOf (n : Int) : List Char := Nat.toDigits 10 n.natAbs

theorem isAsciiDigit_of_mem_toDigits {k : Nat} (h : c ∈ Nat.toDigits 10 k) :
    Text.isAsciiDigit c = true := by
  have digit := Nat.isDigit_of_mem_toDigits (by decide) (by decide) h
  simpa [Char.isDigit, Text.isAsciiDigit, Char.le_def] using digit

theorem mem_digitsOf (h : c ∈ digitsOf n) : c ∈ digits :=
  mem_digits_iff.mpr (isAsciiDigit_of_mem_toDigits h)

theorem natOfDigits_digitsOf (n : Int) : natOfDigits (digitsOf n) = n.natAbs :=
  Nat.ofDigitChars_toDigits (by decide) (by decide)

/-- No digits before the first that counts. -/
theorem head_toDigits {n : Nat} (h : n ≠ 0) : '0' ∉ (Nat.toDigits 10 n).head? := by
  induction n using Nat.strongRecOn with
  | ind n ih =>
    by_cases small : n < 10
    · rw [Nat.toDigits_of_lt_base small]
      have all : ∀ d < 10, d ≠ 0 → '0' ∉ [d.digitChar].head? := by decide
      exact all n small h
    · have tens : n / 10 ≠ 0 := by omega
      have first : (Nat.toDigits 10 (n / 10) ++ [(n % 10).digitChar]).head? =
          (Nat.toDigits 10 (n / 10)).head? := List.head?_append_of_ne_nil _ Nat.toDigits_ne_nil
      rw [Nat.toDigits_of_base_le (by decide) (Nat.le_of_not_lt small), first]
      exact ih (n / 10) (by omega) tens

/-- What stands behind digits does not go on with them. -/
def Stops (s : List Char) : Prop := ∀ c ∈ s.head?, Text.isAsciiDigit c = false

theorem span_digits {ds s : List Char} (all : ∀ c ∈ ds, Text.isAsciiDigit c = true) (stops : Stops s) :
    (ds ++ s).takeWhile Text.isAsciiDigit = ds ∧ (ds ++ s).dropWhile Text.isAsciiDigit = s := by
  rw [List.takeWhile_append_of_pos all, List.dropWhile_append_of_pos all]
  cases s with
  | nil => simp
  | cons c s => simp [stops c rfl]

theorem exists_digitsOf (n : Int) : ∃ c r, digitsOf n = c :: r ∧ c ∈ digits := by
  cases same : digitsOf n with
  | nil => exact absurd same Nat.toDigits_ne_nil
  | cons c r => exact ⟨c, r, rfl, mem_digitsOf (n := n) (same ▸ List.mem_cons_self)⟩

theorem toList_intText (n : Int) :
    (intText n).toList = (if n < 0 then ['-'] else []) ++ digitsOf n := by
  unfold intText Decimal.signed
  by_cases negative : n < 0 <;> simp [negative, digitsOf]

/-- The characters that integers are written with. -/
theorem mem_intText (h : c ∈ (intText n).toList) : c ∈ '-' :: digits := by
  rw [toList_intText] at h
  rcases List.mem_append.mp h with sign | digit
  · split at sign
    · rw [List.mem_singleton.mp sign]
      exact List.mem_cons_self
    · cases sign
  · exact List.mem_cons_of_mem _ (mem_digitsOf digit)

theorem trimChars_of_all (h : ∀ c ∈ s, Text.isBlank c = false) : Text.trimChars s = s := by
  have keep {s : List Char} (h : ∀ c ∈ s, Text.isBlank c = false) : s.dropWhile Text.isBlank = s := by
    cases s with
    | nil => rfl
    | cons c s => rw [List.dropWhile_cons_of_neg (by simp [h c List.mem_cons_self])]
  unfold Text.trimChars Text.trimRight Text.dropBack Text.trimLeft
  rw [keep h, keep (fun c mem => h c (List.mem_reverse.mp mem)), List.reverse_reverse]

theorem dropUnderscores?_of_all (h : '_' ∉ s) (before : Option Char) :
    dropUnderscores? before s = some s := by
  induction s generalizing before with
  | nil => rfl
  | cons c s ih =>
    obtain ⟨here, rest⟩ := not_or.mp (mt List.mem_cons.mpr h)
    rw [dropUnderscores?, ih rest (some c)]
    · rfl
    · rintro rfl
      exact here rfl

theorem asciiDigits_of_all (h : ∀ c ∈ s, c ∈ '-' :: digits) : asciiDigits s = s := by
  have each : ∀ c ∈ '-' :: digits, asciiDigits [c] = [c] := List.all_iff_forall_prop.mp (by decide)
  induction s with
  | nil => rfl
  | cons c s ih =>
    obtain ⟨here, rest⟩ := List.forall_mem_cons.mp h
    show asciiDigits [c] ++ asciiDigits s = [c] ++ s
    rw [each c here, ih rest]

theorem sign_digits (h : ∃ c r, s = c :: r ∧ c ∈ digits) : sign s = (false, s) := by
  obtain ⟨c, r, rfl, digit⟩ := h
  unfold sign
  split
  next same =>
    cases same
    exact absurd digit (by decide)
  next same =>
    cases same
    exact absurd digit (by decide)
  next => rfl

/-- Behind its sign, the numeral of an integer is the number nearest to the integer. -/
theorem decimal?_digitsOf (negative : Bool) (n : Int) :
    decimal? negative (digitsOf n) = some (.ofRatio negative n.natAbs 1) := by
  have whole : (digitsOf n).takeWhile Text.isAsciiDigit = digitsOf n :=
    List.takeWhile_eq_self_iff.mpr fun _ => isAsciiDigit_of_mem_toDigits
  have rest : (digitsOf n).dropWhile Text.isAsciiDigit = [] :=
    List.dropWhile_eq_nil_iff.mpr fun _ => isAsciiDigit_of_mem_toDigits
  have some : (digitsOf n).isEmpty = false := by
    obtain ⟨c, r, same, -⟩ := exists_digitsOf n
    rw [same]
    rfl
  have scale (k : Nat) : clampScale k 0 = 0 := by
    unfold clampScale
    omega
  unfold decimal?
  simp only [whole, rest, some, exponent?, List.append_nil, Bool.false_and, Bool.false_eq_true,
    if_false, Option.map_some, List.length_nil, Int.natCast_zero, Int.sub_zero, scale,
    natOfDigits_digitsOf, Binary64.ofDecimal, Int.le_refl, if_true, Int.toNat_zero, Power.ten_zero,
    Nat.mul_one]

/-- The numeral of an integer is the number nearest to it. -/
theorem float?_intText (n : Int) : float? (intText n).toList = some (.ofInt n) := by
  obtain ⟨c, r, same, digit⟩ := exists_digitsOf n
  have parts : sign (intText n).toList = (decide (n < 0), digitsOf n) := by
    rw [toList_intText]
    by_cases negative : n < 0
    · rw [if_pos negative, decide_eq_true negative]
      rfl
    · rw [if_neg negative, decide_eq_false negative]
      exact sign_digits ⟨c, r, same, digit⟩
  -- no word begins with a digit
  have wordless (w : List Char) (first : w.head?.any digits.contains = false) :
      (lowerAscii (digitsOf n) == w) = false := by
    have kept : ∀ c ∈ digits, (if Text.isCapital c then Char.ofNat (c.toNat + 32) else c) = c :=
      List.all_iff_forall_prop.mp (by decide)
    rw [beq_eq_false_iff_ne, same, lowerAscii, List.map_cons, kept c digit]
    rintro rfl
    have other : digits.contains c = false := first
    rw [List.contains_iff_mem.mpr digit] at other
    cases other
  unfold float?
  rw [parts]
  dsimp only
  rw [wordless "inf".toList (by decide), wordless "infinity".toList (by decide),
    wordless "nan".toList (by decide)]
  exact decimal?_digitsOf _ n

theorem read?_intText (n : Int) : read? (intText n) = some (.ofInt n) := by
  have marks : ∀ c ∈ (intText n).toList, c ∈ '-' :: digits := fun c => mem_intText
  have blank : ∀ c ∈ '-' :: digits, Text.isBlank c = false := List.all_iff_forall_prop.mp (by decide)
  have trimmed : Text.trimChars (intText n).toList = (intText n).toList :=
    trimChars_of_all fun c mem => blank c (marks c mem)
  have joined : '_' ∉ (intText n).toList := fun mem => absurd (marks _ mem) (by decide)
  rw [read?, trimmed, asciiDigits_of_all marks, dropUnderscores?_of_all joined]
  exact float?_intText n

end Numeral

end Scaffold
