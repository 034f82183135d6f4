import Scaffold.Proofs.Number.Digits

/-!
# Floating point numbers as numerals

A number is written as a numeral in three parts: the digits in front of the point, those behind it and an
exponent, of which the last two may be missing.  However its digits are divided among the parts, the numeral
is read as the number itself.
-/

namespace Scaffold

namespace Numeral

/-- The parts of a numeral without a sign of its own. -/
structure Parts where
  whole : List Char
  places : List Char
  /-- The exponent: whether it is negative, and its digits. -/
  power : Option (Bool × List Char)

namespace Parts

/-- A point and the digits behind it, if there are any. -/
def fraction (ds : List Char) : List Char := if ds.isEmpty then [] else '.' :: ds

/-- An exponent as it is written, always with its sign. -/
def powerText : Option (Bool × List Char) → List Char
  | none => []
  | some (negative, ds) => 'e' :: (if negative then '-' else '+') :: ds

/-- The numeral that has the parts. -/
def text (n : Parts) : List Char := n.whole ++ fraction n.places ++ powerText n.power

/-- The exponent, zero if it is missing. -/
def exponent (n : Parts) : Int :=
  match n.power with
  | none => 0
  | some (negative, ds) => if negative then -(natOfDigits ds : Int) else natOfDigits ds

/-- The power of ten that the digits of both parts are multiplied with. -/
def scale (n : Parts) : Int := n.exponent - n.places.length

/-- Parts that make up a numeral: digits, at least one of them in front of the point, where a zero only
stands alone. -/
structure Sound (n : Parts) : Prop where
  whole : ∀ c ∈ n.whole, Text.isAsciiDigit c = true
  some : n.whole ≠ []
  plain : ∀ r, n.whole = '0' :: r → r = []
  places : ∀ c ∈ n.places, Text.isAsciiDigit c = true
  power : ∀ q ∈ n.power, q.2 ≠ [] ∧ ∀ c ∈ q.2, Text.isAsciiDigit c = true

variable {n : Parts}

theorem stops_powerText (q : Option (Bool × List Char)) : Stops (powerText q) := by
  intro c mem
  cases q with
  | none => cases mem
  | some q =>
    cases mem
    decide

theorem stops_fraction (ds : List Char) (q : Option (Bool × List Char)) :
    Stops (fraction ds ++ powerText q) := by
  unfold fraction
  split
  · exact stops_powerText q
  · rintro c ⟨⟩
    decide

theorem exponent?_powerText (h : n.Sound) : exponent? (powerText n.power) = some n.exponent := by
  obtain ⟨whole, places, power⟩ := n
  cases power with
  | none => rfl
  | some q =>
    obtain ⟨negative, ds⟩ := q
    obtain ⟨some, all⟩ := h.power _ rfl
    have digits : (ds.isEmpty || !ds.all Text.isAsciiDigit) = false := by
      rw [List.isEmpty_eq_false_iff.mpr some, List.all_eq_true.mpr all]
      rfl
    cases negative <;> simp [powerText, exponent?, sign, exponent, digits]

/-- The digits behind a point, if there is one, and the rest. -/
def split (s : List Char) : List Char × List Char :=
  match s with
  | '.' :: r => (r.takeWhile Text.isAsciiDigit, r.dropWhile Text.isAsciiDigit)
  | r => ([], r)

theorem split_text (h : n.Sound) :
    split (fraction n.places ++ powerText n.power) = (n.places, powerText n.power) := by
  cases places : n.places with
  | nil =>
    show split (powerText n.power) = _
    cases n.power <;> rfl
  | cons c ds =>
    rw [← places]
    have point : fraction n.places = '.' :: n.places := by
      rw [places]
      rfl
    obtain ⟨take, drop⟩ := span_digits h.places (stops_powerText n.power)
    rw [point, List.cons_append, split, take, drop]

/-- A numeral is read as the nearest number to what its parts stand for. -/
theorem decimal?_eq (negative : Bool) (s : List Char) : decimal? negative s =
    if (s.takeWhile Text.isAsciiDigit).isEmpty &&
      (split (s.dropWhile Text.isAsciiDigit)).1.isEmpty then none
    else (exponent? (split (s.dropWhile Text.isAsciiDigit)).2).map fun x =>
      let places := (split (s.dropWhile Text.isAsciiDigit)).1
      let ds := s.takeWhile Text.isAsciiDigit ++ places
      .ofDecimal negative (natOfDigits ds) (clampScale ds.length (x - (places.length : Int))) := rfl

/-- The numeral with the parts is the nearest number to what the parts stand for. -/
theorem decimal?_text (h : n.Sound) (negative : Bool) : decimal? negative n.text =
    some (.ofDecimal negative (natOfDigits (n.whole ++ n.places))
      (clampScale (n.whole ++ n.places).length n.scale)) := by
  obtain ⟨take, drop⟩ := span_digits h.whole (stops_fraction n.places n.power)
  have some : n.whole.isEmpty = false := List.isEmpty_eq_false_iff.mpr h.some
  rw [decimal?_eq, text, List.append_assoc, take, drop, split_text h, some, exponent?_powerText h]
  rfl

end Parts

end Numeral

namespace Decimal

open Numeral (Parts natOfDigits clampScale)

/-- An exponent of at least two digits, as its sign and its digits. -/
def powerOf (x : ℤ) : Bool × List Char :=
  (x < 0, List.replicate (2 - (Nat.toDigits 10 x.natAbs).length) '0' ++ Nat.toDigits 10 x.natAbs)

/-- The parts among which digits with their point are divided: positional near the point, and with an
exponent behind the first digit elsewhere. -/
def parts (ds : List ℕ) (p : ℤ) : Parts :=
  if -4 < p ∧ p ≤ 16 then
    if p ≤ 0 then ⟨['0'], List.replicate (-p).toNat '0' ++ chars ds, none⟩
    else if ds.length ≤ p then ⟨chars ds ++ List.replicate (p.toNat - ds.length) '0', ['0'], none⟩
    else ⟨chars (ds.take p.toNat), chars (ds.drop p.toNat), none⟩
  else ⟨chars (ds.take 1), chars (ds.drop 1), some (powerOf (p - 1))⟩

/-- Digits with their point as they are written in full. -/
def layout (ds : List ℕ) (p : ℤ) : String :=
  if -4 < p && p ≤ 16 then
    if (ds.length : ℤ) ≤ p then positional ds p ++ ".0" else positional ds p
  else exponential ds p

theorem toList_digitText (ds : List ℕ) : (digitText ds).toList = chars ds := String.toList_ofList

variable {ds : List ℕ} {p : ℤ}

/-- The numeral has the parts. -/
theorem toList_layout (some : ds ≠ []) : (layout ds p).toList = (parts ds p).text := by
  have length : 0 < ds.length := List.length_pos_iff.mpr some
  have point {s : List ℕ} (some : s ≠ []) : Parts.fraction (chars s) = '.' :: chars s := by
    simp [Parts.fraction, chars, some]
  have place : ".".toList = ['.'] := rfl
  unfold layout parts
  by_cases near : -4 < p ∧ p ≤ 16
  · rw [if_pos near, if_pos (by simpa using near)]
    unfold positional padded
    dsimp only
    by_cases down : p ≤ 0
    · have zeros : List.replicate (-p).toNat '0' ++ chars ds = chars (List.replicate (-p).toNat 0 ++ ds) := by
        rw [chars, chars, List.map_append, ← chars, ← chars, chars_zeros]
      rw [if_neg (by omega), if_pos down, if_pos down, zeros, Parts.text, point (by simp [some]),
        String.toList_append, toList_digitText]
      simp [Parts.powerText]
    · obtain ⟨n, rfl⟩ := Int.eq_ofNat_of_zero_le (show 0 ≤ p by omega)
      rw [if_neg down, if_neg down, Int.toNat_natCast]
      by_cases fits : (ds.length : ℤ) ≤ n
      · have whole : ds.length + (n - ds.length) ≤ n := by omega
        rw [if_pos fits, if_pos fits, List.length_append, List.length_replicate, if_pos whole,
          String.toList_append, toList_digitText, chars, List.map_append, ← chars, ← chars, chars_zeros]
        exact (List.append_nil _).symm
      · have full : ¬ds.length ≤ n := by omega
        rw [if_neg fits, if_neg fits, Nat.sub_eq_zero_of_le (by omega), List.replicate_zero,
          List.append_nil, if_neg full, Parts.text, point (by simp; omega), String.toList_append,
          String.toList_append, toList_digitText, toList_digitText, place]
        simp [Parts.powerText]
  · rw [if_neg near, if_neg (by simpa using near)]
    have mantissa : (if (ds.drop 1).isEmpty then digitText (ds.take 1)
        else digitText (ds.take 1) ++ "." ++ digitText (ds.drop 1)).toList =
        chars (ds.take 1) ++ Parts.fraction (chars (ds.drop 1)) := by
      by_cases single : ds.drop 1 = []
      · rw [single]
        simp [toList_digitText, Parts.fraction, chars]
      · rw [if_neg (by simpa using single), point single, String.toList_append, String.toList_append,
          toList_digitText, toList_digitText, place]
        simp
    have mark : (if p - 1 < 0 then "-" else "+").toList = [if p - 1 < 0 then '-' else '+'] := by
      split <;> rfl
    have letter : "e".toList = ['e'] := rfl
    unfold exponential
    dsimp only
    rw [String.toList_append, String.toList_append, String.toList_append, mantissa, mark, letter,
      String.toList_ofList]
    simp [Parts.text, Parts.powerText, powerOf]

theorem powerOf_sound (x : ℤ) : (powerOf x).2 ≠ [] ∧ ∀ c ∈ (powerOf x).2, Text.isAsciiDigit c = true := by
  refine ⟨by simp [powerOf, Nat.toDigits_ne_nil], fun c mem => ?_⟩
  rcases List.mem_append.mp mem with zero | digit
  · rw [(List.mem_replicate.mp zero).2]
    decide
  · exact Numeral.isAsciiDigit_of_mem_toDigits digit

theorem exponent_powerOf (whole places : List Char) (x : ℤ) :
    Parts.exponent ⟨whole, places, some (powerOf x)⟩ = x := by
  have value : natOfDigits (powerOf x).2 = x.natAbs := by
    rw [powerOf, natOfDigits_leadingZeros]
    exact Nat.ofDigitChars_ten_toDigits
  show (if (powerOf x).1 = true then -(natOfDigits (powerOf x).2 : ℤ) else natOfDigits (powerOf x).2) = x
  rw [value]
  exact Binary64.withSign_natAbs x

theorem parts_sound (h : Digits ds) (p : ℤ) : (parts ds p).Sound := by
  have digit := isAsciiDigit_chars h.small
  have zeros (k : ℕ) : ∀ c ∈ List.replicate k '0', Text.isAsciiDigit c = true := by
    intro c mem
    rw [(List.mem_replicate.mp mem).2]
    decide
  have front {k : ℕ} : ∀ c ∈ chars (ds.take k), Text.isAsciiDigit c = true :=
    isAsciiDigit_chars fun d mem => h.small d (List.mem_of_mem_take mem)
  have back {k : ℕ} : ∀ c ∈ chars (ds.drop k), Text.isAsciiDigit c = true :=
    isAsciiDigit_chars fun d mem => h.small d (List.mem_of_mem_drop mem)
  -- the first digit counts, so what begins with it does not begin with a zero
  have first {s r : List Char} {k : ℕ} (pos : 0 < k) : chars (ds.take k) ++ s ≠ '0' :: r := by
    cases ds with
    | nil => exact absurd rfl h.some
    | cons d ds =>
      obtain ⟨k, rfl⟩ := Nat.exists_eq_add_one.mpr pos
      intro same
      have zero : Text.digitChar d = '0' := (List.cons.inj same).1
      have none : ∀ d < 10, Text.digitChar d = '0' → d = 0 := by decide
      have := none d (h.small d List.mem_cons_self) zero
      subst this
      exact h.first rfl
  have some {k : ℕ} (pos : 0 < k) : chars (ds.take k) ≠ [] := by
    simp only [chars, ne_eq, List.map_eq_nil_iff, List.take_eq_nil_iff, not_or]
    exact ⟨by omega, h.some⟩
  unfold parts
  split
  · split
    · refine ⟨zeros 1, List.cons_ne_nil _ _, fun r same => (List.cons.inj same).2.symm, ?_, by simp⟩
      exact List.forall_mem_append.mpr ⟨zeros _, digit⟩
    · split
      · have all : ds.take ds.length = ds := List.take_length
        have pos : 0 < ds.length := List.length_pos_iff.mpr h.some
        refine ⟨List.forall_mem_append.mpr ⟨digit, zeros _⟩, ?_, fun r same => ?_, zeros 1, by simp⟩
        · have := some pos
          rw [all] at this
          simp [this]
        · refine absurd ?_ (first (s := List.replicate (p.toNat - ds.length) '0') (r := r) pos)
          rwa [all]
      · have pos : 0 < p.toNat := by omega
        refine ⟨front, some pos, fun r same => absurd ?_ (first (s := []) (r := r) pos), back, by simp⟩
        exact (List.append_nil _).trans same
  · refine ⟨front, some Nat.one_pos, fun r same => absurd ?_ (first (s := []) (r := r) Nat.one_pos), back, ?_⟩
    · exact (List.append_nil _).trans same
    · rintro q ⟨⟩
      exact powerOf_sound _

/-- The digits of both parts are the given ones, with zeros at either end. -/
theorem parts_spec (h : Digits ds) (p : ℤ) : ∃ k : ℕ, k ≤ 16 ∧
    natOfDigits ((parts ds p).whole ++ (parts ds p).places) = valueOf ds * 10 ^ k ∧
    (parts ds p).scale = p - ds.length - k ∧
    ds.length ≤ ((parts ds p).whole ++ (parts ds p).places).length := by
  have length : 0 < ds.length := List.length_pos_iff.mpr h.some
  have joined (k : ℕ) : chars (ds.take k) ++ chars (ds.drop k) = chars ds := by
    rw [chars, chars, ← List.map_append, List.take_append_drop, chars]
  have count (ds : List ℕ) : (chars ds).length = ds.length := List.length_map _
  unfold parts
  split
  next near =>
    split
    next down =>
      refine ⟨0, by decide, ?_, ?_, ?_⟩
      · show natOfDigits (List.replicate 1 '0' ++ _) = _
        rw [natOfDigits_leadingZeros, natOfDigits_leadingZeros, pow_zero, Nat.mul_one, valueOf]
      · simp only [Parts.scale, Parts.exponent, List.length_append, List.length_replicate, count]
        omega
      · simp only [List.length_append, count]
        omega
    next up =>
      split
      next fits =>
        refine ⟨p.toNat - ds.length + 1, by omega, ?_, ?_, ?_⟩
        · show natOfDigits (_ ++ List.replicate 1 '0') = _
          rw [natOfDigits_zeros, natOfDigits_zeros, valueOf, pow_one, pow_succ, Nat.mul_assoc]
        · simp only [Parts.scale, Parts.exponent, List.length_singleton]
          omega
        · simp only [List.length_append, count]
          omega
      next longer =>
        refine ⟨0, by decide, ?_, ?_, ?_⟩
        · rw [joined, pow_zero, Nat.mul_one, valueOf]
        · simp only [Parts.scale, Parts.exponent, count, List.length_drop]
          omega
        · rw [joined, count]
  next =>
    refine ⟨0, by decide, ?_, ?_, ?_⟩
    · rw [joined, pow_zero, Nat.mul_one, valueOf]
    · rw [Parts.scale, exponent_powerOf]
      simp only [count, List.length_drop]
      omega
    · rw [joined, count]

/-- Every number in full has a point or an exponent. -/
theorem parts_inexact (h : Digits ds) (p : ℤ) : (parts ds p).places ≠ [] ∨ (parts ds p).power ≠ none := by
  unfold parts
  split
  · refine .inl ?_
    split
    · simp [chars, h.some]
    · split
      · exact List.cons_ne_nil _ _
      · simp only [chars, ne_eq, List.map_eq_nil_iff, List.drop_eq_nil_iff]
        omega
  · exact .inr (Option.some_ne_none _)

end Decimal

namespace Binary64

open Numeral Decimal

/-- A number in full, as the numeral without its sign. -/
def numeral (m : ℕ) (e : ℤ) : Parts :=
  if m = 0 then ⟨['0'], ['0'], none⟩ else parts (shortest m e).1 (shortest m e).2

variable {m : ℕ} {e : ℤ}

theorem toList_signed (s : Bool) (body : String) :
    (signed s body).toList = (if s then ['-'] else []) ++ body.toList := by
  cases s
  · rfl
  · exact String.toList_append

theorem toList_full (s : Bool) (kept : Kept m e) :
    (full (.finite s m e)).toList = (if s then ['-'] else []) ++ (numeral m e).text := by
  unfold full numeral
  dsimp only
  split
  next => exact toList_signed s _
  next other =>
    rw [← toList_layout (shortest_spells kept (Nat.pos_of_ne_zero other)).digits.some]
    exact toList_signed s _

theorem numeral_sound (kept : Kept m e) : (numeral m e).Sound := by
  unfold numeral
  split
  next =>
    have zero : ∀ c ∈ ['0'], Text.isAsciiDigit c = true := by
      intro c mem
      rw [List.mem_singleton.mp mem]
      rfl
    exact ⟨zero, List.cons_ne_nil _ _, fun r same => (List.cons.inj same).2.symm, zero, nofun⟩
  next other => exact parts_sound (shortest_spells kept (Nat.pos_of_ne_zero other)).digits _

theorem numeral_inexact (kept : Kept m e) : (numeral m e).places ≠ [] ∨ (numeral m e).power ≠ none := by
  unfold numeral
  split
  next => exact .inl (List.cons_ne_nil _ _)
  next other => exact parts_inexact (shortest_spells kept (Nat.pos_of_ne_zero other)).digits _

/-- The numeral of a number is read as the number. -/
theorem decimal?_numeral (s : Bool) (kept : Kept m e) :
    decimal? s (numeral m e).text = some (.finite s m e) := by
  rw [Parts.decimal?_text (numeral_sound kept), numeral]
  split
  next zero =>
    subst zero
    obtain rfl : e = -1074 := kept.full.resolve_left (by decide)
    rfl
  next other =>
    have some := Nat.pos_of_ne_zero other
    have spells := shortest_spells kept some
    generalize (shortest m e).1 = ds at spells
    generalize (shortest m e).2 = p at spells
    obtain ⟨k, few, value, scale, length⟩ := parts_spec spells.digits p
    have low := spells.low
    have high := spells.high
    have inside (n : ℕ) (h : ds.length ≤ n) : clampScale n (p - ds.length - k) = p - ds.length - k := by
      unfold clampScale
      omega
    rw [value, scale, inside _ length]
    refine congrArg _ (ofDecimal_of_roundsTo s kept some ?_)
    have same : ((valueOf ds * 10 ^ k : ℕ) : ℚ) * 10 ^ (p - ds.length - k) =
        valueOf ds * 10 ^ (p - ds.length) := by
      rw [Nat.cast_mul, Nat.cast_pow, Nat.cast_ofNat, mul_assoc, ← zpow_natCast, ← zpow_add₀ (by norm_num),
        add_sub_cancel]
    rw [same]
    exact spells.rounds

end Binary64

end Scaffold
