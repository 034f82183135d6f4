import Scaffold.Proofs.Json.Reading
import Scaffold.Proofs.Number.Numerals

/-!
# Integers in JSON

A numeral without a point and an exponent is read as the integer itself, of any size: no digit is lost,
other than where a text is turned into a number on its own.
-/

namespace Scaffold

namespace Json

open Numeral

variable {rest : List Char}

/-- What may stand behind a value does not go on with a number. -/
theorem Follows.breaks (h : Follows rest) : ∀ c ∈ rest.head?,
    Text.isAsciiDigit c = false ∧ c ≠ '.' ∧ (c == 'e' || c == 'E') = false := by
  intro c mem
  have stop := h c mem
  simp only [isGap, Bool.or_eq_true, beq_iff_eq] at stop
  rcases stop with rfl | rfl | rfl | ((rfl | rfl) | rfl) | rfl <;> decide

theorem Follows.stops_digits (h : Follows rest) : Stops rest := fun c mem => (h.breaks c mem).1

theorem exponentPart_stop (h : Follows rest) : exponentPart rest = ([], rest) := by
  unfold exponentPart
  cases rest with
  | nil => rfl
  | cons c r => simp [(h.breaks c rfl).2.2]

/-- The digits of an integer do not begin with a zero unless this is all there is. -/
theorem digitsOf_zero {n : Int} {r : List Char} (h : digitsOf n = '0' :: r) : r = [] := by
  by_cases zero : n = 0
  · subst zero
    cases h
    rfl
  · have none := head_toDigits (Int.natAbs_ne_zero.mpr zero)
    rw [← digitsOf, h] at none
    exact absurd rfl none

/-! ### The parts of a number -/

/-- The sign at the front, and the rest. -/
def signPart (s : List Char) : Bool × List Char :=
  match s with
  | '-' :: r => (true, r)
  | r => (false, r)

/-- The digits in front of the point, and the rest. -/
def wholePart (s : List Char) : List Char × List Char :=
  match s with
  | '0' :: r => (['0'], r)
  | r => spanDigits r

/-- The point and the digits behind it, if there are any, and the rest. -/
def placesPart (s : List Char) : List Char × List Char :=
  match s with
  | '.' :: r => let (ds, t) := spanDigits r; if ds.isEmpty then ([], s) else ('.' :: ds, t)
  | r => ([], r)

/-- A number is an integer if neither a point nor an exponent follows its digits. -/
theorem readNumber_parts (s : List Char) : readNumber s =
    if (wholePart (signPart s).2).1.isEmpty then .error (.expectingValue, s.length)
    else
      let whole := wholePart (signPart s).2
      let places := placesPart whole.2
      let power := exponentPart places.2
      if places.1.isEmpty && power.1.isEmpty then
        let n : Int := natOfDigits whole.1
        .ok (.int (if (signPart s).1 then -n else n), power.2)
      else
        .ok (.float ((decimal? (signPart s).1 (whole.1 ++ places.1 ++ power.1)).getD .nan), power.2) :=
  rfl

/-- A number without places and exponent is an integer, whatever the number of its digits is. -/
theorem readNumber_whole {s body ds : List Char} {negative : Bool} (sign : signPart s = (negative, body))
    (whole : wholePart body = (ds, rest)) (some : ds.isEmpty = false)
    (places : placesPart rest = ([], rest)) (power : exponentPart rest = ([], rest)) :
    readNumber s =
      .ok (.int (if negative then -(natOfDigits ds : Int) else natOfDigits ds), rest) := by
  rw [readNumber_parts, sign, whole]
  simp only [some, Bool.false_eq_true, if_false, places, power, List.isEmpty_nil, Bool.and_self, if_true]

/-- The sign of a number in front of its first digit. -/
theorem signPart_digit (negative : Bool) {c : Char} {r : List Char} (digit : c ∈ digits) :
    signPart ((if negative then ['-'] else []) ++ c :: r) = (negative, c :: r) := by
  cases negative with
  | true => rfl
  | false =>
    show signPart (c :: r) = _
    unfold signPart
    split
    next same =>
      -- a digit is no sign
      obtain rfl := (List.cons.inj same).1
      exact absurd digit (by decide)
    next => rfl

theorem signPart_intText (n : Int) (rest : List Char) :
    signPart ((intText n).toList ++ rest) = (decide (n < 0), digitsOf n ++ rest) := by
  obtain ⟨c, r, front, digit⟩ := exists_digitsOf n
  have sign := signPart_digit (decide (n < 0)) (r := r ++ rest) digit
  simp only [decide_eq_true_eq] at sign
  rw [toList_intText, front, List.append_assoc, List.cons_append]
  exact sign

/-- Digits are taken up to their end, a zero in front only if it is all there is. -/
theorem wholePart_digits {ds : List Char} (some : ds ≠ []) (all : ∀ c ∈ ds, Text.isAsciiDigit c = true)
    (plain : ∀ r, ds = '0' :: r → r = []) (stops : Stops rest) : wholePart (ds ++ rest) = (ds, rest) := by
  unfold wholePart
  split
  next same =>
    cases ds with
    | nil => exact absurd rfl some
    | cons c r =>
      obtain ⟨rfl, rfl⟩ := List.cons.inj same
      rw [plain r rfl]
      rfl
  next =>
    obtain ⟨take, drop⟩ := span_digits all stops
    rw [spanDigits, take, drop]

theorem wholePart_digitsOf (n : Int) (h : Follows rest) :
    wholePart (digitsOf n ++ rest) = (digitsOf n, rest) :=
  wholePart_digits Nat.toDigits_ne_nil (fun _ => isAsciiDigit_of_mem_toDigits) (fun _ => digitsOf_zero)
    h.stops_digits

theorem placesPart_stop (h : Follows rest) : placesPart rest = ([], rest) := by
  unfold placesPart
  split
  next => exact absurd rfl (h.breaks '.' rfl).2.1
  next => rfl

theorem readNumber_intText (n : Int) (h : Follows rest) :
    readNumber ((intText n).toList ++ rest) = .ok (.int n, rest) := by
  have some : (digitsOf n).isEmpty = false := by
    obtain ⟨c, r, front, -⟩ := exists_digitsOf n
    rw [front]
    rfl
  have value : (if decide (n < 0) then -(n.natAbs : Int) else n.natAbs) = n :=
    Binary64.withSign_natAbs n
  rw [readNumber_whole (signPart_intText n rest) (wholePart_digitsOf n h) some (placesPart_stop h)
    (exponentPart_stop h), natOfDigits_digitsOf, value]

/-! ### The value at the front -/

/-- No word has a digit among its first two characters. -/
theorem readWord?_of_digit {s : List Char} {c : Char} {i : Nat} (place : i < 2) (there : s[i]? = some c)
    (digit : c ∈ digits) : readWord? s = none := by
  refine List.findSome?_eq_none_iff.mpr fun w mem => if_neg fun front => ?_
  have letters : ∀ w ∈ words, ∀ i < 2, i < w.1.length ∧ w.1[i]?.any digits.contains = false := by
    decide
  obtain ⟨short, free⟩ := letters w mem i place
  obtain ⟨r, rfl⟩ := List.isPrefixOf_iff_prefix.mp front
  rw [List.getElem?_append_left short] at there
  rw [there, Option.any_some, List.contains_iff_mem.mpr digit] at free
  cases free

/-- A sign or none and digits denote what is read for them as a number. -/
theorem denotes_number {negative : Bool} {c : Char} {r : List Char} {v : Value} (digit : c ∈ digits)
    (read : ∀ rest, Follows rest →
      readNumber ((if negative then ['-'] else []) ++ c :: r ++ rest) = .ok (v, rest)) :
    Denotes ((if negative then ['-'] else []) ++ c :: r) v := by
  have word (rest : List Char) : readWord? ((if negative then ['-'] else []) ++ c :: r ++ rest) = none := by
    cases negative with
    | true => exact readWord?_of_digit (i := 1) (by decide) rfl digit
    | false => exact readWord?_of_digit (i := 0) (by decide) rfl digit
  obtain ⟨d, s, front, mark⟩ : ∃ d s, (if negative then ['-'] else []) ++ c :: r = d :: s ∧ d ∈ '-' :: digits := by
    cases negative with
    | true => exact ⟨'-', c :: r, rfl, List.mem_cons_self⟩
    | false => exact ⟨c, r, rfl, List.mem_cons_of_mem _ digit⟩
  have plain : ∀ c ∈ '-' :: digits,
      isGap c = false ∧ c ≠ ']' ∧ c.toNat ≠ 0xfeff ∧ c ≠ '"' ∧ c ≠ '[' ∧ c ≠ '{' :=
    List.all_iff_forall_prop.mp (by decide)
  obtain ⟨other, open', unmarked, text, list, mapping⟩ := plain d mark
  rw [front] at read word ⊢
  refine ⟨⟨d, s, rfl, other, open', unmarked⟩, fun fuel rest enough follows => ?_⟩
  cases fuel with
  | zero => cases enough
  | succ fuel =>
    have word := word rest
    have number := read rest follows
    rw [List.cons_append] at word number ⊢
    unfold readValue
    split
    next same => exact absurd (List.cons.inj same).1 text
    next same => exact absurd (List.cons.inj same).1 list
    next same => exact absurd (List.cons.inj same).1 mapping
    next => rw [word, number]

/-- The decimal numeral of an integer stands for the integer, however large. -/
theorem denotes_int (n : Int) : Denotes (intText n).toList (.int n) := by
  obtain ⟨c, r, front, digit⟩ := exists_digitsOf n
  have shape : (intText n).toList = (if decide (n < 0) = true then ['-'] else []) ++ c :: r := by
    rw [toList_intText, front]
    simp only [decide_eq_true_eq]
  have number (rest : List Char) (follows : Follows rest) := readNumber_intText n follows
  rw [shape] at number ⊢
  exact denotes_number digit number

theorem reads_int (n : Int) : Reads (intText n).toList (.int n) := (denotes_int n).reads

end Json

end Scaffold
