import Mathlib.Data.Nat.Digits.Defs
import Scaffold.Answers
import Scaffold.Proofs.Number.Numerals

/-!
# Points in time in answers files

A point in time that a clock of universal time shows is written with a fixed number of digits for each
of its parts, and read back as what it was.
-/

namespace Scaffold

namespace Moment

variable {n k : Nat}

theorem toList_pad (n k : Nat) :
    (pad n k).toList = List.replicate (n - (Nat.toDigits 10 k).length) '0' ++ Nat.toDigits 10 k := by
  rw [pad, String.toList_ofList]

theorem length_pad (positive : 0 < n) (h : k < 10 ^ n) : (pad n k).toList.length = n := by
  have fits := (Nat.length_toDigits_le_iff (by decide) positive).mpr h
  rw [toList_pad, List.length_append, List.length_replicate]
  omega

theorem isAsciiDigit_of_mem_pad {c : Char} (h : c ∈ (pad n k).toList) : Text.isAsciiDigit c = true := by
  rw [toList_pad] at h
  rcases List.mem_append.mp h with zero | digit
  · obtain rfl := List.eq_of_mem_replicate zero
    rfl
  · exact Numeral.isAsciiDigit_of_mem_toDigits digit

theorem natOfDigits_pad (n k : Nat) : Numeral.natOfDigits (pad n k).toList = k := by
  show Nat.ofDigitChars 10 (pad n k).toList 0 = k
  rw [toList_pad, Nat.ofDigitChars_append, Nat.ofDigitChars_replicate_zero, Nat.mul_zero,
    Nat.ofDigitChars_toDigits (by decide) (by decide)]

theorem digits?_pad (positive : 0 < n) (h : k < 10 ^ n) (r : List Char) :
    Yaml.digits? n ((pad n k).toList ++ r) = some ((pad n k).toList, r) := by
  have length := length_pad positive h
  have all : (pad n k).toList.all Text.isAsciiDigit = true :=
    List.all_eq_true.mpr fun c => isAsciiDigit_of_mem_pad
  unfold Yaml.digits?
  rw [List.take_left' length, List.drop_left' length]
  simp [length, all]

/-- A point in time as a clock of universal time shows it. -/
inductive IsUniversal : Moment → Prop
  | intro {y m d h mi s us : Nat} : 0 < y → y ≤ 9999 → 0 < m → m ≤ 12 → 0 < d → d ≤ Yaml.daysIn y m →
      h < 24 → mi < 60 → s < 60 → us < 1000000 → IsUniversal (.time y m d h mi s us (some 0))

end Moment

namespace AnswersFile

variable {us : Nat} {r : List Char}

/-- The fraction of a second as it is written, if there is one. -/
def fraction (us : Nat) : List Char := if us = 0 then [] else (Moment.pad 6 us).toList

theorem natOfDigits_fraction (below : us < 1000000) :
    Numeral.natOfDigits ((fraction us ++ List.replicate 6 '0').take 6) = us := by
  unfold fraction
  split
  next none =>
    subst none
    decide
  next =>
    rw [List.take_left' (Moment.length_pad (by decide) below), Moment.natOfDigits_pad]

/-- The seconds of a point in time, up to the letter for universal time. -/
def secondsText (s us : Nat) : List Char :=
  ':' :: ((Moment.pad 2 s).toList ++ if us = 0 then ['Z'] else '.' :: (fraction us ++ ['Z']))

theorem seconds?_text {s : Nat} (seconds : s < 60) (micros : us < 1000000) :
    seconds? (secondsText s us) = some ((s, fraction us), ['Z']) := by
  unfold seconds? secondsText
  simp only [Moment.digits?_pad (by decide : 0 < 2) (show s < 10 ^ 2 by omega), Option.bind_eq_bind,
    Option.bind_some, Moment.natOfDigits_pad]
  by_cases none : us = 0
  · simp only [none, if_true]
    rfl
  · have places : fraction us = (Moment.pad 6 us).toList := if_neg none
    have digits : ∀ c ∈ fraction us, Text.isAsciiDigit c = true := by
      rw [places]
      exact fun c => Moment.isAsciiDigit_of_mem_pad
    have some : (fraction us).isEmpty = false := by
      rw [places, List.isEmpty_eq_false_iff, ← List.length_pos_iff,
        Moment.length_pad (by decide) micros]
      decide
    simp only [if_neg none]
    rw [List.takeWhile_append_of_pos digits, List.dropWhile_append_of_pos digits,
      List.takeWhile_cons_of_neg (by decide), List.dropWhile_cons_of_neg (by decide), List.append_nil,
      some]
    rfl

theorem toList_stamp (y m d h mi s us : Nat) :
    (stamp (.time y m d h mi s us (some 0))).toList =
      (Moment.pad 4 y).toList ++ '-' :: ((Moment.pad 2 m).toList ++ '-' ::
        ((Moment.pad 2 d).toList ++ 'T' :: ((Moment.pad 2 h).toList ++ ':' ::
          ((Moment.pad 2 mi).toList ++ secondsText s us)))) := by
  unfold stamp Moment.iso Moment.text secondsText fraction
  by_cases none : us = 0 <;> simp [none]

/-- What a clock shows is written so that it is read back. -/
theorem moment?_stamp {now : Moment} (h : now.IsUniversal) : moment? (stamp now) = some now := by
  cases h with
  | @intro y m d h mi s us hy hy' hm hm' hd hd' hh hmi hs hus =>
    have two {k : Nat} (small : k < 100) (r : List Char) :
        Yaml.digits? 2 ((Moment.pad 2 k).toList ++ r) = some ((Moment.pad 2 k).toList, r) :=
      Moment.digits?_pad (by decide) small r
    have days : Yaml.daysIn y m ≤ 31 := by
      unfold Yaml.daysIn
      dsimp only
      split <;> split <;> decide
    have sound : Yaml.Stamp.moment ⟨y, m, d, true, some (h, mi, s, fraction us), some 0⟩ =
        .ok (.time y m d h mi s us (some 0)) := by
      have micros := natOfDigits_fraction hus
      have inside : ¬23 < h ∧ ¬59 < mi ∧ ¬59 < s := by omega
      simp [Yaml.Stamp.moment, pure, Except.pure, hy.ne', hm.ne', hd.ne', hm'.not_gt, hd'.not_gt, inside]
      exact micros
    unfold moment?
    rw [toList_stamp]
    -- each part is found where it was written
    simp only [Moment.digits?_pad (by decide : 0 < 4) (show y < 10 ^ 4 by omega),
      two (show m < 100 by omega), two (show d < 100 by omega), two (show h < 100 by omega),
      two (show mi < 100 by omega), seconds?_text hs hus, Moment.natOfDigits_pad, Yaml.behind?,
      Option.bind_eq_bind, Option.bind_some, if_true]
    rw [if_neg (by decide)]
    show (Yaml.Stamp.moment _).toOption = _
    rw [sound]
    rfl

theorem readMoment_stamp {now : Moment} (h : now.IsUniversal) :
    readMoment (.str (stamp now)) = .ok now := by
  unfold readMoment
  dsimp only
  rw [moment?_stamp h]
  rfl

end AnswersFile

end Scaffold
