import Mathlib.Data.Nat.Digits.Defs
import Scaffold.Answers

/-!
# Spellings of texts

In a JSON text a character can stand for itself, be named by a letter behind a backslash, or be given by
its number: as one unit of four hexadecimal digits, or as a pair of them.  However the characters of a
text are spelled between quotes, the text is what is read.  The writers of JSON each choose one spelling,
and so what they write is read as what was written.
-/

namespace Scaffold

namespace Json

/-- A spelling of a text between quotes. -/
inductive Spells : List Char → List Char → Prop
  | nil : Spells [] []
  | plain {c : Char} {w s : List Char} : 32 ≤ c.toNat → c ≠ '"' → c ≠ '\\' → Spells w s →
      Spells (c :: w) (c :: s)
  | short {c x : Char} {w s : List Char} : shortEscape? c = some x → Spells w s →
      Spells ('\\' :: c :: w) (x :: s)
  | unit {a b c d : Char} {n : Nat} {w s : List Char} : unit? a b c d = some n →
      (n < 0xd800 ∨ 0xdfff < n) → Spells w s →
      Spells ('\\' :: 'u' :: a :: b :: c :: d :: w) (Char.ofNat n :: s)
  | pair {a b c d a' b' c' d' : Char} {n m : Nat} {w s : List Char} : unit? a b c d = some n →
      unit? a' b' c' d' = some m → 0xd800 ≤ n → n ≤ 0xdbff → 0xdc00 ≤ m → m ≤ 0xdfff → Spells w s →
      Spells ('\\' :: 'u' :: a :: b :: c :: d :: '\\' :: 'u' :: a' :: b' :: c' :: d' :: w)
        (pairUnit n m :: s)

section Reading

variable {opened : Nat} {acc rest w s : List Char}

theorem loneUnit_of_whole {n : Nat} (h : n < 0xd800 ∨ 0xdfff < n) : loneUnit n = Char.ofNat n := by
  have outside : (decide (0xd800 ≤ n) && decide (n ≤ 0xdfff)) = false := by
    rw [Bool.and_eq_false_iff, decide_eq_false_iff_not, decide_eq_false_iff_not]
    omega
  rw [loneUnit, outside, if_neg Bool.false_ne_true]

/-- A spelling is read up to the quote behind it. -/
theorem readString_spells (h : Spells w s) :
    readString opened 0 acc (w ++ '"' :: rest) = .ok (acc.reverse ++ s, rest) := by
  induction h generalizing acc with
  | nil => rw [List.nil_append, readString, List.append_nil]
  | @plain c w s printable quote backslash _ ih =>
    rw [List.cons_append, readString, if_neg (Nat.not_lt.mpr printable), ih, List.reverse_cons,
      List.append_assoc, List.singleton_append]
    all_goals simp_all
  | @short c x w s found _ ih =>
    have other : c ≠ 'u' := by
      rintro rfl
      exact absurd found (by simp [shortEscape?])
    rw [List.cons_append, List.cons_append, readString, found]
    · dsimp only
      rw [ih, List.reverse_cons, List.append_assoc, List.singleton_append]
    all_goals simp_all
  | @unit a b c d n w s found whole _ ih =>
    simp only [List.cons_append]
    have single : (decide (0xd800 ≤ n) && decide (n ≤ 0xdbff)) = false := by
      rw [Bool.and_eq_false_iff, decide_eq_false_iff_not, decide_eq_false_iff_not]
      omega
    rw [readString, found]
    dsimp only
    rw [if_neg (by simp), single, if_neg Bool.false_ne_true, loneUnit_of_whole whole, ih,
      List.reverse_cons, List.append_assoc, List.singleton_append]
  | @pair a b c d a' b' c' d' n m w s high low h₁ h₂ h₃ h₄ _ ih =>
    simp only [List.cons_append]
    have first : (decide (0xd800 ≤ n) && decide (n ≤ 0xdbff)) = true := by
      rw [decide_eq_true h₁, decide_eq_true h₂, Bool.and_true]
    have second : (decide (0xdc00 ≤ m) && decide (m ≤ 0xdfff)) = true := by
      rw [decide_eq_true h₃, decide_eq_true h₄, Bool.and_true]
    -- the pair is read as one, and the escape of its low half is passed over
    have partner : lowUnit? ('\\' :: 'u' :: a' :: b' :: c' :: d' :: (w ++ '"' :: rest)) =
        .ok (some m) := by
      cases w <;> simp [lowUnit?, low, second]
    rw [readString, high]
    dsimp only
    rw [if_neg (by simp), first, if_pos rfl, partner]
    dsimp only
    simp only [readString]
    rw [ih, List.reverse_cons, List.append_assoc, List.singleton_append]

end Reading

/-! ## Hexadecimal digits -/

theorem hexValue?_digitChar {d : Nat} (h : d < 16) : Text.hexValue? d.digitChar = some d := by
  have all : ∀ d : Fin 16, Text.hexValue? (d : Nat).digitChar = some d := by decide
  exact all ⟨d, h⟩

theorem hex_one {n : Nat} (h : n < 16) : Quoted.hex 1 n = [n.digitChar] := by
  rw [Quoted.hex, Nat.toDigits_of_lt_base h]
  rfl

/-- The last digit is that of the remainder. -/
theorem hex_succ (k n : Nat) :
    Quoted.hex (k + 2) n = Quoted.hex (k + 1) (n / 16) ++ [(n % 16).digitChar] := by
  unfold Quoted.hex
  by_cases small : n < 16
  · rw [Nat.toDigits_of_lt_base small, Nat.div_eq_of_lt small, Nat.mod_eq_of_lt small,
      Nat.toDigits_of_lt_base (by decide)]
    simp [List.replicate_succ']
  · rw [Nat.toDigits_of_base_le (by decide) (Nat.le_of_not_lt small)]
    simp

theorem unit?_hex {n : Nat} (h : n < 0x10000) :
    ∃ a b c d, Quoted.hex 4 n = [a, b, c, d] ∧ unit? a b c d = some n := by
  have digits : Quoted.hex 4 n = [(n / 16 / 16 / 16).digitChar, (n / 16 / 16 % 16).digitChar,
      (n / 16 % 16).digitChar, (n % 16).digitChar] := by
    rw [hex_succ, hex_succ, hex_succ, hex_one (by omega)]
    rfl
  refine ⟨_, _, _, _, digits, ?_⟩
  · simp only [unit?, hexValue?_digitChar (Nat.mod_lt _ (by decide : 0 < 16)),
      hexValue?_digitChar (show n / 16 / 16 / 16 < 16 by omega), Option.bind_eq_bind,
      Option.bind_some]
    congr 1
    omega

/-! ## The spellings of writers -/

section Writing

variable {w s : List Char}

theorem Spells.unitEscape {n : Nat} (h : Spells w s) (below : n < 0x10000)
    (whole : n < 0xd800 ∨ 0xdfff < n) : Spells (unitEscape n ++ w) (Char.ofNat n :: s) := by
  obtain ⟨a, b, c, d, digits, value⟩ := unit?_hex below
  rw [Json.unitEscape, digits]
  exact .unit value whole h

theorem Spells.pairEscape {n : Nat} (h : Spells w s) (above : 0x10000 ≤ n) (below : n < 0x110000) :
    Spells (Json.unitEscape (0xd800 + (n - 0x10000) / 0x400) ++
      (Json.unitEscape (0xdc00 + (n - 0x10000) % 0x400) ++ w)) (Char.ofNat n :: s) := by
  obtain ⟨a, b, c, d, digits, value⟩ := unit?_hex (n := 0xd800 + (n - 0x10000) / 0x400) (by omega)
  obtain ⟨a', b', c', d', digits', value'⟩ :=
    unit?_hex (n := 0xdc00 + (n - 0x10000) % 0x400) (by omega)
  have whole : pairUnit (0xd800 + (n - 0x10000) / 0x400) (0xdc00 + (n - 0x10000) % 0x400) =
      Char.ofNat n := by
    have number : 0x10000 + (0xd800 + (n - 0x10000) / 0x400 - 0xd800) * 0x400 +
        (0xdc00 + (n - 0x10000) % 0x400 - 0xdc00) = n := by omega
    rw [pairUnit, number]
  rw [Json.unitEscape, Json.unitEscape, digits, digits', ← whole]
  exact .pair value value' (by omega) (by omega) (by omega) (by omega) h

/-- A character escaped in front of a spelling. -/
theorem Spells.escape (h : Spells w s) (c : Char) : Spells (escape c ++ w) (c :: s) := by
  have valid : c.toNat < 0xd800 ∨ 0xdfff < c.toNat ∧ c.toNat < 0x110000 := c.valid
  have back : Char.ofNat c.toNat = c := Char.ofNat_toNat c
  unfold Json.escape
  dsimp only
  split
  next sign =>
    refine .short ?_ h
    rw [shortEscape?, sign, Bool.true_or, if_pos rfl]
  next sign =>
    simp only [Bool.or_eq_true, beq_iff_eq, not_or] at sign
    -- the five control characters with a letter of their own
    split
    next line =>
      obtain rfl := eq_of_beq line
      exact .short (by decide) h
    split
    next line =>
      obtain rfl := eq_of_beq line
      exact .short (by decide) h
    split
    next line =>
      obtain rfl := eq_of_beq line
      exact .short (by decide) h
    split
    next line =>
      obtain rfl : c = Char.ofNat 8 := by rw [← eq_of_beq line, back]
      exact .short (by decide) h
    split
    next line =>
      obtain rfl : c = Char.ofNat 12 := by rw [← eq_of_beq line, back]
      exact .short (by decide) h
    split
    next printable =>
      simp only [Bool.and_eq_true, decide_eq_true_eq] at printable
      exact .plain printable.1 sign.1 sign.2 h
    split
    next low =>
      have spelt := h.unitEscape low (by omega)
      rwa [back] at spelt
    next high =>
      have spelt := h.pairEscape (n := c.toNat) (by omega) (by omega)
      rwa [back, ← List.append_assoc] at spelt

/-- The text of a JSON string spells what it was written for. -/
theorem spells_escape (s : List Char) : Spells (s.flatMap escape) s := by
  induction s with
  | nil => exact .nil
  | cons c s ih => exact ih.escape c

/-- So does the text of an answers file, where a character from the last of ASCII on stands for
itself. -/
theorem spells_answersEscape (s : List Char) : Spells (s.flatMap AnswersFile.escape) s := by
  induction s with
  | nil => exact .nil
  | cons c s ih =>
    rw [List.flatMap_cons, AnswersFile.escape]
    split
    next => exact ih.escape c
    next high =>
      refine .plain (by omega) ?_ ?_ ih
      · rintro rfl
        exact high (by decide)
      · rintro rfl
        exact high (by decide)

end Writing

end Json

end Scaffold
