import Scaffold.Text.Search
import Scaffold.Text.Words

/-!
# Words that stay words

A word of a name is a run of digits, a run of capitals, or a run of small letters with at most one capital in
front.  A word in front of anything that is part of no word is read as just this word, so words that are joined
by separators are found again, each as it was.

In small letters a word is a word again, and so it is with a capital in front.  Both forms are made character
by character, since the letters of words are those of ASCII and digits have no case, and each form of a word
tells what the other one is: going through one of them first makes no difference.
-/

namespace Scaffold.Text

/-- A word: digits, capitals, or small letters with perhaps a capital in front. -/
inductive Word : List Char → Prop where
  | digits {w : List Char} (filled : w ≠ []) (all : ∀ c ∈ w, isDigit c = true) : Word w
  | capitals {w : List Char} (filled : w ≠ []) (all : ∀ c ∈ w, isCapital c = true) : Word w
  | small {w : List Char} (filled : w ≠ []) (all : ∀ c ∈ w, isSmall c = true) : Word w
  | capitalised {a : Char} {w : List Char} (front : isCapital a = true) (filled : w ≠ [])
    (all : ∀ c ∈ w, isSmall c = true) : Word (a :: w)

/-! ## Kinds of characters -/

variable {c : Char} {w : List Char}

theorem isCapital_iff : isCapital c = true ↔ 65 ≤ c.toNat ∧ c.toNat ≤ 90 := by
  rw [isCapital, Bool.and_eq_true, decide_eq_true_iff, decide_eq_true_iff]
  exact Iff.rfl

theorem isSmall_iff : isSmall c = true ↔ 97 ≤ c.toNat ∧ c.toNat ≤ 122 := by
  rw [isSmall, Bool.and_eq_true, decide_eq_true_iff, decide_eq_true_iff]
  exact Iff.rfl

theorem isAsciiDigit_iff : isAsciiDigit c = true ↔ 48 ≤ c.toNat ∧ c.toNat ≤ 57 := by
  rw [isAsciiDigit, Bool.and_eq_true, decide_eq_true_iff, decide_eq_true_iff]
  exact Iff.rfl

/-- A digit is one of ASCII, or beyond ASCII in one of the ranges of digits. -/
theorem isDigit_cases (h : isDigit c = true) :
    (48 ≤ c.toNat ∧ c.toNat ≤ 57) ∨
      128 ≤ c.toNat ∧ ∃ r ∈ digitRanges.toList, r.1 ≤ c.toNat ∧ c.toNat ≤ r.2 := by
  unfold isDigit digitValue? at h
  dsimp only at h
  split at h
  next ascii =>
    split at h
    next digit => exact .inl (isAsciiDigit_iff.mp digit)
    next => cases h
  next beyond =>
    rw [Option.isSome_map, Array.find?_isSome] at h
    obtain ⟨r, mem, within⟩ := h
    rw [Bool.and_eq_true, decide_eq_true_iff, decide_eq_true_iff] at within
    exact .inr ⟨by omega, r, Array.mem_toList_iff.mpr mem, within⟩

theorem isCapital_of_isDigit (h : isDigit c = true) : isCapital c = false := by
  rw [Bool.eq_false_iff]
  intro capital
  have := isCapital_iff.mp capital
  rcases isDigit_cases h with ascii | ⟨beyond, -⟩ <;> omega

theorem isSmall_of_isDigit (h : isDigit c = true) : isSmall c = false := by
  rw [Bool.eq_false_iff]
  intro small
  have := isSmall_iff.mp small
  rcases isDigit_cases h with ascii | ⟨beyond, -⟩ <;> omega

theorem isCapital_of_isSmall (h : isSmall c = true) : isCapital c = false := by
  rw [Bool.eq_false_iff]
  intro capital
  have := isCapital_iff.mp capital
  have := isSmall_iff.mp h
  omega

/-- A character that is part of no word. -/
structure Separates (c : Char) : Prop where
  capital : isCapital c = false
  small : isSmall c = false
  digit : isDigit c = false

/-! ## Splitting -/

namespace Begun

/-- The word begun is a word as far as it goes; its characters stand last first. -/
def Sound : Begun → Prop
  | nothing => True
  | capitals run => run ≠ [] ∧ ∀ c ∈ run, isCapital c = true
  | small run => ∃ letters front, run = letters ++ front ∧ letters ≠ [] ∧
      (∀ c ∈ letters, isSmall c = true) ∧ (front = [] ∨ ∃ a, front = [a] ∧ isCapital a = true)
  | digits run => run ≠ [] ∧ ∀ c ∈ run, isDigit c = true

variable {b : Begun}

theorem Sound.finish (h : b.Sound) : ∀ w ∈ b.finish, Word w := by
  intro w mem
  cases b with
  | nothing => cases mem
  | capitals run =>
    obtain rfl := List.mem_singleton.mp mem
    exact .capitals (by simpa using h.1) (by simpa using h.2)
  | digits run =>
    obtain rfl := List.mem_singleton.mp mem
    exact .digits (by simpa using h.1) (by simpa using h.2)
  | small run =>
    obtain rfl := List.mem_singleton.mp mem
    obtain ⟨letters, front, rfl, filled, all, rfl | ⟨a, rfl, capital⟩⟩ := h
    · rw [List.append_nil]
      exact .small (by simpa using filled) (by simpa using all)
    · rw [List.reverse_append, List.reverse_singleton, List.singleton_append]
      exact .capitalised capital (by simpa using filled) (by simpa using all)

/-- One more character ends words only, and begins one. -/
theorem Sound.step (h : b.Sound) (c : Char) : (∀ w ∈ (b.step c).1, Word w) ∧ (b.step c).2.Sound := by
  unfold Begun.step
  by_cases capital : isCapital c = true
  · rw [if_pos capital]
    split
    next run => exact ⟨by simp, by simp, by simpa [capital] using h.2⟩
    next => exact ⟨h.finish, by simp, by simpa using capital⟩
  rw [if_neg capital]
  by_cases small : isSmall c = true
  · rw [if_pos small]
    split
    next run =>
      obtain ⟨letters, front, rfl, -, all, before⟩ := h
      exact ⟨by simp, c :: letters, front, rfl, by simp, by simpa [small] using all, before⟩
    next a => exact ⟨by simp, [c], [a], rfl, by simp, by simpa using small, .inr ⟨a, rfl, h.2 a (by simp)⟩⟩
    next a run long =>
      -- the last capital goes with the small letters, those before it are a word
      have filled : run ≠ [] := long
      have ended : Word run.reverse :=
        .capitals (by simpa using filled) fun d hd => h.2 d (List.mem_cons_of_mem a (List.mem_reverse.mp hd))
      exact ⟨by simpa using ended, [c], [a], rfl, by simp, by simpa using small, .inr ⟨a, rfl, h.2 a (by simp)⟩⟩
    next => exact ⟨h.finish, [c], [], rfl, by simp, by simpa using small, .inl rfl⟩
  rw [if_neg small]
  by_cases digit : isDigit c = true
  · rw [if_pos digit]
    split
    next run => exact ⟨by simp, by simp, by simpa [digit] using h.2⟩
    next => exact ⟨h.finish, by simp, by simpa using digit⟩
  · rw [if_neg digit]
    exact ⟨h.finish, trivial⟩

theorem Sound.wordsFrom {s : List Char} (h : b.Sound) : ∀ w ∈ wordsFrom b s, Word w := by
  induction s generalizing b with
  | nil => exact h.finish
  | cons c s ih =>
    intro w mem
    rw [Text.wordsFrom] at mem
    rcases List.mem_append.mp mem with ended | later
    · exact (h.step c).1 w ended
    · exact ih (h.step c).2 w later

end Begun

/-- What a name is split into are words. -/
theorem word_of_mem_words {s w : String} (h : w ∈ words s) : Word w.toList := by
  obtain ⟨chars, mem, rfl⟩ := List.mem_map.mp h
  rw [String.toList_ofList]
  exact Begun.Sound.wordsFrom (b := .nothing) trivial chars mem

/-! ## Joining -/

/-- A run goes on as long as the characters are of its kind. -/
theorem wordsFrom_run {kind : List Char → Begun} {p : Char → Bool}
    (goes : ∀ run c, p c = true → (kind run).step c = ([], kind (c :: run))) (all : ∀ c ∈ w, p c = true)
    (run rest : List Char) : wordsFrom (kind run) (w ++ rest) = wordsFrom (kind (w.reverse ++ run)) rest := by
  induction w generalizing run with
  | nil => rfl
  | cons c w ih =>
    rw [List.cons_append, wordsFrom, goes run c (all c List.mem_cons_self)]
    show wordsFrom (kind (c :: run)) (w ++ rest) = _
    rw [ih fun d hd => all d (List.mem_cons_of_mem c hd)]
    simp

/-- What begins with a separator, if with anything, ends the word begun. -/
theorem wordsFrom_separated (b : Begun) {rest : List Char} (ends : ∀ c ∈ rest.head?, Separates c) :
    wordsFrom b rest = b.finish ++ wordsFrom .nothing rest := by
  cases rest with
  | nil => simp [wordsFrom, Begun.finish]
  | cons c rest =>
    have separates := ends c rfl
    have ended (b : Begun) : b.step c = (b.finish, .nothing) := by
      simp [Begun.step, separates.capital, separates.small, separates.digit]
    rw [wordsFrom, wordsFrom, ended, ended]
    rfl

/-- A character that begins or continues a word, and those of its kind behind it, end in one word. -/
theorem wordsFrom_kind {kind : List Char → Begun} {p : Char → Bool}
    (goes : ∀ run c, p c = true → (kind run).step c = ([], kind (c :: run)))
    (finishes : ∀ run, (kind run).finish = [run.reverse]) {b : Begun} {front : List Char}
    (begins : b.step c = ([], kind (c :: front))) (all : ∀ d ∈ w, p d = true) {rest : List Char}
    (ends : ∀ d ∈ rest.head?, Separates d) :
    wordsFrom b (c :: w ++ rest) = (front.reverse ++ c :: w) :: wordsFrom .nothing rest := by
  rw [List.cons_append, wordsFrom, begins]
  show wordsFrom (kind (c :: front)) (w ++ rest) = _
  rw [wordsFrom_run goes all, wordsFrom_separated _ ends, finishes]
  simp

/-- A word in front of a separator is read as it is. -/
theorem Word.wordsFrom (h : Word w) {rest : List Char} (ends : ∀ c ∈ rest.head?, Separates c) :
    wordsFrom .nothing (w ++ rest) = w :: wordsFrom .nothing rest := by
  have capitals (run : List Char) (c : Char) (hc : isCapital c = true) :
      (Begun.capitals run).step c = ([], .capitals (c :: run)) := by
    simp [Begun.step, hc]
  have small (run : List Char) (c : Char) (hc : isSmall c = true) :
      (Begun.small run).step c = ([], .small (c :: run)) := by
    simp [Begun.step, isCapital_of_isSmall hc, hc]
  have digits (run : List Char) (c : Char) (hc : isDigit c = true) :
      (Begun.digits run).step c = ([], .digits (c :: run)) := by
    simp [Begun.step, isCapital_of_isDigit hc, isSmall_of_isDigit hc, hc]
  cases h with
  | digits filled all =>
    obtain ⟨c, w, rfl⟩ := List.exists_cons_of_ne_nil filled
    obtain ⟨first, others⟩ := List.forall_mem_cons.mp all
    have begins : Begun.nothing.step c = ([], .digits [c]) := by
      simp [Begun.step, Begun.finish, isCapital_of_isDigit first, isSmall_of_isDigit first, first]
    exact wordsFrom_kind digits (fun _ => rfl) begins others ends
  | capitals filled all =>
    obtain ⟨c, w, rfl⟩ := List.exists_cons_of_ne_nil filled
    obtain ⟨first, others⟩ := List.forall_mem_cons.mp all
    have begins : Begun.nothing.step c = ([], .capitals [c]) := by
      simp [Begun.step, Begun.finish, first]
    exact wordsFrom_kind capitals (fun _ => rfl) begins others ends
  | small filled all =>
    obtain ⟨c, w, rfl⟩ := List.exists_cons_of_ne_nil filled
    obtain ⟨first, others⟩ := List.forall_mem_cons.mp all
    have begins : Begun.nothing.step c = ([], .small [c]) := by
      simp [Begun.step, Begun.finish, isCapital_of_isSmall first, first]
    exact wordsFrom_kind small (fun _ => rfl) begins others ends
  | @capitalised a _ front filled all =>
    obtain ⟨c, w, rfl⟩ := List.exists_cons_of_ne_nil filled
    obtain ⟨first, others⟩ := List.forall_mem_cons.mp all
    have begins : Begun.nothing.step a = ([], .capitals [a]) := by
      simp [Begun.step, Begun.finish, front]
    have goes : (Begun.capitals [a]).step c = ([], .small [c, a]) := by
      simp [Begun.step, isCapital_of_isSmall first, first]
    rw [List.cons_append, Text.wordsFrom, begins]
    exact wordsFrom_kind small (fun _ => rfl) goes others ends

/-- Words that are joined by a separator are found again. -/
theorem words_join {d : Char} (separates : Separates d) {ws : List String} (all : ∀ w ∈ ws, Word w.toList) :
    words (join (String.singleton d) ws) = ws := by
  have chars : wordsFrom .nothing ([d].intercalate (ws.map String.toList)) = ws.map String.toList := by
    induction ws with
    | nil => rfl
    | cons w ws ih =>
      obtain ⟨first, others⟩ := List.forall_mem_cons.mp all
      have behind := ih others
      cases ws with
      | nil =>
        have none : ∀ c ∈ ([] : List Char).head?, Separates c := nofun
        have last := first.wordsFrom none
        rw [List.append_nil] at last
        rw [List.map_singleton, List.intercalate_singleton]
        exact last
      | cons v ws =>
        rw [List.map_cons, List.map_cons, List.intercalate_cons_cons, List.append_assoc,
          List.singleton_append, first.wordsFrom (by simpa using separates), Text.wordsFrom]
        have skips : Begun.nothing.step d = ([], .nothing) := by
          simp [Begun.step, Begun.finish, separates.capital, separates.small, separates.digit]
        rw [skips]
        exact congrArg _ behind
  rw [words, join, String.toList_intercalate, String.toList_singleton, chars, List.map_map]
  simp

/-! ## Forms of words -/

/-- The small form of a character of a word. -/
def smallOf (c : Char) : Char := if isCapital c then Char.ofNat (c.toNat + 32) else c

/-- The capital form of a character of a word. -/
def capitalOf (c : Char) : Char := if isSmall c then Char.ofNat (c.toNat - 32) else c

/-- The first character in its capital form. -/
def capitalFront : List Char → List Char
  | [] => []
  | c :: w => capitalOf c :: w

theorem smallOf_of_capital (h : isCapital c = true) :
    isSmall (smallOf c) = true ∧ capitalOf (smallOf c) = c := by
  have all : ∀ n < 91, 65 ≤ n → isSmall (smallOf (Char.ofNat n)) = true ∧
      capitalOf (smallOf (Char.ofNat n)) = Char.ofNat n := by decide
  have bounds := isCapital_iff.mp h
  have here := all c.toNat (by omega) bounds.1
  rwa [Char.ofNat_toNat] at here

theorem capitalOf_of_small (h : isSmall c = true) :
    isCapital (capitalOf c) = true ∧ smallOf (capitalOf c) = c := by
  have all : ∀ n < 123, 97 ≤ n → isCapital (capitalOf (Char.ofNat n)) = true ∧
      smallOf (capitalOf (Char.ofNat n)) = Char.ofNat n := by decide
  have bounds := isSmall_iff.mp h
  have here := all c.toNat (by omega) bounds.1
  rwa [Char.ofNat_toNat] at here

theorem smallOf_of_not_capital (h : isCapital c = false) : smallOf c = c := by
  simp [smallOf, h]

theorem capitalOf_of_not_small (h : isSmall c = false) : capitalOf c = c := by
  simp [capitalOf, h]

@[simp] theorem smallOf_smallOf (c : Char) : smallOf (smallOf c) = smallOf c := by
  by_cases h : isCapital c = true
  · exact smallOf_of_not_capital (isCapital_of_isSmall (smallOf_of_capital h).1)
  · rw [smallOf_of_not_capital (c := c) (by simpa using h), smallOf_of_not_capital (by simpa using h)]

@[simp] theorem smallOf_capitalOf (c : Char) : smallOf (capitalOf (smallOf c)) = smallOf c := by
  by_cases h : isSmall (smallOf c) = true
  · exact (capitalOf_of_small h).2
  · rw [capitalOf_of_not_small (by simpa using h), smallOf_smallOf]

/-- Whether a range lies before some characters in a row, or behind them. -/
def isApart (r : Nat × Nat) (first last : Nat) : Bool := Nat.blt r.2 first || Nat.blt last r.1

theorem isApart_iff {r : Nat × Nat} {first last : Nat} :
    isApart r first last = true ↔ r.2 < first ∨ last < r.1 := by
  rw [isApart, Bool.or_eq_true, Nat.blt_eq, Nat.blt_eq]

/-- The ranges of digits and the runs of characters with case lie apart. -/
theorem digits_apart :
    ∀ r ∈ digitRanges.toList, (r.2 < 0x130 ∨ 0x130 < r.1) ∧ (r.2 < 0x3a3 ∨ 0x3a3 < r.1) ∧
      (∀ run ∈ lowerRuns.toList, r.2 < run.1 ∨ run.2.1 < r.1) ∧
        (∀ run ∈ upperRuns.toList, r.2 < run.1 ∨ run.2.1 < r.1) ∧
          ∀ e ∈ upperSequences.toList, r.2 < e.1 ∨ e.1 < r.1 := by
  -- there are many comparisons, which are cheapest as truth values
  have all : (digitRanges.toList.all fun r => isApart r 0x130 0x130 && isApart r 0x3a3 0x3a3 &&
      lowerRuns.toList.all (fun run => isApart r run.1 run.2.1) &&
      upperRuns.toList.all (fun run => isApart r run.1 run.2.1) &&
      upperSequences.toList.all fun e => isApart r e.1 e.1) = true := by decide +kernel
  simpa only [List.all_eq_true, Bool.and_eq_true, isApart_iff, and_assoc] using all

theorem mapRun_eq_none {runs : Array (Nat × Nat × Nat × Int)} {r : Nat × Nat} {n : Nat}
    (apart : ∀ run ∈ runs.toList, r.2 < run.1 ∨ run.2.1 < r.1) (within : r.1 ≤ n ∧ n ≤ r.2) :
    mapRun runs n = none := by
  rw [mapRun, Option.map_eq_none_iff, Array.find?_eq_none]
  intro run mem
  have := apart run (Array.mem_toList_iff.mpr mem)
  simp only [Bool.and_eq_true, decide_eq_true_eq, not_and]
  omega

/-- A character of a word has the simple forms. -/
theorem forms_of_mem (h : isCapital c = true ∨ isSmall c = true ∨ isDigit c = true) :
    c.toNat ≠ 0x3a3 ∧ lowerChar c = [smallOf c] ∧ upperChar c = [capitalOf c] := by
  by_cases ascii : c.toNat < 128
  · refine ⟨by omega, ?_, ?_⟩
    · rw [lowerChar, if_pos ascii, smallOf]
    · rw [upperChar, if_pos ascii, capitalOf]
  have digit : isDigit c = true := by
    rcases h with capital | small | digit
    · have := isCapital_iff.mp capital
      omega
    · have := isSmall_iff.mp small
      omega
    · exact digit
  obtain ascii' | ⟨-, r, mem, within⟩ := isDigit_cases digit
  · omega
  obtain ⟨dotted, sigma, lowers, uppers, sequences⟩ := digits_apart r mem
  refine ⟨by omega, ?_, ?_⟩
  · rw [lowerChar, if_neg ascii, if_neg (by simp only [beq_iff_eq]; omega), mapRun_eq_none lowers within,
      smallOf_of_not_capital (isCapital_of_isDigit digit)]
    simp
  · have none : upperSequences.find? (·.1 == c.toNat) = none := by
      rw [Array.find?_eq_none]
      intro e mem
      have := sequences e (Array.mem_toList_iff.mpr mem)
      simp only [beq_iff_eq]
      omega
    rw [upperChar, if_neg ascii, none, mapRun_eq_none uppers within,
      capitalOf_of_not_small (isSmall_of_isDigit digit)]
    simp

theorem Word.kinds (h : Word w) : ∀ c ∈ w, isCapital c = true ∨ isSmall c = true ∨ isDigit c = true := by
  cases h with
  | digits _ all => exact fun c hc => .inr (.inr (all c hc))
  | capitals _ all => exact fun c hc => .inl (all c hc)
  | small _ all => exact fun c hc => .inr (.inl (all c hc))
  | capitalised front _ all => exact List.forall_mem_cons.mpr ⟨.inl front, fun c hc => .inr (.inl (all c hc))⟩

theorem lowerAfter_eq (before : List Char)
    (kinds : ∀ c ∈ w, isCapital c = true ∨ isSmall c = true ∨ isDigit c = true) :
    lowerAfter before w = w.map smallOf := by
  induction w generalizing before with
  | nil => rfl
  | cons c w ih =>
    obtain ⟨first, others⟩ := List.forall_mem_cons.mp kinds
    obtain ⟨plain, small, -⟩ := forms_of_mem first
    rw [lowerAfter, if_neg (by simpa using plain), small, ih _ others]
    rfl

/-- A word is of digits, or its characters have small forms. -/
theorem Word.digits_or_letters (h : Word w) :
    w ≠ [] ∧ ((∀ c ∈ w, isDigit c = true) ∨ ∀ c ∈ w, isSmall (smallOf c) = true) := by
  have small {w : List Char} (all : ∀ c ∈ w, isSmall c = true) : ∀ c ∈ w, isSmall (smallOf c) = true := by
    intro c hc
    rw [smallOf_of_not_capital (isCapital_of_isSmall (all c hc))]
    exact all c hc
  cases h with
  | digits filled all => exact ⟨filled, .inl all⟩
  | capitals filled all => exact ⟨filled, .inr fun c hc => (smallOf_of_capital (all c hc)).1⟩
  | small filled all => exact ⟨filled, .inr (small all)⟩
  | capitalised front filled all =>
    exact ⟨List.cons_ne_nil _ _, .inr (List.forall_mem_cons.mpr ⟨(smallOf_of_capital front).1, small all⟩)⟩

/-- Digits have no other form. -/
theorem map_smallOf_digits (all : ∀ c ∈ w, isDigit c = true) : w.map smallOf = w := by
  rw [List.map_congr_left fun c hc => smallOf_of_not_capital (isCapital_of_isDigit (all c hc))]
  exact List.map_id' w

theorem capitalFront_digits (all : ∀ c ∈ w, isDigit c = true) : capitalFront w = w := by
  cases w with
  | nil => rfl
  | cons c w => rw [capitalFront, capitalOf_of_not_small (isSmall_of_isDigit (all c List.mem_cons_self))]

/-- A word in small letters is a word. -/
theorem Word.small_form (h : Word w) : Word (w.map smallOf) := by
  obtain ⟨filled, digits | letters⟩ := h.digits_or_letters
  · rwa [map_smallOf_digits digits]
  · exact .small (by simpa using filled) (by simpa using letters)

/-- A word in small letters with a capital in front is a word. -/
theorem Word.capital_form (h : Word w) : Word (capitalFront (w.map smallOf)) := by
  obtain ⟨filled, digits | letters⟩ := h.digits_or_letters
  · rwa [map_smallOf_digits digits, capitalFront_digits digits]
  obtain ⟨c, w, rfl⟩ := List.exists_cons_of_ne_nil filled
  obtain ⟨first, others⟩ := List.forall_mem_cons.mp letters
  have front : isCapital (capitalOf (smallOf c)) = true := (capitalOf_of_small first).1
  rw [List.map_cons, capitalFront]
  cases w with
  | nil => exact .capitals (by simp) (by simpa using front)
  | cons d w => exact .capitalised front (by simp) (by simpa using others)

section Strings

variable {w : String}

theorem Word.toList_lower (h : Word w.toList) : (lower w).toList = w.toList.map smallOf := by
  rw [lower, String.toList_ofList, lowerAfter_eq [] h.kinds]

theorem Word.toList_capitalWord (h : Word w.toList) :
    (capitalWord w).toList = capitalFront (w.toList.map smallOf) := by
  rw [capitalWord, upperFirst, h.toList_lower]
  cases chars : w.toList.map smallOf with
  | nil => rfl
  | cons c r =>
    have kind := h.small_form.kinds c (by rw [chars]; exact List.mem_cons_self)
    show (String.ofList (upperChar c ++ r)).toList = _
    rw [String.toList_ofList, (forms_of_mem kind).2.2]
    rfl

theorem Word.of_lower (h : Word w.toList) : Word (lower w).toList := by
  rw [h.toList_lower]
  exact h.small_form

theorem Word.of_capitalWord (h : Word w.toList) : Word (capitalWord w).toList := by
  rw [h.toList_capitalWord]
  exact h.capital_form

/-- Both forms of a word have the same small letters. -/
theorem map_smallOf_capitalFront (s : List Char) :
    (capitalFront (s.map smallOf)).map smallOf = s.map smallOf := by
  cases s with
  | nil => rfl
  | cons c s => simp [capitalFront]

/-- Either form of a word is found from the other one as from the word itself. -/
theorem Word.forms (h : Word w.toList) :
    (lower (lower w) = lower w ∧ lower (capitalWord w) = lower w) ∧
      capitalWord (lower w) = capitalWord w ∧ capitalWord (capitalWord w) = capitalWord w := by
  refine ⟨⟨?_, ?_⟩, ?_, ?_⟩ <;> apply String.toList_inj.mp
  · rw [h.of_lower.toList_lower, h.toList_lower, List.map_map]
    simp [Function.comp_def]
  · rw [h.of_capitalWord.toList_lower, h.toList_capitalWord, h.toList_lower, map_smallOf_capitalFront]
  · rw [h.of_lower.toList_capitalWord, h.toList_lower, h.toList_capitalWord, List.map_map]
    simp [Function.comp_def]
  · rw [h.of_capitalWord.toList_capitalWord, h.toList_capitalWord, map_smallOf_capitalFront]

end Strings

end Scaffold.Text
