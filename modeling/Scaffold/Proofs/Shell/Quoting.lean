import Mathlib
import Scaffold.Shell.Words

/-!
# Quoting and splitting

What is quoted is split into what it was, whatever stands behind it.  Text that stands on a command line
without quotes is one word only if no blank, quote or backslash is in it; splitting drops the first of
these that it meets, so the words of any other text have fewer characters than the text.
-/

namespace Scaffold

namespace Shell

variable {s w rest begun : List Char} {c : Char}

/-- A character that ends a word or changes the way of reading. -/
def isMeta (c : Char) : Bool := endsWord c || c == '\'' || c == '"' || c == '\\'

theorem not_meta_of_isSafe (h : isSafe c = true) : isMeta c = false := by
  by_contra special
  rw [Bool.not_eq_false] at special
  simp only [isMeta, endsWord, Bool.or_eq_true, beq_iff_eq] at special
  rcases special with (((((rfl | rfl) | rfl) | rfl) | rfl) | rfl) | rfl <;> exact absurd h (by decide)

/-! ## One character -/

theorem splitFrom_word_nil (begun : List Char) : splitFrom .word begun [] = .ok [begun.reverse] := rfl

theorem splitFrom_between_cons (begun : List Char) (c : Char) (s : List Char) :
    splitFrom .between begun (c :: s) =
      if endsWord c then splitFrom .between begun s
      else if c == '\'' then splitFrom .single [] s
      else if c == '"' then splitFrom .double [] s
      else if c == '\\' then splitFrom .escape [] s
      else splitFrom .word [c] s := rfl

theorem splitFrom_word_cons (begun : List Char) (c : Char) (s : List Char) :
    splitFrom .word begun (c :: s) =
      if endsWord c then (splitFrom .between [] s).map (begun.reverse :: ·)
      else if c == '\'' then splitFrom .single begun s
      else if c == '"' then splitFrom .double begun s
      else if c == '\\' then splitFrom .escape begun s
      else splitFrom .word (c :: begun) s := rfl

theorem splitFrom_single_cons (begun : List Char) (c : Char) (s : List Char) :
    splitFrom .single begun (c :: s) =
      if c == '\'' then splitFrom .word begun s else splitFrom .single (c :: begun) s := rfl

theorem splitFrom_double_cons (begun : List Char) (c : Char) (s : List Char) :
    splitFrom .double begun (c :: s) =
      if c == '"' then splitFrom .word begun s
      else if c == '\\' then splitFrom .doubleEscape begun s
      else splitFrom .double (c :: begun) s := rfl

/-! ## Quoted words -/

theorem splitFrom_word_plain (h : isMeta c = false) :
    splitFrom .word begun (c :: rest) = splitFrom .word (c :: begun) rest := by
  simp only [isMeta, Bool.or_eq_false_iff] at h
  simp [splitFrom_word_cons, h]

theorem splitFrom_between_plain (h : isMeta c = false) :
    splitFrom .between begun (c :: rest) = splitFrom .word [c] rest := by
  simp only [isMeta, Bool.or_eq_false_iff] at h
  simp [splitFrom_between_cons, h]

/-- Plain characters go into the word. -/
theorem splitFrom_word_append (plain : ∀ c ∈ w, isMeta c = false) (begun rest : List Char) :
    splitFrom .word begun (w ++ rest) = splitFrom .word (w.reverse ++ begun) rest := by
  induction w generalizing begun with
  | nil => rfl
  | cons c w ih =>
    obtain ⟨first, others⟩ := List.forall_mem_cons.mp plain
    rw [List.cons_append, splitFrom_word_plain first, ih others, List.reverse_cons, List.append_assoc,
      List.singleton_append]

theorem splitFrom_plain (some : w ≠ []) (plain : ∀ c ∈ w, isMeta c = false)
    (begun rest : List Char) :
    splitFrom .between begun (w ++ rest) = splitFrom .word w.reverse rest := by
  obtain ⟨c, w, rfl⟩ := List.exists_cons_of_ne_nil some
  obtain ⟨first, others⟩ := List.forall_mem_cons.mp plain
  rw [List.cons_append, splitFrom_between_plain first, splitFrom_word_append others,
    List.reverse_cons]

/-- Between single quotes every character goes into the word; a single quote does so by its own way of
quoting. -/
theorem splitFrom_single (w begun rest : List Char) :
    splitFrom .single begun (w.flatMap (fun c => if c == '\'' then innerQuote else [c]) ++ '\'' :: rest) =
      splitFrom .word (w.reverse ++ begun) rest := by
  induction w generalizing begun with
  | nil => rfl
  | cons c w ih =>
    have next : splitFrom .single begun
        ((if c == '\'' then innerQuote else [c]) ++
          (w.flatMap (fun c => if c == '\'' then innerQuote else [c]) ++ '\'' :: rest)) =
        splitFrom .single (c :: begun)
          (w.flatMap (fun c => if c == '\'' then innerQuote else [c]) ++ '\'' :: rest) := by
      by_cases quote : c = '\''
      · subst quote
        rfl
      · simp [quote, splitFrom_single_cons]
    rw [List.flatMap_cons, List.append_assoc, next, ih, List.reverse_cons, List.append_assoc,
      List.singleton_append]

/-- A quoted word is read as the word. -/
theorem splitFrom_quoteChars (w begun rest : List Char) :
    splitFrom .between begun (quoteChars w ++ rest) = splitFrom .word w.reverse rest := by
  rw [quoteChars]
  split
  next empty =>
    rw [List.isEmpty_iff] at empty
    subst empty
    rfl
  next some =>
    split
    next safe =>
      rw [List.all_eq_true] at safe
      exact splitFrom_plain (by simpa using some) (fun c mem => not_meta_of_isSafe (safe c mem)) _ _
    next =>
      have read := splitFrom_single w [] rest
      rw [List.append_nil] at read
      rw [List.cons_append, List.cons_append, List.append_assoc, List.singleton_append]
      exact read

/-- A blank ends the word. -/
theorem splitFrom_word_blank (begun rest : List Char) :
    splitFrom .word begun (' ' :: rest) = (splitFrom .between [] rest).map (begun.reverse :: ·) := by
  simp [splitFrom_word_cons, endsWord]

/-- Quoted words with blanks between them, and a blank in front of what stands behind. -/
theorem splitFrom_words {ws : List (List Char)} (some : ws ≠ []) (rest : List Char) :
    splitFrom .between [] ([' '].intercalate (ws.map quoteChars) ++ ' ' :: rest) =
      (splitFrom .between [] rest).map (ws ++ ·) := by
  induction ws with
  | nil => exact absurd rfl some
  | cons w ws ih =>
    cases ws with
    | nil =>
      rw [List.map_singleton, List.intercalate_singleton, splitFrom_quoteChars, splitFrom_word_blank,
        List.reverse_reverse]
      rfl
    | cons w' ws =>
      rw [List.map_cons, List.map_cons, List.intercalate_cons_cons, List.append_assoc,
        List.append_assoc, splitFrom_quoteChars, List.singleton_append, splitFrom_word_blank,
        List.reverse_reverse, ← List.map_cons, ih (List.cons_ne_nil _ _)]
      rcases splitFrom .between [] rest with e | found <;> rfl

/-- Quoted words with blanks between them. -/
theorem splitFrom_joined (ws : List (List Char)) :
    splitFrom .between [] ([' '].intercalate (ws.map quoteChars)) = .ok ws := by
  induction ws with
  | nil => rfl
  | cons w ws ih =>
    cases ws with
    | nil =>
      have last := splitFrom_quoteChars w [] []
      rw [List.append_nil] at last
      rw [List.map_singleton, List.intercalate_singleton, last, splitFrom_word_nil, List.reverse_reverse]
    | cons w' ws =>
      rw [List.map_cons, List.map_cons, List.intercalate_cons_cons, List.append_assoc,
        splitFrom_quoteChars, List.singleton_append, splitFrom_word_blank, List.reverse_reverse,
        ← List.map_cons, ih]
      rfl

theorem toList_quoted (args : List String) :
    (Text.join " " (args.map quote)).toList =
      [' '].intercalate ((args.map String.toList).map quoteChars) := by
  have blank : (" ").toList = [' '] := by decide
  rw [Text.join, String.toList_intercalate, blank, List.map_map, List.map_map]
  congr 1
  refine List.map_congr_left fun arg _ => ?_
  simp [quote]

/-- A command line of quoted words is split into the words. -/
theorem split_quoted (args : List String) : split (Text.join " " (args.map quote)) = .ok args := by
  rw [split, toList_quoted, splitFrom_joined]
  simp [Except.map, Function.comp_def]

/-! ## Words without quotes -/

/-- A text that is one word as it stands. -/
structure IsPlain (s : String) : Prop where
  some : s ≠ ""
  plain : ∀ c ∈ s.toList, isMeta c = false

instance (s : String) : Decidable (IsPlain s) :=
  decidable_of_iff (s ≠ "" ∧ s.toList.all (fun c => !isMeta c) = true)
    ⟨fun h => ⟨h.1, by simpa using h.2⟩, fun h => ⟨h.some, by simpa using h.plain⟩⟩

theorem IsPlain.split (s : String) (h : IsPlain s) : Shell.split s = .ok [s] := by
  have some : s.toList ≠ [] := fun none => h.some (String.toList_eq_nil_iff.mp none)
  have read := splitFrom_plain some h.plain [] []
  rw [List.append_nil] at read
  rw [Shell.split, read, splitFrom_word_nil]
  simp [Except.map]

/-- A command line of quoted words with a plain word and some text behind them. -/
theorem split_line {args : List String} (some : args ≠ []) {word : String} (h : IsPlain word)
    (text : String) :
    split (Text.join " " (args.map quote) ++ " " ++ word ++ " " ++ text) =
      (split text).map fun ws => args ++ word :: ws := by
  have wordSome : word.toList ≠ [] := fun none => h.some (String.toList_eq_nil_iff.mp none)
  have chars : (Text.join " " (args.map quote) ++ " " ++ word ++ " " ++ text).toList =
      [' '].intercalate ((args.map String.toList).map quoteChars) ++
        ' ' :: (word.toList ++ ' ' :: text.toList) := by
    have blank : (" ").toList = [' '] := by decide
    simp only [String.toList_append, toList_quoted, blank, List.append_assoc,
      List.cons_append, List.nil_append]
  rw [split, chars, splitFrom_words (by simpa using some), splitFrom_plain wordSome h.plain,
    splitFrom_word_blank, List.reverse_reverse, split]
  rcases splitFrom .between [] text.toList with e | ws
  · rfl
  · simp [Except.map, Function.comp_def]

/-! ## What splitting drops -/

variable {p : Char → Bool} {mode : Mode} {ws : List (List Char)}

/-- How many characters of a kind are under way to the next word; a backslash inside double quotes may
still get there. -/
def underway (p : Char → Bool) (begun : List Char) : Mode → Nat
  | .between => 0
  | .doubleEscape => begun.countP p + (if p '\\' then 1 else 0)
  | _ => begun.countP p

/-- Outside quotes a character that changes the way of reading is dropped. -/
def drops (mode : Mode) (c : Char) : Bool := (mode == .between || mode == .word) && isMeta c

/-- Some words are done, and the others come from `s`; all that goes into them is counted by `n`. -/
def Leaves (p : Char → Bool) (s : List Char) (ws : List (List Char)) (n : Nat) : Prop :=
  ∃ mode begun done ws', splitFrom mode begun s = .ok ws' ∧ ws = done ++ ws' ∧
    (done.map (·.countP p)).sum + underway p begun mode ≤ n

theorem leaves_of_eq {n : Nat} (h : splitFrom mode begun s = .ok ws) (le : underway p begun mode ≤ n) :
    Leaves p s ws n :=
  ⟨mode, begun, [], ws, h, rfl, by simpa using le⟩

/-- One step of splitting drops a special character outside quotes, and adds none. -/
theorem splitFrom_cons (p : Char → Bool) (h : splitFrom mode begun (c :: s) = .ok ws) :
    Leaves p s ws (underway p begun mode + if drops mode c then 0 else if p c then 1 else 0) := by
  have count : (c :: begun).countP p = begun.countP p + if p c then 1 else 0 := List.countP_cons
  cases mode with
  | between =>
    cases here : isMeta c with
    | true =>
      rw [splitFrom_between_cons] at h
      -- all ways of reading on begin with nothing
      repeat' split at h
      · exact leaves_of_eq h (Nat.zero_le _)
      · exact leaves_of_eq h (Nat.zero_le _)
      · exact leaves_of_eq h (Nat.zero_le _)
      · exact leaves_of_eq h (Nat.zero_le _)
      · simp_all [isMeta]
    | false =>
      rw [splitFrom_between_plain here] at h
      refine leaves_of_eq h ?_
      simp [underway, drops, here, List.countP_cons]
  | word =>
    cases here : isMeta c with
    | true =>
      rw [splitFrom_word_cons] at h
      split at h
      next =>
        rcases read : splitFrom .between [] s with e | found
        · rw [read] at h
          cases h
        · rw [read] at h
          obtain rfl := Except.ok.inj h
          exact ⟨.between, [], [begun.reverse], found, read, rfl, by simp [underway]⟩
      next =>
        repeat' split at h
        · exact leaves_of_eq h (Nat.le_add_right _ _)
        · exact leaves_of_eq h (Nat.le_add_right _ _)
        · exact leaves_of_eq h (Nat.le_add_right _ _)
        · simp_all [isMeta]
    | false =>
      rw [splitFrom_word_plain here] at h
      refine leaves_of_eq h ?_
      simp [underway, drops, here, List.countP_cons]
  | single =>
    rw [splitFrom_single_cons] at h
    split at h
    · exact leaves_of_eq h (Nat.le_add_right _ _)
    · exact leaves_of_eq h count.le
  | double =>
    rw [splitFrom_double_cons] at h
    split at h
    · exact leaves_of_eq h (Nat.le_add_right _ _)
    next =>
      split at h
      next backslash =>
        obtain rfl := beq_iff_eq.mp backslash
        exact leaves_of_eq h (Nat.le_refl _)
      next => exact leaves_of_eq h count.le
  | escape => exact leaves_of_eq h count.le
  | doubleEscape =>
    refine leaves_of_eq h ?_
    have kept : drops .doubleEscape c = false := rfl
    rw [kept, if_neg Bool.false_ne_true, underway]
    split
    next =>
      change (c :: begun).countP p ≤ _
      omega
    next =>
      change (c :: '\\' :: begun).countP p ≤ _
      rw [List.countP_cons, List.countP_cons]

/-- Splitting adds no characters. -/
theorem splitFrom_countP_le (p : Char → Bool) (h : splitFrom mode begun s = .ok ws) :
    (ws.map (·.countP p)).sum ≤ underway p begun mode + s.countP p := by
  induction s generalizing mode begun ws with
  | nil =>
    cases mode with
    | between =>
      obtain rfl := Except.ok.inj h
      simp
    | word =>
      obtain rfl := Except.ok.inj h
      simp [underway]
    | single | double | escape | doubleEscape => cases h
  | cons c s ih =>
    obtain ⟨mode', begun', done, ws', next, rfl, le⟩ := splitFrom_cons p h
    have rest := ih next
    rw [List.map_append, List.sum_append, List.countP_cons]
    split at le <;> omega

/-- Splitting drops the first special character that it meets. -/
theorem splitFrom_countP_lt (counted : ∀ c, isMeta c = true → p c = true)
    (outside : mode = .between ∨ mode = .word) (h : splitFrom mode begun s = .ok ws)
    (special : ∃ c ∈ s, isMeta c = true) :
    (ws.map (·.countP p)).sum < underway p begun mode + s.countP p := by
  induction s generalizing mode begun ws with
  | nil =>
    obtain ⟨c, mem, -⟩ := special
    exact absurd mem List.not_mem_nil
  | cons c s ih =>
    cases here : isMeta c with
    | true =>
      obtain ⟨mode', begun', done, ws', next, rfl, le⟩ := splitFrom_cons p h
      have drop : drops mode c = true := by
        rcases outside with rfl | rfl <;> simpa [drops] using here
      have rest := splitFrom_countP_le p next
      rw [drop, if_pos rfl] at le
      rw [List.map_append, List.sum_append, List.countP_cons, if_pos (counted c here)]
      omega
    | false =>
      obtain ⟨d, mem, special⟩ := special
      have later : ∃ c ∈ s, isMeta c = true := by
        rcases List.mem_cons.mp mem with rfl | mem
        · rw [here] at special
          cases special
        · exact ⟨d, mem, special⟩
      rw [List.countP_cons]
      rcases outside with rfl | rfl
      · rw [splitFrom_between_plain here] at h
        have rest := ih (.inr rfl) h later
        simp only [underway, List.countP_singleton] at rest ⊢
        omega
      · rw [splitFrom_word_plain here] at h
        have rest := ih (.inr rfl) h later
        simp only [underway, List.countP_cons] at rest ⊢
        omega

/-- Of a text that is not one plain word each of the words has fewer characters, blanks, quotes and
backslashes being counted. -/
theorem split_countP_lt {text word : String} {words : List String}
    (counted : ∀ c, isMeta c = true → p c = true) (h : split text = .ok words)
    (mem : word ∈ words) (notPlain : ¬IsPlain text) :
    word.toList.countP p < text.toList.countP p := by
  rw [split] at h
  rcases read : splitFrom .between [] text.toList with e | ws
  · rw [read] at h
    cases h
  · rw [read] at h
    obtain rfl := Except.ok.inj h
    obtain ⟨w, among, rfl⟩ := List.mem_map.mp mem
    have special : ∃ c ∈ text.toList, isMeta c = true := by
      by_contra none
      have plain : ∀ c ∈ text.toList, isMeta c = false := fun c mem => by
        by_contra special
        exact none ⟨c, mem, by simpa using special⟩
      refine notPlain ⟨?_, plain⟩
      rintro rfl
      obtain rfl := Except.ok.inj read
      exact absurd among List.not_mem_nil
    have fewer := splitFrom_countP_lt counted (.inl rfl) read special
    have part := List.le_sum_of_mem (List.mem_map_of_mem (f := (·.countP p)) among)
    rw [String.toList_ofList]
    simp only [underway] at fewer
    omega

end Shell

end Scaffold
