import Mathlib.Data.List.Basic
import Mathlib.Data.List.TakeWhile
import Scaffold.Text.Blank
import Scaffold.Text.Search

/-!
# Runs, words and commas

A run of characters of one kind ends where something else follows.  So what a text begins with is fixed by the
kind alone: two ways to cut it behind a run of the kind are the same.

The parts of a text are its words, which blanks and commas end, and its commas.  What stands between them is
forgotten, so that two ways to read one text are told apart by the parts that they find in it.  Where a text is cut
at the end of a word, its parts are those of the two pieces.
-/

namespace Scaffold.Text

/-! ## Runs -/

variable {p : Char → Bool} {s t u v : List Char} {c : Char}

/-- A text that begins with another kind of character, if with any. -/
def Stops (p : Char → Bool) (s : List Char) : Prop := ∀ c ∈ s.head?, p c = false

theorem stops_nil (p : Char → Bool) : Stops p [] := nofun

theorem stops_cons : Stops p (c :: s) ↔ p c = false := by
  simp [Stops]

/-- A text that is not empty and of another kind stops a run, whatever follows it. -/
theorem stops_of_filled (filled : s ≠ []) (all : ∀ c ∈ s, p c = false) : Stops p (s ++ t) := by
  obtain ⟨c, r, rfl⟩ := List.exists_cons_of_ne_nil filled
  exact stops_cons.mpr (all c List.mem_cons_self)

/-- A text of another kind stops a run if what follows it does. -/
theorem Stops.append (all : ∀ c ∈ s, p c = false) (stops : Stops p t) : Stops p (s ++ t) := by
  cases s with
  | nil => exact stops
  | cons c s => exact stops_cons.mpr (all c List.mem_cons_self)

/-- What stops a run begins with what stops it, if with anything. -/
theorem Stops.of_append (stops : Stops p (s ++ t)) : Stops p s := by
  intro c hc
  apply stops
  rw [List.head?_append, show s.head? = some c from hc]
  rfl

theorem takeWhile_append_stops (all : ∀ c ∈ s, p c = true) (stops : Stops p t) : (s ++ t).takeWhile p = s := by
  rw [List.takeWhile_append_of_pos all]
  cases t with
  | nil => simp
  | cons c t => rw [List.takeWhile_cons_of_neg (by simp [stops_cons.mp stops]), List.append_nil]

theorem dropWhile_append_stops (all : ∀ c ∈ s, p c = true) (stops : Stops p t) : (s ++ t).dropWhile p = t := by
  rw [List.dropWhile_append_of_pos all]
  cases t with
  | nil => rfl
  | cons c t => rw [List.dropWhile_cons_of_neg (by simp [stops_cons.mp stops])]

/-- A text is cut behind a run in one way only. -/
theorem span_unique (same : s ++ u = t ++ v) (hs : ∀ c ∈ s, p c = true) (hu : Stops p u)
    (ht : ∀ c ∈ t, p c = true) (hv : Stops p v) : s = t ∧ u = v := by
  constructor
  · rw [← takeWhile_append_stops hs hu, same, takeWhile_append_stops ht hv]
  · rw [← dropWhile_append_stops hs hu, same, dropWhile_append_stops ht hv]

/-! ## Parts -/

/-- A character of a word. -/
def isInk (c : Char) : Bool := !isBlank c && c != ','

/-- The words and the commas of a text. -/
def parts : List Char → List (List Char)
  | [] => []
  | c :: s =>
    if isBlank c then parts s
    else if c = ',' then [','] :: parts s
    else if s.head?.any isInk then (c :: (parts s).headD []) :: (parts s).tail
    else [c] :: parts s

variable {w : List Char}

theorem isInk_of_isBlank (h : isBlank c = true) : isInk c = false := by
  simp [isInk, h]

theorem isBlank_of_isInk (h : isInk c = true) : isBlank c = false := by
  rw [isInk, Bool.and_eq_true, Bool.not_eq_true'] at h
  exact h.1

theorem stops_ink_iff : Stops isInk s ↔ s.head?.any isInk = false := by
  cases s with
  | nil => simp [Stops]
  | cons c s => simp [Stops]

theorem parts_cons_blank (blank : isBlank c = true) : parts (c :: s) = parts s := by
  rw [parts, if_pos blank]

theorem parts_comma (s : List Char) : parts (',' :: s) = [','] :: parts s := by
  rw [parts, if_neg (by decide), if_pos rfl]

theorem parts_cons_ink (ink : isInk c = true) :
    parts (c :: s) =
      if s.head?.any isInk then (c :: (parts s).headD []) :: (parts s).tail else [c] :: parts s := by
  have other : c ≠ ',' := by
    rintro rfl
    cases (show isInk ',' = false by decide).symm.trans ink
  rw [parts, if_neg (by simp [isBlank_of_isInk ink]), if_neg other]

/-- A character is a blank, a comma, or part of a word. -/
theorem blank_or_comma_or_ink (c : Char) : isBlank c = true ∨ c = ',' ∨ isInk c = true := by
  by_cases blank : isBlank c = true
  · exact .inl blank
  · by_cases comma : c = ','
    · exact .inr (.inl comma)
    · exact .inr (.inr (by simp [isInk, blank, comma]))

/-- Blanks in front are no part. -/
theorem parts_blanks (blank : ∀ c ∈ w, isBlank c = true) (s : List Char) : parts (w ++ s) = parts s := by
  induction w with
  | nil => rfl
  | cons c w ih =>
    obtain ⟨first, others⟩ := List.forall_mem_cons.mp blank
    rw [List.cons_append, parts_cons_blank first, ih others]

theorem parts_of_blank (blank : ∀ c ∈ w, isBlank c = true) : parts w = [] := by
  have := parts_blanks blank []
  rwa [List.append_nil] at this

/-- A word is the first part of a text that begins with it. -/
theorem parts_word (filled : w ≠ []) (ink : ∀ c ∈ w, isInk c = true) (stops : Stops isInk s) :
    parts (w ++ s) = w :: parts s := by
  induction w with
  | nil => exact absurd rfl filled
  | cons c w ih =>
    obtain ⟨first, others⟩ := List.forall_mem_cons.mp ink
    rw [List.cons_append, parts_cons_ink first]
    cases w with
    | nil => rw [List.nil_append, stops_ink_iff.mp stops, if_neg Bool.false_ne_true]
    | cons d w =>
      rw [ih (List.cons_ne_nil d w) others, if_pos]
      · rfl
      · simp [others d List.mem_cons_self]

/-- A text that begins with a word has a part. -/
theorem parts_ne_nil (h : s.head?.any isInk = true) : parts s ≠ [] := by
  cases s with
  | nil => cases h
  | cons c s =>
    rw [parts_cons_ink (by simpa using h)]
    split
    · exact List.cons_ne_nil _ _
    · exact List.cons_ne_nil _ _

theorem parts_eq_nil_iff : parts s = [] ↔ ∀ c ∈ s, isBlank c = true := by
  constructor
  · intro none
    induction s with
    | nil => simp
    | cons c s ih =>
      rcases blank_or_comma_or_ink c with blank | rfl | ink
      · rw [parts_cons_blank blank] at none
        exact List.forall_mem_cons.mpr ⟨blank, ih none⟩
      · rw [parts_comma] at none
        cases none
      · exact absurd none (parts_ne_nil (by simp [ink]))
  · exact parts_of_blank

/-- The parts of two pieces, where no word goes on from the first to the second.  By induction on the first
piece. -/
theorem parts_append (apart : (∀ c ∈ s.getLast?, isInk c = false) ∨ Stops isInk t) :
    parts (s ++ t) = parts s ++ parts t := by
  induction s with
  | nil => rfl
  | cons c s ih =>
    have rest : (∀ c ∈ s.getLast?, isInk c = false) ∨ Stops isInk t := by
      refine apart.imp_left fun last => ?_
      cases s with
      | nil => nofun
      | cons d s => rwa [List.getLast?_cons_cons] at last
    rw [List.cons_append]
    rcases blank_or_comma_or_ink c with blank | rfl | ink
    · rw [parts_cons_blank blank, parts_cons_blank blank, ih rest]
    · rw [parts_comma, parts_comma, ih rest, List.cons_append]
    · rw [parts_cons_ink ink, parts_cons_ink ink, ih rest]
      cases s with
      | nil =>
        -- the word is a single character, which ends the first piece
        have stops : Stops isInk t := apart.resolve_left fun last => by
          cases (last c rfl).symm.trans ink
        rw [List.nil_append, stops_ink_iff.mp stops]
        rfl
      | cons d s =>
        rw [List.cons_append, List.head?_cons, List.head?_cons]
        split
        next goes =>
          obtain ⟨p, ps, some⟩ := List.exists_cons_of_ne_nil (parts_ne_nil (s := d :: s) goes)
          rw [some]
          rfl
        next => rfl

/-- What ends in a blank ends in no word. -/
theorem parts_append_of_blank (last : ∀ c ∈ s.getLast?, isBlank c = true) (t : List Char) :
    parts (s ++ t) = parts s ++ parts t :=
  parts_append (.inl fun c hc => isInk_of_isBlank (last c hc))

/-- A text that ends in a word has more parts than what it begins with in front of a blank. -/
theorem length_parts_lt (start : s <+: t) (last : ∀ c ∈ s.getLast?, isBlank c = true)
    (ends : ∃ c ∈ t.getLast?, isInk c = true) : (parts s).length < (parts t).length := by
  obtain ⟨rest, rfl⟩ := start
  obtain ⟨c, hc, ink⟩ := ends
  rw [parts_append_of_blank last, List.length_append]
  have some : parts rest ≠ [] := by
    intro none
    -- the last character would be a blank, whether it stands in the rest or in front of it
    rw [List.getLast?_append, Option.mem_def, Option.or_eq_some_iff] at hc
    have blank : isBlank c = true := by
      rcases hc with here | ⟨-, front⟩
      · exact parts_eq_nil_iff.mp none c (List.mem_of_mem_getLast? here)
      · exact last c front
    rw [isBlank_of_isInk ink] at blank
    cases blank
  have := List.length_pos_iff.mpr some
  omega

/-- Where there is one word, it stands between blanks. -/
theorem eq_of_parts_eq_singleton (h : parts s = [w]) : ∃ front behind, s = front ++ (w ++ behind) ∧
    (∀ c ∈ front, isBlank c = true) ∧ (∀ c ∈ behind, isBlank c = true) := by
  induction s generalizing w with
  | nil => cases h
  | cons c s ih =>
    rcases blank_or_comma_or_ink c with blank | rfl | ink
    · rw [parts_cons_blank blank] at h
      obtain ⟨front, behind, rfl, before, after⟩ := ih h
      exact ⟨c :: front, behind, rfl, List.forall_mem_cons.mpr ⟨blank, before⟩, after⟩
    · rw [parts_comma, List.cons.injEq] at h
      obtain ⟨rfl, none⟩ := h
      exact ⟨[], s, rfl, by simp, parts_eq_nil_iff.mp none⟩
    · rw [parts_cons_ink ink] at h
      split at h
      next goes =>
        obtain ⟨p, ps, some⟩ := List.exists_cons_of_ne_nil (parts_ne_nil goes)
        rw [some] at h
        obtain ⟨rfl, rfl⟩ : c :: p = w ∧ ps = [] := by simpa using h
        obtain ⟨front, behind, rfl, before, after⟩ := ih some
        cases front with
        | nil => exact ⟨[], behind, rfl, by simp, after⟩
        | cons d front =>
          have ink' : isInk d = true := by simpa using goes
          cases (isBlank_of_isInk ink').symm.trans (before d List.mem_cons_self)
      next =>
        obtain ⟨rfl, none⟩ := List.cons.inj h
        exact ⟨[], s, rfl, by simp, parts_eq_nil_iff.mp none⟩

/-! ## Trimming and cutting -/

theorem dropBack_append {p : Char → Bool} (dropped : ∀ c ∈ t, p c = true) (s : List Char) :
    dropBack p (s ++ t) = dropBack p s := by
  have dropped' : ∀ c ∈ t.reverse, p c = true := fun c hc => dropped c (List.mem_reverse.mp hc)
  rw [dropBack, List.reverse_append, List.dropWhile_append_of_pos dropped', dropBack]

/-- Blanks around a text are trimmed with those at its ends. -/
theorem trimChars_blanks {front behind : List Char} (before : ∀ c ∈ front, isBlank c = true)
    (after : ∀ c ∈ behind, isBlank c = true) (s : List Char) :
    trimChars (front ++ (s ++ behind)) = trimChars s := by
  rw [trimChars, trimLeft, List.dropWhile_append_of_pos before, List.dropWhile_append]
  split
  next none =>
    have all : behind.dropWhile isBlank = [] := List.dropWhile_eq_nil_iff.mpr after
    rw [all, trimChars, trimLeft, List.isEmpty_iff.mp none]
  next => exact dropBack_append after _

theorem trimChars_of_ends (first : ∀ c ∈ s.head?, isBlank c = false) (last : ∀ c ∈ s.getLast?, isBlank c = false) :
    trimChars s = s := by
  have left : trimLeft s = s := by
    cases s with
    | nil => rfl
    | cons c s => exact List.dropWhile_cons_of_neg (by simp [first c rfl])
  rw [trimChars, left]
  rcases List.eq_nil_or_concat' s with rfl | ⟨front, d, rfl⟩
  · rfl
  · exact dropBack_concat_of_neg (last d (by simp)) front

/-- A text is cut where another one stands in it. -/
theorem cutAt?_isSome {p : List Char} (h : p <:+: s) : (cutAt? p s).isSome = true := by
  obtain ⟨front, behind, rfl⟩ := h
  induction front with
  | nil =>
    rw [List.nil_append]
    cases chars : p ++ behind with
    | nil =>
      obtain ⟨rfl, -⟩ := List.append_eq_nil_iff.mp chars
      rfl
    | cons c t => rw [cutAt?, afterStart?_eq_some.mpr chars.symm, Option.isSome_some]
  | cons c front ih =>
    rw [List.cons_append, List.cons_append, cutAt?]
    split
    · rfl
    · rwa [Option.isSome_map]

end Scaffold.Text
