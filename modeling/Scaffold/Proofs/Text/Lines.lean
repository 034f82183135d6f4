import Mathlib.Data.List.Basic
import Scaffold.Text.Blank
import Scaffold.Text.Search

/-!
# The lines of a text

A text is cut at every occurrence of a line ending, and put together from the pieces again.  A line
ending here is a text with a line feed at its end and nowhere else.  No part of it is both its
beginning and its end, so occurrences do not overlap, and none comes about where lines meet: what is
put together from lines is cut into the same lines.

So a text is a line, or a line with its ending and another text behind it, and what is said of lines
is proved by induction along them.  A place in a text is on one line: as many endings stand before it
as there are lines in front of this one.

Where every line break has become a line feed, this was done piece by piece.
-/

namespace Scaffold.Text

/-! ## Pieces of a text -/

variable {p q s : List Char}

theorem joinChars_cons (a : List Char) {parts : List (List Char)} (some : parts ≠ []) :
    joinChars q (a :: parts) = a ++ q ++ joinChars q parts := by
  cases parts with
  | nil => contradiction
  | cons b rest => rfl

theorem joinChars_eq {parts : List (List Char)} (some : parts ≠ []) :
    joinChars q parts = parts.dropLast.flatMap (· ++ q) ++ parts.getLastD [] := by
  induction parts with
  | nil => contradiction
  | cons a parts ih =>
    cases parts with
    | nil => simp [joinChars]
    | cons b rest =>
      rw [joinChars_cons a (List.cons_ne_nil b rest), ih (List.cons_ne_nil b rest)]
      simp

/-- A character of a text that was put together stands in a piece or between two of them. -/
theorem mem_joinChars {c : Char} {parts : List (List Char)} (mem : c ∈ joinChars q parts) :
    c ∈ q ∨ ∃ a ∈ parts, c ∈ a := by
  induction parts with
  | nil => cases mem
  | cons a parts ih =>
    cases parts with
    | nil => exact .inr ⟨a, List.mem_cons_self, mem⟩
    | cons b rest =>
      rw [joinChars_cons a (List.cons_ne_nil b rest), List.append_assoc] at mem
      rcases List.mem_append.mp mem with here | mem
      · exact .inr ⟨a, List.mem_cons_self, here⟩
      rcases List.mem_append.mp mem with between | mem
      · exact .inl between
      · refine (ih mem).imp_right ?_
        rintro ⟨d, hd, within⟩
        exact ⟨d, List.mem_cons_of_mem a hd, within⟩

theorem piecesAux_ne_nil (skip : Nat) (piece s : List Char) : piecesAux p skip piece s ≠ [] := by
  induction s generalizing skip piece with
  | nil => simp [piecesAux]
  | cons c s ih =>
    cases skip with
    | zero =>
      rw [piecesAux]
      split
      · exact ih _ _
      · simp
    | succ skip => exact ih _ _

theorem splitAll_ne_nil (p s : List Char) : splitAll p s ≠ [] := piecesAux_ne_nil 0 [] s

/-- The pieces of a text, put together again, are the text. -/
theorem joinChars_splitAll (s : List Char) : joinChars p (splitAll p s) = s := by
  have from_here (skip : Nat) (piece : List Char) :
      joinChars p (piecesAux p skip piece s) = piece.reverse ++ s.drop skip := by
    induction s generalizing skip piece with
    | nil => simp [piecesAux, joinChars]
    | cons c s ih =>
      cases skip with
      | succ skip => simpa [piecesAux] using ih skip piece
      | zero =>
        rw [piecesAux]
        split
        next => simpa using ih 0 (c :: piece)
        next found =>
          rw [joinChars_cons _ (piecesAux_ne_nil _ _ _), ih]
          simp only [Bool.or_eq_true, not_or, Bool.not_eq_true, Option.isNone_eq_false_iff,
            Option.isSome_iff_exists] at found
          obtain ⟨some, rest, starts⟩ := found
          have whole : c :: s = p ++ rest := afterStart?_eq_some.mp starts
          cases p with
          | nil => cases some
          | cons d p =>
            obtain ⟨rfl, rfl⟩ := List.cons.inj whole
            simp
  exact from_here 0 []

/-- One character replaced by a text everywhere. -/
theorem replaceChars_singleton (c : Char) (q s : List Char) :
    replaceChars [c] q s = s.flatMap fun d => if d = c then q else [d] := by
  have from_here (piece : List Char) : joinChars q (piecesAux [c] 0 piece s) =
      piece.reverse ++ s.flatMap fun d => if d = c then q else [d] := by
    induction s generalizing piece with
    | nil => simp [piecesAux, joinChars]
    | cons d s ih =>
      by_cases same : d = c
      · subst same
        have split : piecesAux [d] 0 piece (d :: s) = piece.reverse :: piecesAux [d] 0 [] s := by
          simp [piecesAux, afterStart?]
        rw [split, joinChars_cons _ (piecesAux_ne_nil _ _ _), ih]
        simp
      · have on : piecesAux [c] 0 piece (d :: s) = piecesAux [c] 0 (d :: piece) s := by
          simp [piecesAux, afterStart?, Ne.symm same]
        rw [on, ih]
        simp [same]
  exact from_here []

/-- What is put together from two runs of pieces. -/
theorem joinChars_append (first : List (List Char)) {parts : List (List Char)} (some : parts ≠ []) :
    joinChars q (first ++ parts) = first.flatMap (· ++ q) ++ joinChars q parts := by
  induction first with
  | nil => rfl
  | cons a first ih =>
    have more : first ++ parts ≠ [] := List.append_ne_nil_of_right_ne_nil first some
    rw [List.cons_append, joinChars_cons a more, ih, List.flatMap_cons,
      List.append_assoc _ _ (joinChars q parts)]

/-- Pieces with one behind each of them are put together, and one more is behind them all. -/
theorem flatMap_eq {parts : List (List Char)} (some : parts ≠ []) :
    parts.flatMap (· ++ q) = joinChars q parts ++ q := by
  induction parts with
  | nil => contradiction
  | cons a parts ih =>
    cases parts with
    | nil => simp [joinChars]
    | cons b rest =>
      have more : b :: rest ≠ [] := List.cons_ne_nil b rest
      rw [List.flatMap_cons, ih more, joinChars_cons a more, List.append_assoc _ _ q]

/-! ## Line endings and lines -/

/-- A text that ends lines: a line feed stands at its end and nowhere else in it. -/
def IsBreak (eol : List Char) : Prop := ∃ front, eol = front ++ ['\n'] ∧ '\n' ∉ front

/-- A text in which no line ends. -/
def IsLine (eol x : List Char) : Prop := ¬ eol <:+: x

section Lines

variable {eol x y : List Char} (h : IsBreak eol)

include h

theorem IsBreak.feed_mem : '\n' ∈ eol := by
  obtain ⟨front, rfl, -⟩ := h
  simp

theorem IsBreak.ne_nil : eol ≠ [] := List.ne_nil_of_mem h.feed_mem

/-- No line feed stands in front of the last character of a line ending. -/
theorem IsBreak.feed_not_mem (start : y <+: eol) (short : y.length < eol.length) : '\n' ∉ y := by
  obtain ⟨front, rfl, free⟩ := h
  have within : y <+: front := by
    refine List.prefix_of_prefix_length_le start (List.prefix_append front _) ?_
    simp only [List.length_append, List.length_singleton] at short
    omega
  exact fun mem => free (within.subset mem)

theorem isLine_of_not_mem (free : '\n' ∉ x) : IsLine eol x :=
  fun occurs => free (occurs.subset h.feed_mem)

theorem isLine_nil : IsLine eol [] := isLine_of_not_mem h List.not_mem_nil

/-- No line ends before the ending of a line is complete. -/
theorem IsLine.of_prefix (line : IsLine eol x) (start : y <+: x ++ eol)
    (short : y.length < (x ++ eol).length) : IsLine eol y := by
  rintro ⟨a, b, rfl⟩
  obtain ⟨front, rfl, free⟩ := h
  -- the ending would stand in `x` and in what is in front of the line feed
  have within : a ++ (front ++ ['\n']) ++ b <+: x ++ front := by
    refine List.prefix_of_prefix_length_le start ⟨['\n'], by simp⟩ ?_
    simp only [List.length_append, List.length_singleton] at short ⊢
    omega
  obtain ⟨rest, within⟩ := within
  rw [List.append_assoc _ b] at within
  rcases List.append_eq_append_iff.mp within with ⟨w, rfl, -⟩ | ⟨w, ends, starts⟩
  · exact line ⟨a, w, rfl⟩
  · rcases List.eq_nil_or_concat' w with rfl | ⟨w, c, rfl⟩
    · rw [List.append_nil] at ends
      exact line ⟨a, [], by rw [List.append_nil, ends]⟩
    · have last : c = '\n' := by
        have lasts := congrArg List.getLast? ends
        simpa using lasts.symm
      rw [starts, last] at free
      simp at free

omit h

/-! ## Cutting -/

theorem piecesAux_skip (passed : List Char) (piece s : List Char) :
    piecesAux p passed.length piece (passed ++ s) = piecesAux p 0 piece s := by
  induction passed with
  | nil => rfl
  | cons c passed ih => exact ih

/-- Where no ending begins the cut goes on. -/
theorem piecesAux_cons {c : Char} (piece s : List Char) (none : ¬ eol <+: c :: s) :
    piecesAux eol 0 piece (c :: s) = piecesAux eol 0 (c :: piece) s := by
  have starts : afterStart? eol (c :: s) = .none := by
    cases found : afterStart? eol (c :: s) with
    | none => rfl
    | some rest => exact absurd ⟨rest, (afterStart?_eq_some.mp found).symm⟩ none
  rw [piecesAux, starts]
  simp

theorem length_piecesAux (skip : Nat) (piece s : List Char) :
    (piecesAux p skip piece s).length = (piecesAux p skip [] s).length := by
  induction s generalizing skip piece with
  | nil => simp [piecesAux]
  | cons c s ih =>
    cases skip with
    | succ skip => exact ih skip piece
    | zero =>
      rw [piecesAux, piecesAux]
      split
      · rw [ih 0 (c :: piece), ih 0 [c]]
      · rfl

/-- Where no ending begins there is none to count. -/
theorem count_cons {c : Char} {s : List Char} (none : ¬ eol <+: c :: s) :
    count eol (c :: s) = count eol s := by
  rw [count, splitAll, piecesAux_cons [] s none, length_piecesAux]
  rfl

/-- A line is not cut. -/
theorem splitAll_line (line : IsLine eol x) : splitAll eol x = [x] := by
  have from_here (piece : List Char) : piecesAux eol 0 piece x = [piece.reverse ++ x] := by
    induction x generalizing piece with
    | nil => simp [piecesAux]
    | cons c x ih =>
      have rest : IsLine eol x := fun occurs => line (occurs.trans (List.suffix_cons c x).isInfix)
      rw [piecesAux_cons piece x fun starts => line starts.isInfix, ih rest]
      simp
  exact from_here []

include h in
/-- A text is cut behind its first line. -/
theorem splitAll_line_append (line : IsLine eol x) (s : List Char) :
    splitAll eol (x ++ eol ++ s) = x :: splitAll eol s := by
  have from_here (piece : List Char) :
      piecesAux eol 0 piece (x ++ eol ++ s) = (piece.reverse ++ x) :: splitAll eol s := by
    induction x generalizing piece with
    | nil =>
      obtain ⟨c, rest, rfl⟩ := List.exists_cons_of_ne_nil h.ne_nil
      have starts : afterStart? (c :: rest) (c :: (rest ++ s)) = some s :=
        afterStart?_eq_some.mpr rfl
      rw [List.nil_append, List.cons_append, piecesAux, starts]
      simp only [List.isEmpty_cons, Option.isNone_some, Bool.or_self, Bool.false_eq_true, if_false,
        List.append_nil]
      exact congrArg _ (piecesAux_skip rest [] s)
    | cons c x ih =>
      have rest : IsLine eol x := fun occurs => line (occurs.trans (List.suffix_cons c x).isInfix)
      have none : ¬ eol <+: c :: (x ++ eol ++ s) := fun starts => by
        have short : eol.length < (c :: x ++ eol).length := by
          simp only [List.cons_append, List.length_cons, List.length_append]
          omega
        have within : eol <+: c :: x ++ eol :=
          List.prefix_of_prefix_length_le starts ⟨s, by simp⟩ (Nat.le_of_lt short)
        exact line.of_prefix h within short List.infix_rfl
      rw [List.cons_append, List.cons_append, piecesAux_cons piece _ none, ih rest]
      simp
  exact from_here []

include h in
/-- A text in which a line ends begins with a line and its ending. -/
theorem exists_line_append {s : List Char} (ends : eol <:+: s) :
    ∃ x rest, IsLine eol x ∧ s = x ++ eol ++ rest := by
  induction s with
  | nil =>
    obtain rfl := List.infix_nil.mp ends
    exact absurd h.feed_mem List.not_mem_nil
  | cons c s ih =>
    rcases List.infix_cons_iff.mp ends with ⟨rest, starts⟩ | behind
    · exact ⟨[], rest, isLine_nil h, by rw [List.nil_append, starts]⟩
    by_cases starts : eol <+: c :: s
    · obtain ⟨rest, starts⟩ := starts
      exact ⟨[], rest, isLine_nil h, by rw [List.nil_append, starts]⟩
    · obtain ⟨x, rest, line, rfl⟩ := ih behind
      refine ⟨c :: x, rest, fun occurs => ?_, rfl⟩
      rcases List.infix_cons_iff.mp occurs with first | within
      · exact starts (first.trans ⟨eol ++ rest, by simp⟩)
      · exact line within

include h in
/-- Induction along the lines of a text. -/
theorem line_induction {motive : List Char → Prop} (last : ∀ x, IsLine eol x → motive x)
    (more : ∀ x s, IsLine eol x → motive s → motive (x ++ eol ++ s)) (s : List Char) : motive s := by
  by_cases ends : eol <:+: s
  · obtain ⟨x, rest, line, whole⟩ := exists_line_append h ends
    have some : 0 < eol.length := List.length_pos_iff.mpr h.ne_nil
    have shorter : rest.length < s.length := by
      rw [whole, List.length_append, List.length_append]
      omega
    exact whole ▸ more x rest line (line_induction last more rest)
  · exact last s ends
termination_by s.length

include h

theorem isLine_of_mem_splitAll {s : List Char} (mem : x ∈ splitAll eol s) : IsLine eol x := by
  induction s using line_induction h with
  | last y line =>
    rw [splitAll_line line, List.mem_singleton] at mem
    exact mem ▸ line
  | more y s line ih =>
    rw [splitAll_line_append h line, List.mem_cons] at mem
    rcases mem with rfl | mem
    · exact line
    · exact ih mem

/-- A piece of a text stands in it. -/
theorem infix_of_mem_splitAll {s : List Char} (mem : x ∈ splitAll eol s) : x <:+: s := by
  induction s using line_induction h with
  | last y line =>
    rw [splitAll_line line, List.mem_singleton] at mem
    exact mem ▸ List.infix_rfl
  | more y s line ih =>
    rw [splitAll_line_append h line, List.mem_cons] at mem
    rcases mem with rfl | mem
    · exact ⟨[], eol ++ s, by simp⟩
    · exact (ih mem).trans (List.suffix_append _ s).isInfix

/-- What is put together from lines is cut into these lines. -/
theorem splitAll_joinChars {lines : List (List Char)} (some : lines ≠ [])
    (all : ∀ x ∈ lines, IsLine eol x) : splitAll eol (joinChars eol lines) = lines := by
  induction lines with
  | nil => contradiction
  | cons x lines ih =>
    have line : IsLine eol x := all x List.mem_cons_self
    cases lines with
    | nil => exact splitAll_line line
    | cons y rest =>
      have others := ih (List.cons_ne_nil y rest) fun z mem => all z (List.mem_cons_of_mem x mem)
      rw [joinChars_cons x (List.cons_ne_nil y rest), splitAll_line_append h line, others]

/-- A text that ends with a line ending has an empty piece behind it. -/
theorem splitAll_append_break (s : List Char) : splitAll eol (s ++ eol) = splitAll eol s ++ [[]] := by
  induction s using line_induction h with
  | last x line =>
    have cut := splitAll_line_append h line []
    rw [List.append_nil, splitAll_line (isLine_nil h)] at cut
    rw [cut, splitAll_line line, List.singleton_append]
  | more x s line ih =>
    rw [List.append_assoc _ s, splitAll_line_append h line, splitAll_line_append h line, ih,
      List.cons_append]

/-- The last piece of a text is empty where the text is, or where it ends with a line ending. -/
theorem getLast?_splitAll (s : List Char) :
    (splitAll eol s).getLast? = some [] ↔ s = [] ∨ eol <:+ s := by
  induction s using line_induction h with
  | last x line =>
    rw [splitAll_line line, List.getLast?_singleton, Option.some.injEq]
    exact (or_iff_left fun ends => line ends.isInfix).symm
  | more x s line ih =>
    obtain ⟨y, rest, cut⟩ := List.exists_cons_of_ne_nil (splitAll_ne_nil eol s)
    rw [splitAll_line_append h line, cut, List.getLast?_cons_cons, ← cut, ih]
    constructor
    · rintro (rfl | ends)
      · exact .inr ⟨x, (List.append_nil _).symm⟩
      · exact .inr (ends.trans (List.suffix_append _ s))
    · rintro (empty | ends)
      · simp [h.ne_nil] at empty
      · rcases List.suffix_or_suffix_of_suffix ends (List.suffix_append _ s) with within | ⟨w, hw⟩
        · exact .inr within
        obtain ⟨front, whole⟩ := ends
        rcases List.eq_nil_or_concat' s with rfl | ⟨s, d, rfl⟩
        · exact .inl rfl
        rcases List.eq_nil_or_concat' w with rfl | ⟨w, c, rfl⟩
        · exact .inr (hw ▸ List.suffix_rfl)
        -- else the ending begins where another one ends, and has the line feed of that one inside
        exfalso
        have short : (w ++ [c]).length < eol.length := by
          rw [← hw]
          simp only [List.length_append, List.length_singleton]
          omega
        have meets : front ++ (w ++ [c]) = x ++ eol := by
          rw [← hw, ← List.append_assoc front] at whole
          exact (List.append_cancel_right whole).trans (by rw [hw])
        have feed : c = '\n' := by
          obtain ⟨e, heol, -⟩ := h
          have lasts := congrArg List.getLast? meets
          simpa [heol] using lasts
        exact h.feed_not_mem ⟨_, hw⟩ short (by simp [feed])

omit h in
/-- No line ends in a line. -/
theorem count_line (line : IsLine eol x) : count eol x = 0 := by
  rw [count, splitAll_line line, List.length_singleton]

/-- A line and its ending add one to the endings of a text. -/
theorem count_line_append (line : IsLine eol x) (s : List Char) :
    count eol (x ++ eol ++ s) = count eol s + 1 := by
  have some := List.length_pos_iff.mpr (splitAll_ne_nil eol s)
  rw [count, splitAll_line_append h line, count, List.length_cons]
  omega

end Lines

/-! ## Places in a text -/

/-- The first `k` lines of a text with their endings; the last line of the text has none. -/
def firstLines (eol : List Char) (lines : List (List Char)) (k : Nat) : List Char :=
  if k < lines.length then (lines.take k).flatMap (· ++ eol) else joinChars eol lines

/-- A place is on a line: not in front of it, nor behind its ending if it has one. -/
def OnLine (eol : List Char) (lines : List (List Char)) (k place : Nat) : Prop :=
  k < lines.length ∧ (firstLines eol lines k).length ≤ place ∧
    (k + 1 < lines.length → place < (firstLines eol lines (k + 1)).length)

section Places

variable {eol : List Char} {lines : List (List Char)} {j k place : Nat}

theorem firstLines_of_lt (h : k < lines.length) :
    firstLines eol lines k = (lines.take k).flatMap (· ++ eol) := if_pos h

theorem firstLines_of_le (h : lines.length ≤ k) : firstLines eol lines k = joinChars eol lines :=
  if_neg (Nat.not_lt.mpr h)

/-- A text is its first lines and what is put together from the others. -/
theorem firstLines_append_drop (eol : List Char) (lines : List (List Char)) (k : Nat) :
    firstLines eol lines k ++ joinChars eol (lines.drop k) = joinChars eol lines := by
  by_cases h : k < lines.length
  · have more : lines.drop k ≠ [] := by
      rw [ne_eq, List.drop_eq_nil_iff]
      omega
    rw [firstLines_of_lt h, ← joinChars_append _ more, List.take_append_drop]
  · have h := Nat.not_lt.mp h
    rw [firstLines_of_le h, List.drop_eq_nil_of_le h]
    exact List.append_nil _

theorem firstLines_zero (some : lines ≠ []) : firstLines eol lines 0 = [] := by
  rw [firstLines_of_lt (List.length_pos_iff.mpr some), List.take_zero, List.flatMap_nil]

theorem firstLines_cons (x : List Char) (some : lines ≠ []) (k : Nat) :
    firstLines eol (x :: lines) (k + 1) = x ++ eol ++ firstLines eol lines k := by
  by_cases h : k < lines.length
  · rw [firstLines_of_lt h, firstLines_of_lt (Nat.succ_lt_succ h), List.take_succ_cons,
      List.flatMap_cons]
  · have h := Nat.not_lt.mp h
    rw [firstLines_of_le h, firstLines_of_le (Nat.succ_le_succ h), joinChars_cons x some]

theorem firstLines_mono (eol : List Char) (lines : List (List Char)) (h : j ≤ k) :
    firstLines eol lines j <+: firstLines eol lines k := by
  by_cases hk : k < lines.length
  · rw [firstLines_of_lt (Nat.lt_of_le_of_lt h hk), firstLines_of_lt hk,
      ← List.take_append_drop j (lines.take k), List.take_take, Nat.min_eq_left h,
      List.flatMap_append]
    exact List.prefix_append _ _
  · rw [firstLines_of_le (Nat.not_lt.mp hk)]
    exact ⟨_, firstLines_append_drop eol lines j⟩

/-- A line is behind those in front of it, and in front of what comes then. -/
theorem length_firstLines_le (eol : List Char) (h : k < lines.length) :
    (firstLines eol lines k).length + lines[k].length ≤ (firstLines eol lines (k + 1)).length := by
  by_cases more : k + 1 < lines.length
  · rw [firstLines_of_lt h, firstLines_of_lt more, List.take_succ_eq_append_getElem h,
      List.flatMap_append, List.flatMap_singleton]
    simp only [List.length_append]
    omega
  · have last : lines.drop k = [lines[k]] := by
      rw [List.drop_eq_getElem_cons h, List.drop_eq_nil_of_le (Nat.not_lt.mp more)]
    rw [firstLines_of_le (Nat.not_lt.mp more), ← firstLines_append_drop eol lines k, last,
      List.length_append]
    exact Nat.le_refl _

/-- A place is on one line. -/
theorem OnLine.unique (h : OnLine eol lines j place) (h' : OnLine eol lines k place) : j = k := by
  have before {j k : Nat} (h : OnLine eol lines j place) (h' : OnLine eol lines k place) :
      ¬ j < k := by
    intro less
    have next := h.2.2 (Nat.lt_of_le_of_lt less h'.1)
    have within : (firstLines eol lines (j + 1)).length ≤ (firstLines eol lines k).length :=
      (firstLines_mono eol lines less).length_le
    have start := h'.2.1
    omega
  exact Nat.le_antisymm (Nat.not_lt.mp (before h' h)) (Nat.not_lt.mp (before h h'))

/-- In front of a place stand as many line endings as lines in front of its own. -/
theorem onLine_count (h : IsBreak eol) (s : List Char) (place : Nat) :
    OnLine eol (splitAll eol s) (count eol (s.take place)) place := by
  induction s using line_induction h generalizing place with
  | last x line =>
    have start : IsLine eol (x.take place) := fun occurs =>
      line (occurs.trans (List.take_prefix _ _).isInfix)
    rw [count_line start, splitAll_line line]
    exact ⟨Nat.zero_lt_one, by simp [firstLines], fun more => by simp at more⟩
  | more x s line ih =>
    have pieces := splitAll_ne_nil eol s
    rw [splitAll_line_append h line]
    by_cases here : place < (x ++ eol).length
    · -- the place is on the first line
      have start : IsLine eol ((x ++ eol ++ s).take place) := by
        rw [List.take_append_of_le_length (Nat.le_of_lt here)]
        refine line.of_prefix h (List.take_prefix _ _) ?_
        rw [List.length_take]
        omega
      rw [count_line start]
      refine ⟨Nat.zero_lt_succ _, ?_, fun _ => ?_⟩
      · simp [firstLines]
      · rwa [firstLines_cons x pieces, firstLines_zero pieces, List.append_nil]
    · obtain ⟨further, rfl⟩ := Nat.exists_eq_add_of_le (Nat.not_lt.mp here)
      obtain ⟨within, behind, before⟩ := ih further
      have start (k : Nat) : (firstLines eol (x :: splitAll eol s) (k + 1)).length =
          (x ++ eol).length + (firstLines eol (splitAll eol s) k).length := by
        rw [firstLines_cons x pieces k, List.length_append]
      rw [List.take_length_add_append, count_line_append h line, OnLine, start, start]
      exact ⟨Nat.succ_lt_succ within, Nat.add_le_add_left behind _, fun more =>
        Nat.add_lt_add_left (before (Nat.lt_of_succ_lt_succ more)) _⟩

end Places

/-! ## Kinds of line breaks -/

section Breaks

variable {x s : List Char}

theorem unifyBreaks_cons {c : Char} (h : c = '\r' → s.head? ≠ some '\n') :
    unifyBreaks (c :: s) = (if c = '\r' then '\n' else c) :: unifyBreaks s := by
  rw [unifyBreaks]
  rintro rest rfl rfl
  exact h rfl rfl

/-- Where the text does not begin with both halves of a line break, the first is not followed by the
second. -/
theorem head?_ne_of_apart {c : Char} (apart : ∀ rest, c = '\r' → s = '\n' :: rest → False)
    (same : c = '\r') : s.head? ≠ some '\n' := by
  intro first
  obtain ⟨rest, rfl⟩ := List.head?_eq_some_iff.mp first
  exact apart rest same rfl

/-- A text can be cut at a character that belongs to no line break. -/
theorem unifyBreaks_append {c : Char} (n : c ≠ '\n') (r : c ≠ '\r') (a b : List Char) :
    unifyBreaks (a ++ c :: b) = unifyBreaks a ++ c :: unifyBreaks b := by
  induction a using unifyBreaks.induct with
  | case1 =>
    rw [List.nil_append, unifyBreaks_cons fun same => absurd same r, if_neg r]
    rfl
  | case2 a ih =>
    rw [List.cons_append, List.cons_append, unifyBreaks, ih]
    rfl
  | case3 d a other ih =>
    have apart : d = '\r' → a.head? ≠ some '\n' := head?_ne_of_apart other
    have apart' : d = '\r' → (a ++ c :: b).head? ≠ some '\n' := by
      intro same
      cases a with
      | nil => simpa using n
      | cons _ _ => exact apart same
    rw [List.cons_append, unifyBreaks_cons apart', unifyBreaks_cons apart, ih, List.cons_append]

/-- What holds no carriage return stays as it is. -/
theorem unifyBreaks_append_left (h : '\r' ∉ x) (s : List Char) :
    unifyBreaks (x ++ s) = x ++ unifyBreaks s := by
  induction x with
  | nil => rfl
  | cons c x ih =>
    obtain ⟨other, rest⟩ := not_or.mp (mt List.mem_cons.mpr h)
    rw [List.cons_append, unifyBreaks_cons fun same => absurd same.symm other, if_neg (Ne.symm other),
      ih rest, List.cons_append]

/-- No carriage return is left. -/
theorem carriage_not_mem_unifyBreaks (s : List Char) : '\r' ∉ unifyBreaks s := by
  induction s using unifyBreaks.induct with
  | case1 => exact List.not_mem_nil
  | case2 s ih => simpa [unifyBreaks] using ih
  | case3 c s other ih =>
    rw [unifyBreaks_cons (head?_ne_of_apart other), List.mem_cons, not_or]
    refine ⟨?_, ih⟩
    split
    · decide
    next other => exact fun same => other same.symm

end Breaks

end Scaffold.Text
