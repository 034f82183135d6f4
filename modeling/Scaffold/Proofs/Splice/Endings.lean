import Scaffold.Proofs.Splice.Presence

/-!
# The line ending a content uses most

What a splice puts in has no line breaks but the ending that the content uses most, so it adds to the
majority.  A place is never between a carriage return and its line feed, and what is put there ends
with an ending where text follows.  So pairs of the two come about in one way: the last line of the
content ends with a carriage return alone, and the line feed that it lacks is put behind it.

This pair outweighs what is put in only where the content has as many pairs as bare line feeds and
this line feed is the only one put in.
-/

namespace Scaffold.Splice

open Text (splitAll joinChars)

variable {eol s a b x : List Char}

/-! ## Pairs of carriage return and line feed -/

theorem crlf_isBreak : Text.IsBreak crlf := ⟨['\r'], rfl, by decide⟩

/-- Whether a carriage return stands in front of its line feed where two texts meet. -/
def Meet (a b : List Char) : Prop := a.getLast? = some '\r' ∧ b.head? = some '\n'

instance (a b : List Char) : Decidable (Meet a b) := inferInstanceAs (Decidable (_ ∧ _))

theorem not_meet_of_nil (none : a = [] ∨ b = []) : ¬ Meet a b := by
  rcases none with rfl | rfl <;> simp [Meet]

theorem crlf_prefix_cons {c : Char} : crlf <+: c :: s ↔ Meet [c] s := by
  cases s <;> simp [crlf, Meet, List.cons_prefix_cons, eq_comm]

theorem count_crlf_cons (c : Char) (s : List Char) :
    Text.count crlf (c :: s) = Text.count crlf s + if Meet [c] s then 1 else 0 := by
  by_cases begins : crlf <+: c :: s
  · obtain ⟨rest, whole⟩ := begins
    obtain ⟨rfl, rfl⟩ := List.cons.inj whole
    have feed : Text.count crlf ('\n' :: rest) = Text.count crlf rest :=
      Text.count_cons (by simp [crlf])
    have pair : Text.count crlf ('\r' :: '\n' :: rest) = Text.count crlf rest + 1 :=
      Text.count_line_append crlf_isBreak (Text.isLine_nil crlf_isBreak) rest
    exact pair.trans (congrArg (· + 1) feed.symm)
  · rw [Text.count_cons begins, if_neg (mt crlf_prefix_cons.mpr begins), Nat.add_zero]

theorem count_crlf_nil : Text.count crlf [] = 0 := Text.count_line (Text.isLine_nil crlf_isBreak)

/-- The pairs of two texts, and that which comes about where they meet. -/
theorem count_append (a b : List Char) :
    Text.count crlf (a ++ b) =
      Text.count crlf a + Text.count crlf b + if Meet a b then 1 else 0 := by
  induction a with
  | nil => simp [Meet, count_crlf_nil]
  | cons c a ih =>
    rw [List.cons_append, count_crlf_cons, count_crlf_cons, ih]
    cases a with
    | nil => simp [Meet, count_crlf_nil, Nat.add_comm]
    | cons d a =>
      -- of `a` only its ends matter, and there is one more character in front
      have first : Meet [c] (d :: a ++ b) ↔ Meet [c] (d :: a) := Iff.rfl
      have last : Meet (c :: d :: a) b ↔ Meet (d :: a) b := by
        rw [Meet, List.getLast?_cons_cons, Meet]
      simp only [first, last]
      omega

/-! ## Texts with one kind of ending -/

/-- A text with no line breaks but one kind of ending. -/
def OnlyBreak (eol s : List Char) : Prop := ∀ x ∈ splitAll eol s, '\n' ∉ x ∧ '\r' ∉ x

theorem onlyBreak_line_append (h : Text.IsBreak eol) (line : Text.IsLine eol x) :
    OnlyBreak eol (x ++ eol ++ s) ↔ ('\n' ∉ x ∧ '\r' ∉ x) ∧ OnlyBreak eol s := by
  rw [OnlyBreak, Text.splitAll_line_append h line, List.forall_mem_cons]
  rfl

theorem onlyBreak_line (line : Text.IsLine eol x) : OnlyBreak eol x ↔ '\n' ∉ x ∧ '\r' ∉ x := by
  rw [OnlyBreak, Text.splitAll_line line, List.forall_mem_singleton]

/-- Where there is one kind of ending, each has a line feed, and no other is there. -/
theorem OnlyBreak.count_feed (only : OnlyBreak eol s) (h : Text.IsBreak eol) :
    s.count '\n' = Text.count eol s := by
  induction s using Text.line_induction h with
  | last x line =>
    rw [onlyBreak_line line] at only
    rw [List.count_eq_zero.mpr only.1, Text.count_line line]
  | more x s line ih =>
    rw [onlyBreak_line_append h line] at only
    have one : eol.count '\n' = 1 := by
      obtain ⟨front, rfl, free⟩ := h
      rw [List.count_append, List.count_eq_zero.mpr free]
      rfl
    rw [List.count_append, List.count_append, List.count_eq_zero.mpr only.1.1, one, ih only.2,
      Text.count_line_append h line]
    omega

/-- Where line feeds alone end lines there are no pairs. -/
theorem OnlyBreak.count_crlf (only : OnlyBreak ['\n'] s) : Text.count crlf s = 0 := by
  have free : '\r' ∉ s := by
    induction s using Text.line_induction feed_isBreak with
    | last x line => exact ((onlyBreak_line line).mp only).2
    | more x s line ih =>
      rw [onlyBreak_line_append feed_isBreak line] at only
      simp [only.1.2, ih only.2]
  exact Text.count_line fun occurs => free (occurs.subset List.mem_cons_self)

/-! ## What a splice puts in -/

variable {rule : Rule} {body : List Char} {n : Nat}

/-- The lines of a body hold no carriage return. -/
theorem carriage_not_mem_bodyLines {endsLine : Bool} (mem : x ∈ bodyLines endsLine body) :
    '\r' ∉ x := fun carriage => by
  have within := (Text.infix_of_mem_splitAll feed_isBreak mem).subset carriage
  refine Text.carriage_not_mem_unifyBreaks body ?_
  split at within
  · split at within
    · exact List.dropLast_subset _ within
    · exact within
  · exact List.mem_reverse.mp ((List.dropWhile_sublist _).subset (List.mem_reverse.mp within))

theorem onlyBreak_piece (h : Text.IsBreak eol) (placed : place eol s rule.location = .ok n) :
    OnlyBreak eol (piece eol s rule body n) := by
  intro x mem
  rcases mem_splitAll_piece h placed mem with rfl | mem
  · exact ⟨List.not_mem_nil, List.not_mem_nil⟩
  · exact ⟨feed_not_mem_bodyLines mem, carriage_not_mem_bodyLines mem⟩

/-! ## Where a pair comes about -/

theorem not_meet_of_feed (last : a.getLast? = some '\n') (b : List Char) : ¬ Meet a b := by
  intro meet
  have same := last.symm.trans meet.1
  simp at same

theorem getLast?_append_break (h : Text.IsBreak eol) (a : List Char) :
    (a ++ eol).getLast? = some '\n' := by
  obtain ⟨front, rfl, -⟩ := h
  rw [← List.append_assoc, List.getLast?_concat]

/-- A place is not between a carriage return and its line feed. -/
theorem not_meet_at_place (h : Text.IsBreak eol) {l : Location} (placed : place eol s l = .ok n) :
    ¬ Meet (s.take n) (s.drop n) := by
  rcases isBetween_place placed with rfl | long | ⟨front, back, rfl, rfl⟩
  · exact not_meet_of_nil (.inl List.take_zero)
  · exact not_meet_of_nil (.inr (List.drop_eq_nil_of_le long))
  · rw [List.take_left]
    exact not_meet_of_feed (getLast?_append_break h front) _

/-- What is put in front of other text ends with an ending. -/
theorem not_meet_behind (h : Text.IsBreak eol) (front : List Char) :
    ¬ Meet (front ++ piece eol s rule body n) (s.drop n) := by
  by_cases before : n < s.length
  · rw [piece_of_lt before, Text.flatMap_eq (bodyLines_ne_nil _ _), ← List.append_assoc]
    exact not_meet_of_feed (getLast?_append_break h _) _
  · exact not_meet_of_nil (.inr (List.drop_eq_nil_of_le (Nat.not_lt.mp before)))

/-- A content that ends with a carriage return has an unfinished last line. -/
theorem unfinished_of_carriage (h : Text.IsBreak eol) (carriage : s.getLast? = some '\r') :
    ¬ (s = [] ∨ eol <:+ s) := by
  rintro (rfl | ⟨front, rfl⟩)
  · cases carriage
  · exact not_meet_of_feed (getLast?_append_break h front) ['\n'] ⟨carriage, rfl⟩

/-- A pair comes about where the last line ends with a carriage return and gets a line feed. -/
theorem meet_piece_iff (body : List Char) (h : Text.IsBreak eol)
    (placed : place eol s rule.location = .ok n) :
    Meet (s.take n) (piece eol s rule body n) ↔
      n = s.length ∧ s.getLast? = some '\r' ∧ eol = ['\n'] := by
  have at_end (last : n = s.length) (carriage : s.getLast? = some '\r') :
      (piece eol s rule body n).head? = eol.head? := by
    subst last
    obtain ⟨c, rest, rfl⟩ := List.exists_cons_of_ne_nil h.ne_nil
    rw [piece_at_end placed, if_neg (unfinished_of_carriage h carriage)]
    rfl
  constructor
  · intro meet
    have last : n = s.length ∧ s.getLast? = some '\r' := by
      rcases isBetween_place placed with rfl | long | ⟨front, back, rfl, rfl⟩
      · exact absurd meet (not_meet_of_nil (.inl List.take_zero))
      · have last := Nat.le_antisymm (place_le placed) long
        rw [last, List.take_length] at meet
        exact ⟨last, meet.1⟩
      · rw [List.take_left] at meet
        exact absurd meet (not_meet_of_feed (getLast?_append_break h front) _)
    refine ⟨last.1, last.2, ?_⟩
    have feed := (at_end last.1 last.2).symm.trans meet.2
    obtain ⟨front, rfl, free⟩ := h
    cases front with
    | nil => rfl
    | cons c front =>
      obtain rfl : c = '\n' := Option.some.inj feed
      exact absurd List.mem_cons_self free
  · rintro ⟨last, carriage, rfl⟩
    refine ⟨?_, at_end last carriage⟩
    rwa [last, List.take_length]

/-! ## The majority -/

/-- When the pair that comes about tips the balance: there are as many pairs as bare line feeds, and
its line feed is the only one that is put in. -/
structure Tips (s : List Char) (rule : Rule) (body : List Char) (n : Nat) : Prop where
  atEnd : n = s.length
  carriage : s.getLast? = some '\r'
  even : 2 * Text.count crlf s = s.count '\n'
  unended : rule.endsLine = false
  single : (bodyLines false body).length = 1

theorem lineEnding_eq_crlf (s : List Char) :
    lineEnding s = crlf ↔ s.count '\n' < 2 * Text.count crlf s := by
  rcases lineEnding_cases s with ⟨ending, more⟩ | ⟨ending, less⟩
  · exact iff_of_true ending more
  · exact iff_of_false (by rw [ending]; decide) (Nat.not_lt.mpr less)

theorem lineEnding_eq_feed (s : List Char) :
    lineEnding s = ['\n'] ↔ 2 * Text.count crlf s ≤ s.count '\n' := by
  rcases lineEnding_cases s with ⟨ending, more⟩ | ⟨ending, less⟩
  · exact iff_of_false (by rw [ending]; decide) (Nat.not_le.mpr more)
  · exact iff_of_true ending less

/-- Behind a carriage return the body gets an ending in front. -/
theorem count_piece_of_carriage (h : Text.IsBreak eol) (placed : place eol s rule.location = .ok n)
    (last : n = s.length) (carriage : s.getLast? = some '\r') :
    Text.count eol (piece eol s rule body n) =
      (bodyLines rule.endsLine body).length + (lastLine rule.endsLine).length := by
  have inside : ¬ n < s.length := Nat.not_lt.mpr (Nat.le_of_eq last.symm)
  rw [Text.count, splitAll_piece h placed, if_neg inside, if_neg inside, unfinished,
    if_neg (unfinished_of_carriage h carriage)]
  simp only [List.length_append, List.length_singleton]
  omega

/-- How many line feeds and pairs there are with something put at a place. -/
theorem counts_put (body : List Char) (h : Text.IsBreak eol)
    (placed : place eol s rule.location = .ok n) :
    let put := piece eol s rule body n
    let result := s.take n ++ put ++ s.drop n
    result.count '\n' = s.count '\n' + Text.count eol put ∧
      Text.count crlf result = Text.count crlf s + Text.count crlf put +
        if Meet (s.take n) put then 1 else 0 := by
  intro put result
  have whole : s.take n ++ s.drop n = s := List.take_append_drop n s
  constructor
  · have feeds := congrArg (List.count '\n') whole
    have new : put.count '\n' = Text.count eol put := (onlyBreak_piece h placed).count_feed h
    rw [List.count_append] at feeds
    rw [List.count_append, List.count_append, new]
    omega
  · have pairs := congrArg (Text.count crlf) whole
    rw [count_append, if_neg (not_meet_at_place h placed)] at pairs
    rw [count_append, count_append, if_neg (not_meet_behind h _)]
    omega

/-- The ending used most stays the same, but where a pair tips the balance. -/
theorem lineEnding_put (placed : place (lineEnding s) s rule.location = .ok n) :
    lineEnding (s.take n ++ piece (lineEnding s) s rule body n ++ s.drop n) = lineEnding s ↔
      ¬ Tips s rule body n := by
  have breaks := lineEnding_isBreak s
  have only : OnlyBreak (lineEnding s) (piece (lineEnding s) s rule body n) :=
    onlyBreak_piece breaks placed
  obtain ⟨feeds, pairs⟩ := counts_put body breaks placed
  rcases lineEnding_cases s with ⟨ending, more⟩ | ⟨ending, less⟩ <;>
    rw [ending] at placed only feeds pairs ⊢
  · -- every ending that is put in is a pair
    have apart : ¬ Meet (s.take n) (piece crlf s rule body n) := by
      rw [meet_piece_iff body crlf_isBreak placed]
      rintro ⟨-, -, same⟩
      cases same
    rw [if_neg apart] at pairs
    rw [lineEnding_eq_crlf, feeds, pairs]
    refine iff_of_true (by omega) fun tips => ?_
    have even := tips.even
    omega
  · rw [only.count_crlf] at pairs
    rw [lineEnding_eq_feed, feeds, pairs]
    have meets := meet_piece_iff body feed_isBreak placed
    by_cases meet : Meet (s.take n) (piece ['\n'] s rule body n)
    · obtain ⟨last, carriage, -⟩ := meets.mp meet
      rw [if_pos meet, count_piece_of_carriage feed_isBreak placed last carriage]
      have some := List.length_pos_iff.mpr (bodyLines_ne_nil rule.endsLine body)
      cases unended : rule.endsLine with
      | true =>
        -- the body ends a line as well, so two line feeds or more are put in
        rw [unended] at some
        simp only [lastLine, if_true, List.length_singleton]
        refine iff_of_true (by omega) fun tips => ?_
        cases unended.symm.trans tips.unended
      | false =>
        rw [unended] at some
        simp only [lastLine, Bool.false_eq_true, if_false, List.length_nil]
        constructor
        · intro few tips
          have even := tips.even
          have single := tips.single
          omega
        · intro kept
          by_contra many
          exact kept ⟨last, carriage, by omega, unended, by omega⟩
    · rw [if_neg meet]
      exact iff_of_true (by omega) fun tips => meet (meets.mpr ⟨tips.atEnd, tips.carriage, rfl⟩)

/-- What a splice puts in has no line breaks but the ending that the content uses most, and this is
the ending used most afterwards, but where a pair tips the balance. -/
theorem ending_kept_iff {content body : String} {o : Outcome}
    (h : apply content body rule = .ok o) (put : o.skipped = false) :
    let s := content.toList
    let eol := lineEnding s
    ∃ n inserted, place eol s rule.location = .ok n ∧
      o.content.toList = s.take n ++ inserted ++ s.drop n ∧ OnlyBreak eol inserted ∧
      (lineEnding o.content.toList = eol ↔ ¬ Tips s rule body.toList n) := by
  intro s eol
  rcases apply_eq_ok h with ⟨-, skipped, -⟩ | ⟨n, placed, -, result⟩
  · rw [put] at skipped
    cases skipped
  · refine ⟨n, _, placed, result, onlyBreak_piece (lineEnding_isBreak s) placed, ?_⟩
    rw [result]
    exact lineEnding_put placed

end Scaffold.Splice

/-! ## A pair that tips the balance -/

namespace Scaffold.Balanced

open Splice

/-- One line that ends with a carriage return: the content has no pair and no line feed. -/
def old : String := "a\r"

def behind (endsLine : Bool) : Rule := { location := .back, endsLine }

/-- With a body that ends its line there are a pair and a bare line feed. -/
def finished : Outcome := { content := "a\r\nb\n", changed := true }

/-- With a body that does not, the pair is the only ending. -/
def unfinished : Outcome := { content := "a\r\nb", changed := true }

theorem finishes : apply old "b" (behind true) = .ok finished := by decide +kernel

theorem leaves : apply old "b" (behind false) = .ok unfinished := by decide +kernel

/-- The line feed is still the ending used most, since nothing tips the balance. -/
theorem feed_stays :
    apply old "b" (behind true) = .ok finished ∧
      lineEnding finished.content.toList = lineEnding old.toList := by
  obtain ⟨n, inserted, -, -, -, kept⟩ := ending_kept_iff finishes rfl
  refine ⟨finishes, kept.mpr fun tips => ?_⟩
  cases tips.unended

/-- A line feed was to end lines, and now carriage return and line feed do. -/
theorem feed_goes :
    apply old "b" (behind false) = .ok unfinished ∧ unfinished.skipped = false ∧
      lineEnding unfinished.content.toList ≠ lineEnding old.toList :=
  ⟨leaves, rfl, by decide +kernel⟩

end Scaffold.Balanced
