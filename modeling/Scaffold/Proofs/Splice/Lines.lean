import Mathlib.Data.List.Infix
import Scaffold.Proofs.Text.Lines
import Scaffold.Splice

/-!
# A splice puts lines between lines

The line ending of a content cuts it into lines.  Every location is the place where one of these
lines starts, or the end of the content; and what is put there is the lines of the body, each with
this ending behind it where other lines follow.  So the result is cut into the lines in front of the
place, those of the body and those behind the place.

At the end of a content the last of its lines gets the ending that it lacks, and the last line of the
body has one only if the rule says so.
-/

namespace Scaffold.Splice

open Text (splitAll joinChars firstLines IsLine)

variable {eol s : List Char}

/-! ## The line ending -/

/-- More than half of the line feeds have a carriage return in front, or the line feed ends lines. -/
theorem lineEnding_cases (s : List Char) :
    lineEnding s = crlf ∧ s.count '\n' < 2 * Text.count crlf s ∨
      lineEnding s = ['\n'] ∧ 2 * Text.count crlf s ≤ s.count '\n' := by
  unfold lineEnding
  dsimp only
  split
  · exact .inl ⟨rfl, by omega⟩
  · exact .inr ⟨rfl, by omega⟩

theorem lineEnding_isBreak (s : List Char) : Text.IsBreak (lineEnding s) := by
  rcases lineEnding_cases s with ⟨ending, -⟩ | ⟨ending, -⟩ <;> rw [ending]
  · exact ⟨['\r'], rfl, by decide⟩
  · exact ⟨[], rfl, List.not_mem_nil⟩

/-! ## The lines of a body -/

/-- The lines of a body, however its line breaks are written.  The break behind the last line is not
part of it: one of them is left out where the body ends a line, all of them where it does not. -/
def bodyLines (endsLine : Bool) (body : List Char) : List (List Char) :=
  let text := Text.unifyBreaks body
  splitAll ['\n'] <|
    if endsLine then (if text.getLast? = some '\n' then text.dropLast else text)
    else Text.dropBack (· == '\n') text

/-- What stands behind the last line of a body in the end of a content: an empty line if the body
ends a line. -/
def lastLine (endsLine : Bool) : List (List Char) := if endsLine then [[]] else []

theorem eq_nil_of_mem_lastLine {endsLine : Bool} {x : List Char} (mem : x ∈ lastLine endsLine) :
    x = [] := by
  unfold lastLine at mem
  split at mem
  · exact List.mem_singleton.mp mem
  · cases mem

theorem bodyLines_ne_nil (endsLine : Bool) (body : List Char) : bodyLines endsLine body ≠ [] :=
  Text.splitAll_ne_nil _ _

theorem feed_isBreak : Text.IsBreak ['\n'] := ⟨[], rfl, List.not_mem_nil⟩

/-- The lines of a body hold no line feed. -/
theorem feed_not_mem_bodyLines {endsLine : Bool} {body x : List Char}
    (mem : x ∈ bodyLines endsLine body) : '\n' ∉ x := fun feed =>
  Text.isLine_of_mem_splitAll feed_isBreak mem ((List.singleton_infix_iff _ _).mpr feed)

/-- A body as it goes into a text is its lines, put together with the ending of the text. -/
theorem bodyFor_eq (eol : List Char) (endsLine : Bool) (body : List Char) :
    bodyFor eol endsLine body = joinChars eol (bodyLines endsLine body ++ lastLine endsLine) := by
  cases endsLine with
  | false => simp [bodyFor, bodyLines, lastLine, Text.replaceChars]
  | true =>
    have cut (text : List Char) : splitAll ['\n'] (text ++ ['\n']) = splitAll ['\n'] text ++ [[]] :=
      Text.splitAll_append_break feed_isBreak text
    simp only [bodyFor, bodyLines, lastLine, Text.replaceChars, if_true, beq_iff_eq]
    split
    next ends =>
      obtain ⟨text, ends⟩ := List.getLast?_eq_some_iff.mp ends
      rw [ends, List.dropLast_concat, cut]
    next => rw [cut]

/-! ## The places -/

/-- The lines of a content start where those in front of them end. -/
theorem lineStarts_eq (eol s : List Char) :
    lineStarts eol s = (List.range (splitAll eol s).length).map fun k =>
      (firstLines eol (splitAll eol s) k).length := by
  have from_front (lines : List (List Char)) :
      lines.foldl (fun (starts : List Nat) line =>
          starts ++ [starts.getLastD 0 + line.length + eol.length]) [0] =
        (List.range (lines.length + 1)).map fun k => ((lines.take k).flatMap (· ++ eol)).length := by
    induction lines using List.reverseRecOn with
    | nil => rfl
    | append_singleton lines line ih =>
      have earlier : ∀ k ∈ List.range (lines.length + 1),
          (((lines ++ [line]).take k).flatMap (· ++ eol)).length =
            ((lines.take k).flatMap (· ++ eol)).length := by
        intro k hk
        have within := List.mem_range.mp hk
        rw [List.take_append_of_le_length (Nat.le_of_lt_succ within)]
      have all : (lines ++ [line]).take (lines.length + 1) = lines ++ [line] :=
        List.take_of_length_le (by simp)
      rw [List.foldl_append, ih, List.length_append, List.length_singleton,
        List.range_succ (n := lines.length + 1), List.map_append, List.map_congr_left earlier,
        List.map_singleton, all, List.range_succ]
      simp only [List.map_append, List.map_singleton, List.take_length]
      simp [Nat.add_assoc]
  obtain ⟨lines, last, cut⟩ :=
    (List.eq_nil_or_concat' (splitAll eol s)).resolve_left (Text.splitAll_ne_nil eol s)
  rw [lineStarts, from_front, cut, List.dropLast_concat, List.length_append, List.length_singleton]
  refine List.map_congr_left fun k hk => ?_
  have within := List.mem_range.mp hk
  rw [Text.firstLines_of_lt (by rwa [List.length_append]),
    List.take_append_of_le_length (Nat.le_of_lt_succ within)]

/-- The start of a line, or the end of the content, is where the lines in front of it end. -/
theorem startOfLine_eq (eol s : List Char) (k : Nat) :
    startOfLine eol s k = (firstLines eol (splitAll eol s) k).length := by
  rw [startOfLine, lineStarts_eq, List.getElem?_map]
  by_cases within : k < (splitAll eol s).length
  · rw [List.getElem?_range within]
    rfl
  · have behind := Nat.not_lt.mp within
    rw [List.getElem?_eq_none (by rwa [List.length_range]), Text.firstLines_of_le behind,
      Text.joinChars_splitAll]
    rfl

/-- The line a location names, from the front; the end of a content is none. -/
def namedLine? (eol s : List Char) : Location → Option Nat
  | .front => some 0
  | .atLine line => line.map Int.toNat
  | .before p => anchorLine? eol s p false
  | .after p => (anchorLine? eol s p true).map (· + 1)
  | .back | .unknown _ => none

theorem anchoredPlace_eq_ok {pattern : String} {after : Bool} {n : Nat}
    (h : anchoredPlace eol s pattern after = .ok n) :
    ∃ k, anchorLine? eol s pattern after = some k ∧
      n = startOfLine eol s (if after then k + 1 else k) := by
  unfold anchoredPlace at h
  split at h
  · cases h
  · split at h
    next => cases h
    next k anchored =>
      cases h
      exact ⟨k, anchored, rfl⟩

/-- A place is the start of the line that the location names, or the end of the content. -/
theorem place_eq_ok {l : Location} {n : Nat} (h : place eol s l = .ok n) :
    (∃ k, namedLine? eol s l = some k ∧ n = startOfLine eol s k) ∨ l = .back ∧ n = s.length := by
  cases l with
  | front =>
    cases h
    refine .inl ⟨0, rfl, ?_⟩
    rw [startOfLine_eq, Text.firstLines_zero (Text.splitAll_ne_nil eol s), List.length_nil]
  | back =>
    cases h
    exact .inr ⟨rfl, rfl⟩
  | atLine line =>
    cases line with
    | none => cases h
    | some line =>
      simp only [place] at h
      split at h
      · cases h
      · cases h
        exact .inl ⟨line.toNat, rfl, rfl⟩
  | before p =>
    obtain ⟨k, anchored, start⟩ := anchoredPlace_eq_ok h
    exact .inl ⟨k, anchored, start⟩
  | after p =>
    obtain ⟨k, anchored, start⟩ := anchoredPlace_eq_ok h
    exact .inl ⟨k + 1, by rw [namedLine?, anchored, Option.map_some], start⟩
  | unknown name => cases h

/-- A content is its first lines and what is put together from the others. -/
theorem firstLines_append_others (eol s : List Char) (k : Nat) :
    firstLines eol (splitAll eol s) k ++ joinChars eol ((splitAll eol s).drop k) = s := by
  rw [Text.firstLines_append_drop, Text.joinChars_splitAll]

/-- In front of the start of a line are those in front of it, behind it the others. -/
theorem cut_at_line (eol s : List Char) (k : Nat) :
    s.take (startOfLine eol s k) = firstLines eol (splitAll eol s) k ∧
      s.drop (startOfLine eol s k) = joinChars eol ((splitAll eol s).drop k) := by
  have whole := (firstLines_append_others eol s k).symm
  rw [startOfLine_eq]
  constructor
  · exact (congrArg _ whole).trans List.take_left
  · exact (congrArg _ whole).trans List.drop_left

/-- Behind the last line there is nothing. -/
theorem startOfLine_of_le {k : Nat} (h : (splitAll eol s).length ≤ k) :
    startOfLine eol s k = s.length := by
  rw [startOfLine_eq, Text.firstLines_of_le h, Text.joinChars_splitAll]

theorem startOfLine_le (eol s : List Char) (k : Nat) : startOfLine eol s k ≤ s.length := by
  have lengths := congrArg List.length (firstLines_append_others eol s k)
  rw [List.length_append, ← startOfLine_eq] at lengths
  omega

/-- No place is behind the end of the content. -/
theorem place_le {l : Location} {n : Nat} (h : place eol s l = .ok n) : n ≤ s.length := by
  rcases place_eq_ok h with ⟨k, -, rfl⟩ | ⟨-, rfl⟩
  · exact startOfLine_le eol s k
  · exact Nat.le_refl _

/-! ## What is put at a place -/

/-- The lines of a content in front of what is put at its end: all of them, but not an empty last
one. -/
def finishedLines (eol s : List Char) : List (List Char) :=
  if (splitAll eol s).getLast? = some [] then (splitAll eol s).dropLast else splitAll eol s

variable {rule : Rule} {body : List Char} {n : Nat}

/-- What stands in front of the first line of a body at the end of a content: an empty line, whose
ending is that of the last line of the content if it has none. -/
def unfinished (eol s : List Char) : List (List Char) := if s = [] ∨ eol <:+ s then [] else [[]]

theorem eq_nil_of_mem_unfinished {x : List Char} (mem : x ∈ unfinished eol s) : x = [] := by
  unfold unfinished at mem
  split at mem
  · cases mem
  · exact List.mem_singleton.mp mem

/-- In front of other text every line of the body gets the line ending. -/
theorem piece_of_lt (h : n < s.length) :
    piece eol s rule body n = (bodyLines rule.endsLine body).flatMap (· ++ eol) := by
  have inside : n ≠ s.length := Nat.ne_of_lt h
  have some := bodyLines_ne_nil rule.endsLine body
  unfold piece
  rw [bodyFor_eq]
  cases ends : rule.endsLine with
  | false =>
    rw [ends] at some
    simp [inside, h, lastLine, Text.flatMap_eq some]
  | true =>
    simp [inside, lastLine, Text.joinChars_append, joinChars]

/-- At the end of a content an unfinished line gets its ending first. -/
theorem piece_at_end (placed : place eol s rule.location = .ok s.length) :
    piece eol s rule body s.length =
      (if s = [] ∨ eol <:+ s then [] else eol) ++ bodyFor eol rule.endsLine body := by
  have spaced : s ≠ [] → rule.location ≠ .front := fun some front => by
    rw [front] at placed
    exact some (List.length_eq_zero_iff.mp (Except.ok.inj placed).symm)
  unfold piece
  by_cases empty : s = []
  · simp [empty]
  · by_cases ends : eol <:+ s
    · simp [ends, List.isSuffixOf_iff_suffix.mpr ends]
    · simp [empty, ends, spaced empty]

variable (h : Text.IsBreak eol)

include h

theorem isLine_of_mem_bodyLines {endsLine : Bool} {x : List Char}
    (mem : x ∈ bodyLines endsLine body) : IsLine eol x :=
  Text.isLine_of_not_mem h (feed_not_mem_bodyLines mem)

/-- What is put into a content is cut into the lines of the body, and an empty one for each ending in
front of them or behind. -/
theorem splitAll_piece (placed : place eol s rule.location = .ok n) :
    splitAll eol (piece eol s rule body n) =
      (if n < s.length then [] else unfinished eol s) ++ bodyLines rule.endsLine body ++
        (if n < s.length then [[]] else lastLine rule.endsLine) := by
  have some := bodyLines_ne_nil rule.endsLine body
  -- empty lines around the body are lines as well, so the whole is cut as it was put together
  have cut (first last : List (List Char)) (empty : ∀ x, x ∈ first ∨ x ∈ last → x = []) :
      splitAll eol (joinChars eol (first ++ bodyLines rule.endsLine body ++ last)) =
        first ++ bodyLines rule.endsLine body ++ last := by
    refine Text.splitAll_joinChars h (by simp [some]) fun x mem => ?_
    rw [List.mem_append, List.mem_append] at mem
    rcases mem with (mem | mem) | mem
    · exact empty x (.inl mem) ▸ Text.isLine_nil h
    · exact isLine_of_mem_bodyLines h mem
    · exact empty x (.inr mem) ▸ Text.isLine_nil h
  by_cases before : n < s.length
  · rw [if_pos before, if_pos before, ← cut [] [[]] (by simp), piece_of_lt before, List.nil_append,
      Text.joinChars_append _ (List.cons_ne_nil _ _)]
    simp [joinChars]
  · obtain rfl : n = s.length := Nat.le_antisymm (place_le placed) (Nat.not_lt.mp before)
    rw [if_neg before, if_neg before, ← cut, piece_at_end placed, bodyFor_eq, unfinished,
      List.append_assoc, Text.joinChars_append _ (List.append_ne_nil_of_left_ne_nil some _)]
    · split <;> simp
    · rintro x (mem | mem)
      · exact eq_nil_of_mem_unfinished mem
      · exact eq_nil_of_mem_lastLine mem

theorem mem_splitAll_piece (placed : place eol s rule.location = .ok n) {x : List Char}
    (mem : x ∈ splitAll eol (piece eol s rule body n)) :
    x = [] ∨ x ∈ bodyLines rule.endsLine body := by
  rw [splitAll_piece h placed, List.mem_append, List.mem_append] at mem
  rcases mem with (mem | mem) | mem
  · split at mem
    · cases mem
    · exact .inl (eq_nil_of_mem_unfinished mem)
  · exact .inr mem
  · split at mem
    · exact .inl (List.mem_singleton.mp mem)
    · exact .inl (eq_nil_of_mem_lastLine mem)

/-- A body in front of other text comes between two lines. -/
theorem splitAll_put {k : Nat} (within : k < (splitAll eol s).length)
    (before : startOfLine eol s k < s.length) :
    splitAll eol (s.take (startOfLine eol s k) ++ piece eol s rule body (startOfLine eol s k) ++
        s.drop (startOfLine eol s k)) =
      (splitAll eol s).take k ++ bodyLines rule.endsLine body ++ (splitAll eol s).drop k := by
  have more : (splitAll eol s).drop k ≠ [] := by
    rw [ne_eq, List.drop_eq_nil_iff]
    omega
  obtain ⟨front, behind⟩ := cut_at_line eol s k
  rw [piece_of_lt before, front, behind, Text.firstLines_of_lt within, ← List.flatMap_append,
    ← Text.joinChars_append _ more]
  refine Text.splitAll_joinChars h (List.append_ne_nil_of_right_ne_nil _ more) fun x mem => ?_
  rcases List.mem_append.mp mem with mem | mem
  · rcases List.mem_append.mp mem with mem | mem
    · exact Text.isLine_of_mem_splitAll h (List.mem_of_mem_take mem)
    · exact isLine_of_mem_bodyLines h mem
  · exact Text.isLine_of_mem_splitAll h (List.mem_of_mem_drop mem)

/-- A content with its last line finished is its finished lines, each with its ending. -/
theorem append_unfinished (s : List Char) :
    s ++ (if s = [] ∨ eol <:+ s then [] else eol) = (finishedLines eol s).flatMap (· ++ eol) := by
  have some := Text.splitAll_ne_nil eol s
  by_cases ends : s = [] ∨ eol <:+ s
  · have last := (Text.getLast?_splitAll h s).mpr ends
    have whole := Text.joinChars_eq (q := eol) some
    rw [Text.joinChars_splitAll, List.getLastD_eq_getLast?, last] at whole
    rw [if_pos ends, finishedLines, if_pos last, List.append_nil]
    exact whole.trans (List.append_nil _)
  · rw [if_neg ends, finishedLines, if_neg (mt (Text.getLast?_splitAll h s).mp ends),
      Text.flatMap_eq some, Text.joinChars_splitAll]

/-- A body at the end of a content comes behind its finished lines. -/
theorem splitAll_put_at_end (placed : place eol s rule.location = .ok s.length) :
    splitAll eol (s ++ piece eol s rule body s.length) =
      finishedLines eol s ++ bodyLines rule.endsLine body ++ lastLine rule.endsLine := by
  have some : bodyLines rule.endsLine body ++ lastLine rule.endsLine ≠ [] :=
    List.append_ne_nil_of_left_ne_nil (bodyLines_ne_nil _ _) _
  rw [piece_at_end placed, ← List.append_assoc s, append_unfinished h, bodyFor_eq,
    ← Text.joinChars_append _ some, List.append_assoc]
  refine Text.splitAll_joinChars h (List.append_ne_nil_of_right_ne_nil _ some) fun x mem => ?_
  rcases List.mem_append.mp mem with mem | mem
  · refine Text.isLine_of_mem_splitAll h (s := s) ?_
    unfold finishedLines at mem
    split at mem
    · exact List.dropLast_subset _ mem
    · exact mem
  rcases List.mem_append.mp mem with mem | mem
  · exact isLine_of_mem_bodyLines h mem
  · exact eq_nil_of_mem_lastLine mem ▸ Text.isLine_nil h

omit h

/-! ## What comes of a splice -/

variable {content : String} {body : String} {o : Outcome}

/-- A splice that is not needless puts the body at the place its rule names. -/
theorem apply_of_needed (h : needless content rule.skipIf = false) :
    apply content body rule =
      (place (lineEnding content.toList) content.toList rule.location).map fun n =>
        let result := content.toList.take n ++
          piece (lineEnding content.toList) content.toList rule body.toList n ++ content.toList.drop n
        { content := String.ofList result, changed := result != content.toList } := by
  rw [apply, if_neg (Bool.eq_false_iff.mp h)]

/-- Where there is a place the body is put there. -/
theorem exists_apply (body : String) (h : needless content rule.skipIf = false)
    (placed : place (lineEnding content.toList) content.toList rule.location = .ok n) :
    ∃ o, apply content body rule = .ok o ∧ o.skipped = false ∧
      o.content.toList = content.toList.take n ++
        piece (lineEnding content.toList) content.toList rule body.toList n ++
          content.toList.drop n := by
  refine ⟨_, (apply_of_needed h).trans (congrArg (Except.map _) placed), rfl, ?_⟩
  rw [String.toList_ofList]

/-- What comes of a splice is its content, or its content with the body put at the named place. -/
theorem apply_eq_ok (h : apply content body rule = .ok o) :
    (needless content rule.skipIf = true ∧ o.skipped = true ∧ o.content = content) ∨
      ∃ n, place (lineEnding content.toList) content.toList rule.location = .ok n ∧
        o.skipped = false ∧ o.content.toList = content.toList.take n ++
          piece (lineEnding content.toList) content.toList rule body.toList n ++
            content.toList.drop n := by
  cases needless : needless content rule.skipIf with
  | true =>
    rw [apply, if_pos needless] at h
    cases h
    exact .inl ⟨rfl, rfl, rfl⟩
  | false =>
    rcases placed : place (lineEnding content.toList) content.toList rule.location with f | n
    · rw [apply_of_needed needless, placed] at h
      cases h
    · obtain ⟨o', applied, unskipped, result⟩ := exists_apply body needless placed
      obtain rfl := Except.ok.inj (applied.symm.trans h)
      exact .inr ⟨n, rfl, unskipped, result⟩

/-- Where a rule puts the body, and what the content is cut into then.  In front of other text the
lines of the body come between those of the content; at the end an empty last line gives way to
them. -/
theorem apply_between_lines (h : apply content body rule = .ok o) (put : o.skipped = false) :
    let s := content.toList
    let eol := lineEnding s
    let lines := splitAll eol s
    let result := splitAll eol o.content.toList
    ∃ n, place eol s rule.location = .ok n ∧ n ≤ s.length ∧
      (∃ inserted, o.content.toList = s.take n ++ inserted ++ s.drop n) ∧
      (n < s.length → ∃ k, namedLine? eol s rule.location = some k ∧ k < lines.length ∧
        result = lines.take k ++ bodyLines rule.endsLine body.toList ++ lines.drop k) ∧
      (n = s.length →
        result = finishedLines eol s ++ bodyLines rule.endsLine body.toList ++
          lastLine rule.endsLine) := by
  intro s eol lines result
  rcases apply_eq_ok h with ⟨-, skipped, -⟩ | ⟨n, placed, -, content'⟩
  · rw [put] at skipped
    cases skipped
  refine ⟨n, placed, place_le placed, ⟨_, content'⟩, fun before => ?_, fun behind => ?_⟩
  · rcases place_eq_ok placed with ⟨k, named, start⟩ | ⟨-, last⟩
    · subst start
      have within : k < lines.length := by
        by_contra behind
        exact Nat.ne_of_lt before (startOfLine_of_le (Nat.not_lt.mp behind))
      exact ⟨k, named, within, (congrArg _ content').trans
        (splitAll_put (lineEnding_isBreak s) within before)⟩
    · exact absurd last (Nat.ne_of_lt before)
  · subst behind
    have appended : o.content.toList = s ++ piece eol s rule body.toList s.length := by
      rw [content', List.take_length, List.drop_length, List.append_nil]
    exact (congrArg _ appended).trans (splitAll_put_at_end (lineEnding_isBreak s) placed)

end Scaffold.Splice

/-! ## A body between two lines -/

namespace Scaffold.Inserted

open Splice

/-- Two lines that end with carriage return and line feed. -/
def old : String := "a\r\nb\r\n"

/-- Two lines behind the first one, the last of them without an ending. -/
def second : Rule := { location := .atLine (some 1), endsLine := false }

def new : Outcome := { content := "a\r\nx\r\ny\r\nb\r\n", changed := true }

theorem puts : apply old "x\ry" second = .ok new := by decide +kernel

/-- The body stands between the two lines, and its own line break has become one of theirs. -/
theorem second_and_third :
    ∃ n, place crlf old.toList second.location = .ok n ∧ n < old.toList.length ∧
      ∃ k, namedLine? crlf old.toList second.location = some k ∧
        Text.splitAll crlf new.content.toList =
          (Text.splitAll crlf old.toList).take k ++ bodyLines false ("x\ry").toList ++
            (Text.splitAll crlf old.toList).drop k := by
  have ending : lineEnding old.toList = crlf := by decide +kernel
  obtain ⟨n, placed, -, -, before, -⟩ := apply_between_lines puts rfl
  rw [ending] at placed before
  have start : n = 3 := by
    have third : place crlf old.toList second.location = .ok 3 := by decide +kernel
    exact Except.ok.inj (placed.symm.trans third)
  have more : n < old.toList.length := by
    rw [start]
    decide +kernel
  obtain ⟨k, named, -, cut⟩ := before more
  exact ⟨n, placed, more, k, named, cut⟩

end Scaffold.Inserted
