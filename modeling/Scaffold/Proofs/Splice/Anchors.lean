import Scaffold.Proofs.Pattern.Spans
import Scaffold.Proofs.Splice.Lines

/-!
# A splice next to an anchor

The first line that a pattern matches on its own is its anchor; where there is none, the line that
holds the first or the last character of a match in the whole content.  A match of a line lies in this
line, and a match in the content begins or ends in the line that holds its character, the ending
included.  So the start of the anchor is not inside a match that begins there or further on, and the
start of the line behind it not inside one that ends in it: a body never comes between two characters
of what its pattern found.
-/

namespace Scaffold.Splice

open Text (splitAll joinChars firstLines OnLine)

variable {eol s : List Char} {pattern : String} {after : Bool} {k a z n : Nat}

/-! ## Anchors -/

/-- Where the character of a match stands that anchors it: the first one, or the last one when a body
goes behind.  An empty match has none and is anchored where it is. -/
def anchoring (after : Bool) (m : Pattern.Match) : Nat :=
  if after then (if m.start < m.stop then m.stop - 1 else m.stop) else m.start

/-- A line is the anchor of a pattern, found between two places of the content. -/
inductive Anchors (eol s : List Char) (pattern : String) (after : Bool) : (k a z : Nat) → Prop where
  /-- The pattern matches the line on its own, and none in front of it. -/
  | alone {k : Nat} {m : Pattern.Match} (within : k < (splitAll eol s).length)
      (found : (anchorPattern pattern).search? (splitAll eol s)[k] = some m)
      (first : ∀ (j : Nat) (less : j < k),
        (anchorPattern pattern).search? (splitAll eol s)[j] = none) :
      Anchors eol s pattern after k ((firstLines eol (splitAll eol s) k).length + m.start)
        ((firstLines eol (splitAll eol s) k).length + m.stop)
  /-- The pattern matches no line on its own but the whole content, and the line holds a character of
  the match. -/
  | spanning {k : Nat} {m : Pattern.Match}
      (apart : ∀ line ∈ splitAll eol s, (anchorPattern pattern).search? line = none)
      (found : (spanningPattern pattern).search? s = some m)
      (holds : OnLine eol (splitAll eol s) k (anchoring after m)) :
      Anchors eol s pattern after k m.start m.stop

/-- The pattern matches neither a line nor the whole content. -/
def Unmatched (eol s : List Char) (pattern : String) : Prop :=
  (∀ line ∈ splitAll eol s, (anchorPattern pattern).search? line = none) ∧
    (spanningPattern pattern).search? s = none

theorem no_line_iff :
    (splitAll eol s).findIdx? (fun line => ((anchorPattern pattern).search? line).isSome) = none ↔
      ∀ line ∈ splitAll eol s, (anchorPattern pattern).search? line = none := by
  simp [List.findIdx?_eq_none_iff]

/-- An anchor is one of the lines. -/
theorem Anchors.line_lt (h : Anchors eol s pattern after k a z) : k < (splitAll eol s).length := by
  cases h with
  | alone within found first => exact within
  | spanning apart found holds => exact holds.1

/-- Where nothing matches no line is anchored. -/
theorem anchorLine?_eq_none :
    anchorLine? eol s pattern after = none ↔ Unmatched eol s pattern := by
  rw [anchorLine?, Unmatched, ← no_line_iff]
  cases (splitAll eol s).findIdx? fun line => ((anchorPattern pattern).search? line).isSome with
  | none => simp
  | some k => simp

section Lines

variable (breaks : Text.IsBreak eol)

include breaks

/-- The anchor is the line that the pattern anchors. -/
theorem Anchors.anchorLine?_eq (h : Anchors eol s pattern after k a z) :
    anchorLine? eol s pattern after = some k := by
  cases h with
  | alone within found first =>
    have index : (splitAll eol s).findIdx? (fun line =>
        ((anchorPattern pattern).search? line).isSome) = some k := by
      refine List.findIdx?_eq_some_iff_getElem.mpr ⟨within, by rw [found]; rfl, fun j less => ?_⟩
      rw [first j less]
      decide
    rw [anchorLine?, index]
  | spanning apart found holds =>
    rw [anchorLine?, no_line_iff.mpr apart, found]
    exact congrArg some ((Text.onLine_count breaks s _).unique holds)

theorem exists_anchors (h : anchorLine? eol s pattern after = some k) :
    ∃ a z, Anchors eol s pattern after k a z := by
  unfold anchorLine? at h
  dsimp only at h
  split at h
  next i index =>
    cases h
    obtain ⟨within, matched, first⟩ := List.findIdx?_eq_some_iff_getElem.mp index
    obtain ⟨m, found⟩ := Option.isSome_iff_exists.mp matched
    refine ⟨_, _, .alone within found fun j less => ?_⟩
    simpa using first j less
  next index =>
    obtain ⟨m, found, rfl⟩ := Option.map_eq_some_iff.mp h
    exact ⟨_, _, .spanning (no_line_iff.mp index) found (Text.onLine_count breaks s _)⟩

end Lines

/-- What is put in front of the anchor or behind it is not inside the match. -/
theorem Anchors.not_inside (h : Anchors eol s pattern after k a z)
    (place : n = (firstLines eol (splitAll eol s) (if after then k + 1 else k)).length) :
    ¬ (a < n ∧ n < z) := by
  rintro ⟨begun, unended⟩
  cases h with
  | alone within found first =>
    have span := Pattern.Compiled.search?_within found
    cases after with
    | false =>
      simp only [Bool.false_eq_true, if_false] at place
      omega
    | true =>
      have line := Text.length_firstLines_le eol within
      simp only [if_true] at place
      omega
  | spanning apart found holds =>
    have span := Pattern.Compiled.search?_within found
    obtain ⟨within, start, stop⟩ := holds
    cases after with
    | false =>
      simp only [anchoring, Bool.false_eq_true, if_false] at place start
      omega
    | true =>
      simp only [if_true] at place
      -- the last line ends with the content, and every other one in front of the next
      by_cases more : k + 1 < (splitAll eol s).length
      · have behind := stop more
        simp only [anchoring, if_true] at behind
        split at behind <;> omega
      · rw [Text.firstLines_of_le (Nat.not_lt.mp more), Text.joinChars_splitAll] at place
        omega

/-! ## A body next to its anchor -/

/-- The location next to the anchor of a pattern. -/
def nextTo (after : Bool) (pattern : String) : Location :=
  if after then .after pattern else .before pattern

theorem place_nextTo (eol s : List Char) (after : Bool) (pattern : String) :
    place eol s (nextTo after pattern) = anchoredPlace eol s pattern after := by
  cases after <;> rfl

theorem anchoredPlace_of_unmatched (nonempty : pattern ≠ "") (h : Unmatched eol s pattern) :
    anchoredPlace eol s pattern after = .error (.patternNotFound pattern) := by
  rw [anchoredPlace, if_neg nonempty, anchorLine?_eq_none.mpr h]

theorem Anchors.anchoredPlace_eq (breaks : Text.IsBreak eol) (nonempty : pattern ≠ "")
    (h : Anchors eol s pattern after k a z) :
    anchoredPlace eol s pattern after =
      .ok (firstLines eol (splitAll eol s) (if after then k + 1 else k)).length := by
  rw [anchoredPlace, if_neg nonempty, h.anchorLine?_eq breaks, ← startOfLine_eq]

/-- The start of the anchor is found among the starts of lines. -/
theorem Anchors.getElem?_lineStarts (h : Anchors eol s pattern after k a z) :
    (lineStarts eol s)[k]? = some (firstLines eol (splitAll eol s) k).length := by
  rw [lineStarts_eq, List.getElem?_map, List.getElem?_range h.line_lt, Option.map_some]

/-- A body goes next to the line that anchors the pattern of its rule. -/
theorem apply_next_to_anchor (content body : String) {rule : Rule} (nonempty : pattern ≠ "")
    (location : rule.location = nextTo after pattern) :
    let s := content.toList
    let eol := lineEnding s
    let lines := splitAll eol s
    (Unmatched eol s pattern ∧ place eol s rule.location = .error (.patternNotFound pattern) ∧
        (needless content rule.skipIf = false →
          apply content body rule = .error (.patternNotFound pattern))) ∨
      (∃ k a z, Anchors eol s pattern after k a z) ∧
        ∀ k a z, Anchors eol s pattern after k a z →
          let next := if after then k + 1 else k
          let n := (firstLines eol lines next).length
          (lineStarts eol s)[k]? = some (firstLines eol lines k).length ∧
          place eol s rule.location = .ok n ∧ ¬ (a < n ∧ n < z) ∧
          (needless content rule.skipIf = false →
            ∃ o inserted, apply content body rule = .ok o ∧ o.skipped = false ∧
              o.content.toList =
                firstLines eol lines next ++ inserted ++ joinChars eol (lines.drop next) ∧
              splitAll eol inserted = (if n < s.length then [] else unfinished eol s) ++
                bodyLines rule.endsLine body.toList ++
                  (if n < s.length then [[]] else lastLine rule.endsLine)) := by
  intro s eol lines
  have breaks : Text.IsBreak eol := lineEnding_isBreak s
  have same : place eol s rule.location = anchoredPlace eol s pattern after := by
    rw [location, place_nextTo]
  cases anchored : anchorLine? eol s pattern after with
  | none =>
    have unmatched := anchorLine?_eq_none.mp anchored
    have refused := same.trans (anchoredPlace_of_unmatched nonempty unmatched)
    refine .inl ⟨unmatched, refused, fun needed => ?_⟩
    rw [apply_of_needed needed, refused]
    rfl
  | some k =>
    obtain ⟨a, z, anchor⟩ := exists_anchors breaks anchored
    refine .inr ⟨⟨k, a, z, anchor⟩, ?_⟩
    intro k a z anchor next n
    have placed : place eol s rule.location = .ok n :=
      same.trans (anchor.anchoredPlace_eq breaks nonempty)
    refine ⟨anchor.getElem?_lineStarts, placed, anchor.not_inside rfl, fun needed => ?_⟩
    obtain ⟨o, applied, unskipped, result⟩ := exists_apply body needed placed
    obtain ⟨front, behind⟩ := cut_at_line eol s next
    rw [startOfLine_eq] at front behind
    rw [front, behind] at result
    exact ⟨o, _, applied, unskipped, result, splitAll_piece breaks placed⟩

end Scaffold.Splice

/-! ## A match that ends inside a line ending -/

namespace Scaffold.Halved

open Splice

def old : String := "a\r\nb\r\nc\r\n"

/-- The pattern takes the carriage return of an ending, so no line matches it on its own. -/
def behind : Rule := { location := .after "b\\r" }

theorem ending : lineEnding old.toList = crlf := by decide +kernel

theorem matched : ((spanningPattern "b\\r").search? old.toList).isSome = true := by decide +kernel

/-- The body goes behind the whole ending. -/
theorem behind_ending :
    ∃ k a z, Anchors crlf old.toList "b\\r" true k a z ∧ ¬ (a < 6 ∧ 6 < z) ∧
      place crlf old.toList behind.location = .ok 6 ∧
      ∃ o, apply old "x" behind = .ok o ∧ o.skipped = false := by
  have sixth : place crlf old.toList behind.location = .ok 6 := by decide +kernel
  have location : behind.location = nextTo true "b\\r" := rfl
  rcases apply_next_to_anchor old "x" (by decide) location with
    ⟨⟨-, unfound⟩, -⟩ | ⟨⟨k, a, z, anchor⟩, next⟩
  · have found := matched
    rw [unfound] at found
    cases found
  · obtain ⟨-, placed, apart, puts⟩ := next k a z anchor
    rw [ending] at anchor placed apart
    obtain ⟨o, -, applied, unskipped, -⟩ := puts rfl
    have same := Except.ok.inj (placed.symm.trans sixth)
    rw [same] at apart
    exact ⟨k, a, z, anchor, apart, sixth, o, applied, unskipped⟩

end Scaffold.Halved
