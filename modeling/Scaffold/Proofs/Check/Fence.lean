import Mathlib.Data.List.Basic
import Scaffold.Check.Fence

/-!
# Texts between the marks of a fence

A text that stands between the marks of a fence comes back as it is, whatever it holds: blank lines, grave
accents, fences of its own.  The fence closes where a line feed and its mark are all that is left apart from
blanks, and in front of the last character of a text that ends in no blank there is always more left than
that.  So neither a fence inside the text nor a last line that looks like one cuts it off.

A text in front of which there is no fence stays as it is.
-/

namespace Scaffold

namespace Check

variable {s found t after : List Char}

/-- The number of characters that are no blanks. -/
def inked (s : List Char) : Nat := s.countP fun c => !Text.isBlank c

theorem inked_append (s t : List Char) : inked (s ++ t) = inked s + inked t := List.countP_append

theorem inked_eq_zero : inked s = 0 ↔ s.all Text.isBlank = true := by
  simp [inked, List.countP_eq_zero]

/-! ## Where a fence closes -/

/-- Where a fence closes, a line feed and its mark are all that is left apart from blanks. -/
theorem exists_of_closes (h : closes s = true) :
    ∃ gap behind, s = '\n' :: (gap ++ (fenceMark ++ behind)) ∧ gap.all Text.isBlank = true ∧
      behind.all Text.isBlank = true := by
  unfold closes at h
  split at h
  next rest =>
    split at h
    next behind mark =>
      refine ⟨rest.takeWhile Text.isBlank, behind, ?_, List.all_takeWhile, h⟩
      rw [← Text.afterStart?_eq_some.mp mark, Text.trimLeft, List.takeWhile_append_dropWhile]
    next => cases h
  next => cases h

theorem inked_of_closes (h : closes s = true) : inked s = 3 := by
  obtain ⟨gap, behind, rfl, front, back⟩ := exists_of_closes h
  show inked (gap ++ (fenceMark ++ behind)) = 3
  rw [inked_append, inked_append, inked_eq_zero.mpr front, inked_eq_zero.mpr back]
  decide

theorem closes_feed_mark (blank : after.all Text.isBlank = true) :
    closes ('\n' :: (fenceMark ++ after)) = true := by
  have start : Text.trimLeft (fenceMark ++ after) = fenceMark ++ after := rfl
  have mark : Text.afterStart? fenceMark (fenceMark ++ after) = some after :=
    Text.afterStart?_eq_some.mpr rfl
  rw [closes, start, mark]
  exact blank

/-- The characters in front of the closing fence are followed by it. -/
theorem closes_of_untilClosed? (h : untilClosed? s = some found) :
    ∃ rest, s = found ++ rest ∧ closes rest = true := by
  induction s generalizing found with
  | nil => cases h
  | cons c s ih =>
    rw [untilClosed?] at h
    split at h
    next closed =>
      cases h
      exact ⟨c :: s, rfl, closed⟩
    next =>
      obtain ⟨front, rest, rfl⟩ := Option.map_eq_some_iff.mp h
      obtain ⟨behind, rfl, closed⟩ := ih rest
      exact ⟨behind, rfl, closed⟩

/-! ## The content -/

theorem untilClosed?_mark (blank : after.all Text.isBlank = true) : untilClosed? (fenceMark ++ after) = none := by
  rw [Option.eq_none_iff_forall_ne_some]
  intro found closed
  obtain ⟨rest, parts, closing⟩ := closes_of_untilClosed? closed
  have ink : inked fenceMark + inked after = inked found + inked rest := by
    rw [← inked_append, ← inked_append, parts]
  rw [inked_eq_zero.mpr blank, inked_of_closes closing] at ink
  -- nothing that is no blank stands in front, and so the closing fence would start with its mark
  have free : inked found = 0 := by
    have three : inked fenceMark = 3 := by decide
    omega
  cases found with
  | nil =>
    rw [List.nil_append] at parts
    obtain ⟨_, _, same, -⟩ := exists_of_closes closing
    rw [← parts] at same
    cases same
  | cons c found =>
    obtain rfl := (List.cons.inj parts).1
    exact absurd (List.all_eq_true.mp (inked_eq_zero.mp free) _ List.mem_cons_self) (by decide)

/-- A fence does not close in front of a character that is no blank and stands in front of its mark. -/
theorem not_closes {d : Char} (inky : Text.isBlank d = false) (front : List Char) :
    closes (front ++ d :: '\n' :: (fenceMark ++ after)) = false := by
  rw [Bool.eq_false_iff]
  intro closing
  have ink := inked_of_closes closing
  have one : inked [d] = 1 := by simp [inked, inky]
  have three : inked ('\n' :: fenceMark) = 3 := by decide
  have parts : front ++ d :: '\n' :: (fenceMark ++ after) = front ++ ([d] ++ ('\n' :: fenceMark ++ after)) := rfl
  rw [parts, inked_append, inked_append, inked_append] at ink
  omega

theorem untilClosed?_concat (blank : after.all Text.isBlank = true) {d : Char} (inky : Text.isBlank d = false)
    (front : List Char) :
    untilClosed? (front ++ d :: '\n' :: (fenceMark ++ after)) = some (front ++ [d]) := by
  have last : untilClosed? ('\n' :: (fenceMark ++ after)) = some [] := by
    rw [untilClosed?, if_pos (closes_feed_mark blank)]
  induction front with
  | nil =>
    rw [List.nil_append, untilClosed?, if_neg (by simpa using not_closes inky []), last]
    rfl
  | cons c front ih =>
    rw [List.cons_append, untilClosed?, if_neg (by simpa using not_closes inky (c :: front)), ih]
    rfl

/-- What is left of a text that is trimmed ends in no blank. -/
theorem eq_nil_or_concat_of_trimRight (h : Text.trimRight t = t) :
    t = [] ∨ ∃ front d, t = front ++ [d] ∧ Text.isBlank d = false := by
  rcases List.eq_nil_or_concat' t with rfl | ⟨front, d, rfl⟩
  · exact .inl rfl
  · refine .inr ⟨front, d, rfl, ?_⟩
    rw [Bool.eq_false_iff]
    intro blank
    have shorter := Text.length_dropBack_le Text.isBlank front
    rw [← Text.dropBack_concat_of_pos blank, ← Text.trimRight, h, List.length_append, List.length_singleton]
      at shorter
    omega

/-- A text that ends in no blank reaches up to the closing fence. -/
theorem untilClosed?_trimmed (blank : after.all Text.isBlank = true) (ends : Text.trimRight t = t) :
    untilClosed? (t ++ '\n' :: (fenceMark ++ after)) = some t := by
  rcases eq_nil_or_concat_of_trimRight ends with rfl | ⟨front, d, rfl, inky⟩
  · rw [List.nil_append, untilClosed?, if_pos (closes_feed_mark blank)]
  · rw [List.append_assoc]
    exact untilClosed?_concat blank inky front

/-- A text that starts with no blank is the content behind a line feed. -/
theorem content?_trimmed (blank : after.all Text.isBlank = true) (starts : Text.trimLeft t = t)
    (ends : Text.trimRight t = t) :
    content? ('\n' :: (t ++ '\n' :: (fenceMark ++ after))) = some t := by
  have feed : Text.isBlank '\n' = true := by decide
  have closed := untilClosed?_trimmed blank ends
  have none : content? (t ++ '\n' :: (fenceMark ++ after)) = none := by
    cases t with
    | nil =>
      have mark : content? (fenceMark ++ after) = none := rfl
      rw [List.nil_append, content?, if_pos feed, mark]
      exact untilClosed?_mark blank
    | cons c t =>
      rw [List.cons_append, content?, if_neg (by simp [Text.head_trimLeft starts])]
  rw [content?, if_pos feed, none]
  exact closed

/-! ## Texts in a fence -/

theorem fenced?_of_not_prefix (h : ¬fenceMark <+: Text.trimLeft s) : fenced? s = none := by
  rw [fenced?, Option.bind_eq_none_iff]
  intro behind mark
  exact absurd ⟨behind, (Text.afterStart?_eq_some.mp mark).symm⟩ h

theorem fenced?_wrapped {before tag : List Char} (front : before.all Text.isBlank = true)
    (word : tag.all isTagChar = true) (starts : Text.trimLeft t = t) (ends : Text.trimRight t = t)
    (blank : after.all Text.isBlank = true) :
    fenced? (before ++ (fenceMark ++ (tag ++ '\n' :: (t ++ '\n' :: (fenceMark ++ after))))) = some t := by
  have opening (rest : List Char) : Text.trimLeft (before ++ (fenceMark ++ rest)) = fenceMark ++ rest := by
    rw [Text.trimLeft, List.dropWhile_append_of_pos (List.all_eq_true.mp front)]
    rfl
  have tagged (rest : List Char) : (tag ++ '\n' :: rest).dropWhile isTagChar = '\n' :: rest := by
    rw [List.dropWhile_append_of_pos (List.all_eq_true.mp word), List.dropWhile_cons_of_neg (by decide)]
  rw [fenced?, opening, Text.afterStart?_eq_some.mpr rfl]
  show content? ((tag ++ '\n' :: _).dropWhile isTagChar) = some t
  rw [tagged]
  exact content?_trimmed blank starts ends

/-- A text without blanks at its ends has none at either. -/
theorem trimmed_ends (h : Text.trimChars t = t) : Text.trimLeft t = t ∧ Text.trimRight t = t := by
  have right := Text.length_dropBack_le Text.isBlank (Text.trimLeft t)
  have left : Text.trimLeft t = t := by
    refine (t.dropWhile_sublist Text.isBlank).eq_of_length_le ?_
    exact Nat.le_trans (Nat.le_of_eq (congrArg List.length h).symm) right
  refine ⟨left, ?_⟩
  rw [Text.trimChars, left] at h
  exact h

/-- A text without blanks at its ends that stands between the marks of a fence comes back whole, whatever the
tag of the fence is and whatever blanks stand around it.  A text that starts with no fence, blanks apart,
stays as it is. -/
theorem unfence_wrapped :
    (∀ before tag t after : String, Text.isBlankString before = true → tag.toList.all isTagChar = true →
        Text.trim t = t → Text.isBlankString after = true →
        unfence (before ++ "```" ++ tag ++ "\n" ++ t ++ "\n```" ++ after) = t) ∧
      ∀ text : String, ¬"```".toList <+: Text.trimLeft text.toList → unfence text = text := by
  constructor
  · intro before tag t after front word trimmed back
    have ends : Text.trimChars t.toList = t.toList := by
      rw [← String.toList_ofList (l := Text.trimChars t.toList)]
      exact congrArg String.toList trimmed
    obtain ⟨left, right⟩ := trimmed_ends ends
    have parts : (before ++ "```" ++ tag ++ "\n" ++ t ++ "\n```" ++ after).toList =
        before.toList ++ (fenceMark ++ (tag.toList ++ '\n' :: (t.toList ++ '\n' :: (fenceMark ++ after.toList)))) := by
      have opening : "```".toList = fenceMark := by decide
      have closing : "\n```".toList = '\n' :: fenceMark := by decide
      simp [opening, closing]
    rw [unfence, parts, fenced?_wrapped front word left right back]
    exact String.ofList_toList
  · intro text other
    rw [unfence, fenced?_of_not_prefix other]

namespace Paged

/-- A text with a blank line, a fence of its own and a last line that looks like one. -/
def page : String := "Run it:\n\n```sh\nmake\n```\n`` `"

/-- It comes back from a fence with a tag and blanks around it, and stays as it is without one. -/
theorem page_kept :
    unfence (" \n" ++ "```" ++ "c++-20" ++ "\n" ++ page ++ "\n```" ++ "\t\n") = page ∧ unfence page = page :=
  ⟨unfence_wrapped.1 _ _ _ _ (by decide) (by decide) (by decide) (by decide),
    unfence_wrapped.2 _ (by decide)⟩

end Paged

end Check

end Scaffold
