/-!
# Blanks and line breaks

The characters that count as white space, and the trimming of texts by them.  There are 29: the
ASCII blanks and separators 0x09–0x0d and 0x1c–0x20, the next-line control, and the Unicode space,
line and paragraph separators.  The zero-width space and the byte order mark are not among them.

Every function works on lists of characters; the `String` forms only wrap them.
-/

namespace Scaffold.Text

/-- Whether a character is white space. -/
def isBlank (c : Char) : Bool :=
  let n := c.toNat
  (9 ≤ n && n ≤ 13) || (28 ≤ n && n ≤ 32) || n == 0x85 || n == 0xa0 || n == 0x1680
    || (0x2000 ≤ n && n ≤ 0x200a) || n == 0x2028 || n == 0x2029 || n == 0x202f || n == 0x205f
    || n == 0x3000

/-- Drops the blanks at the front. -/
def trimLeft (s : List Char) : List Char := s.dropWhile isBlank

/-- Drops the characters at the back that satisfy `p`. -/
def dropBack (p : Char → Bool) (s : List Char) : List Char := (s.reverse.dropWhile p).reverse

/-- Drops the blanks at the back. -/
def trimRight (s : List Char) : List Char := dropBack isBlank s

/-- Drops the blanks at both ends. -/
def trimChars (s : List Char) : List Char := trimRight (trimLeft s)

/-- Drops the blanks at both ends of a string. -/
def trim (s : String) : String := String.ofList (trimChars s.toList)

/-- Whether a string holds nothing but blanks. -/
def isBlankString (s : String) : Bool := s.toList.all isBlank

@[simp] theorem trimLeft_nil : trimLeft [] = [] := rfl

@[simp] theorem dropBack_nil (p : Char → Bool) : dropBack p [] = [] := rfl

/-- What is dropped at the back stood there. -/
theorem dropBack_append_dropped (p : Char → Bool) (s : List Char) :
    dropBack p s ++ (s.reverse.takeWhile p).reverse = s := by
  rw [dropBack, ← List.reverse_append, List.takeWhile_append_dropWhile, List.reverse_reverse]

theorem length_dropBack_le (p : Char → Bool) (s : List Char) : (dropBack p s).length ≤ s.length := by
  have parts := congrArg List.length (dropBack_append_dropped p s)
  rw [List.length_append] at parts
  omega

theorem dropBack_concat_of_pos {p : Char → Bool} {c : Char} (h : p c = true) (s : List Char) :
    dropBack p (s ++ [c]) = dropBack p s := by
  rw [dropBack, List.reverse_append, List.reverse_singleton, List.singleton_append,
    List.dropWhile_cons_of_pos h, dropBack]

theorem dropBack_concat_of_neg {p : Char → Bool} {c : Char} (h : p c = false) (s : List Char) :
    dropBack p (s ++ [c]) = s ++ [c] := by
  rw [dropBack, List.reverse_append, List.reverse_singleton, List.singleton_append,
    List.dropWhile_cons_of_neg (by simp [h]), List.reverse_cons, List.reverse_reverse]

/-- Nothing is trimmed from a text between characters that are no blanks. -/
theorem trimChars_between {c d : Char} (front : isBlank c = false) (back : isBlank d = false) (s : List Char) :
    trimChars (c :: (s ++ [d])) = c :: (s ++ [d]) := by
  rw [trimChars, trimLeft, List.dropWhile_cons_of_neg (by simp [front]), trimRight, ← List.cons_append]
  exact dropBack_concat_of_neg back (c :: s)

/-- A trimmed text does not start with a blank. -/
theorem head_trimLeft {s r : List Char} {c : Char} (h : trimLeft s = c :: r) :
    isBlank c = false := by
  have := List.head?_dropWhile_not isBlank s
  unfold trimLeft at h
  simpa [h] using this

/-! ## Line breaks -/

/-- A text with all its line breaks as line feeds: a carriage return, alone or with a line feed
behind it, becomes one. -/
def unifyBreaks : List Char → List Char
  | [] => []
  | '\r' :: '\n' :: s => '\n' :: unifyBreaks s
  | c :: s => (if c = '\r' then '\n' else c) :: unifyBreaks s

/-- A string with all its line breaks as line feeds. -/
def withLineFeeds (s : String) : String := String.ofList (unifyBreaks s.toList)

end Scaffold.Text
