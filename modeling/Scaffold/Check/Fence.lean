import Scaffold.Text.Letter
import Scaffold.Text.Search
import Scaffold.Text.Blank

/-!
# Fences

A model often wraps its reply in a fence: three grave accents and perhaps a tag on a line of their
own, the content, and three grave accents again.  Where one fence wraps the whole text, blanks around
it apart, the content between is what was meant.

The content ends where only a line feed, blanks, the closing fence and blanks are left, so that a
fence inside the content belongs to it.
-/

namespace Scaffold

namespace Check

/-- The mark that opens and closes a fence. -/
def fenceMark : List Char := List.replicate 3 (Char.ofNat 96)

/-- A character of the tag behind an opening fence. -/
def isTagChar (c : Char) : Bool := Text.isWord c || c == '+' || c == '-'

/-- Whether a line feed, blanks, the closing fence and blanks are all that is left. -/
def closes : List Char → Bool
  | '\n' :: rest =>
    match Text.afterStart? fenceMark (Text.trimLeft rest) with
    | some behind => behind.all Text.isBlank
    | none => false
  | _ => false

/-- The characters in front of the first place where the fence closes. -/
def untilClosed? : List Char → Option (List Char)
  | [] => none
  | c :: rest => if closes (c :: rest) then some [] else (untilClosed? rest).map (c :: ·)

/-- The content behind an opening fence and its tag.  It starts behind the last line feed of the
blanks that follow, or behind an earlier one if the fence would not close otherwise. -/
def content? : List Char → Option (List Char)
  | [] => none
  | c :: rest =>
    if Text.isBlank c then
      match content? rest with
      | some found => some found
      | none => if c = '\n' then untilClosed? rest else none
    else none

/-- The content of a fence that wraps the whole text. -/
def fenced? (text : List Char) : Option (List Char) :=
  (Text.afterStart? fenceMark (Text.trimLeft text)).bind fun behind =>
    content? (behind.dropWhile isTagChar)

/-- A text without the fence that wraps it, if there is one. -/
def unfence (text : String) : String :=
  match fenced? text.toList with
  | some inner => String.ofList inner
  | none => text

end Check

end Scaffold
