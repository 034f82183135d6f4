/-!
# Brackets

Whether the round, square and curly brackets of a text match.  Every bracket counts, also one inside
a string or a comment: the check is for texts that were cut off or garbled, not for a grammar.
-/

namespace Scaffold

namespace Check

/-- What is wrong with the brackets of a text. -/
inductive BracketFault where
  /-- A closing bracket without its opening one. -/
  | unbalanced (closing : Char)
  /-- An opening bracket that is never closed. -/
  | unclosed (opening : Char)
  deriving DecidableEq, Inhabited, Repr

/-- The wording of a fault. -/
def BracketFault.message : BracketFault → String
  | unbalanced c => "Unbalanced '" ++ c.toString ++ "'"
  | unclosed c => "Unclosed '" ++ c.toString ++ "'"

/-- The bracket that a closing bracket belongs to. -/
def opener? : Char → Option Char
  | ')' => some '('
  | ']' => some '['
  | '\x7d' => some '\x7b'
  | _ => none

/-- Whether a character is an opening bracket. -/
def isOpener (c : Char) : Bool := c == '(' || c == '[' || c == '\x7b'

/-- The first fault of a text behind the brackets still open, the innermost first. -/
def bracketFaultBehind? : (opened : List Char) → List Char → Option BracketFault
  | [], [] => none
  | o :: _, [] => some (.unclosed o)
  | opened, c :: rest =>
    if isOpener c then bracketFaultBehind? (c :: opened) rest
    else
      match opener? c with
      | none => bracketFaultBehind? opened rest
      | some o =>
        match opened with
        | [] => some (.unbalanced c)
        | top :: others => if top = o then bracketFaultBehind? others rest else some (.unbalanced c)

/-- The first fault in the brackets of a text. -/
def bracketFault? (text : List Char) : Option BracketFault := bracketFaultBehind? [] text

end Check

end Scaffold
