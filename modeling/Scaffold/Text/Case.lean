import Scaffold.Text.CaseTable
import Scaffold.Text.Letter

/-!
# Case

Capital and lower forms of texts by the full Unicode mappings: a character may become several, and
a capital sigma that ends a word becomes the final small sigma.
-/

namespace Scaffold.Text

/-- The image of `n` under a table of runs. -/
def mapRun (runs : Array (Nat × Nat × Nat × Int)) (n : Nat) : Option Nat :=
  (runs.find? fun r => r.1 ≤ n && n ≤ r.2.1 && (n - r.1) % r.2.2.1 == 0).map fun r =>
    (Int.ofNat n + r.2.2.2).toNat

/-- The capital form of one character. -/
def upperChar (c : Char) : List Char :=
  let n := c.toNat
  if n < 128 then [if isSmall c then Char.ofNat (n - 32) else c]
  else
    match upperSequences.find? (·.1 == n) with
    | some (_, s) => s.map Char.ofNat
    | none => [Char.ofNat ((mapRun upperRuns n).getD n)]

/-- The lower form of one character, a capital sigma read as not final. -/
def lowerChar (c : Char) : List Char :=
  let n := c.toNat
  if n < 128 then [if isCapital c then Char.ofNat (n + 32) else c]
  else if n == 0x130 then ['i', Char.ofNat 0x307]
  else [Char.ofNat ((mapRun lowerRuns n).getD n)]

/-- Whether a character has case. -/
def isCased (c : Char) : Bool :=
  if c.toNat < 128 then isCapital c || isSmall c else inRanges casedRanges c.toNat

/-- Whether a character is transparent to case. -/
def isCaseIgnorable (c : Char) : Bool :=
  if c.toNat < 128 then
    c == '\'' || c == '.' || c == ':' || c == '^' || c.toNat == 96
  else inRanges caseIgnorableRanges c.toNat

/-- Whether the first character not transparent to case has case. -/
def meetsCased (s : List Char) : Bool :=
  match s.dropWhile isCaseIgnorable with
  | [] => false
  | c :: _ => isCased c

/-- Lower forms of the rest of a text, of which `before` is the part already read, last character
first. -/
def lowerAfter (before : List Char) : List Char → List Char
  | [] => []
  | c :: rest =>
    let image :=
      if c.toNat == 0x3a3 then
        [Char.ofNat (if meetsCased before && !meetsCased rest then 0x3c2 else 0x3c3)]
      else lowerChar c
    image ++ lowerAfter (c :: before) rest

/-- The text in capitals. -/
def upper (s : String) : String := String.ofList (s.toList.flatMap upperChar)

/-- The text in lower case. -/
def lower (s : String) : String := String.ofList (lowerAfter [] s.toList)

end Scaffold.Text
