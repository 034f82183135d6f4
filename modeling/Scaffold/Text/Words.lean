import Scaffold.Text.Case

/-!
# The words of a name

Splits an identifier into words and joins them again in the usual styles.  A word is a run of small
letters with at most one capital in front, a run of capitals, or a run of digits; in a run of
capitals that small letters follow, the last capital starts the next word (`HTTPServer` is `HTTP`,
`Server`).  Letters are the ASCII ones, digits those of every script, and everything else only
separates.

The split reads the name once from left to right and keeps the word begun so far.
-/

namespace Scaffold.Text

/-- The word begun so far, its characters last first. -/
inductive Begun where
  | nothing
  | capitals (run : List Char)
  | small (run : List Char)
  | digits (run : List Char)
  deriving DecidableEq, Inhabited, Repr

namespace Begun

/-- The word as it stands, if one was begun. -/
def finish : Begun → List (List Char)
  | nothing => []
  | capitals run | small run | digits run => [run.reverse]

/-- Reads one more character: the words it ends, and the word begun then. -/
def step (b : Begun) (c : Char) : List (List Char) × Begun :=
  if isCapital c then
    match b with
    | capitals run => ([], capitals (c :: run))
    | b => (b.finish, capitals [c])
  else if isSmall c then
    match b with
    | small run => ([], small (c :: run))
    | capitals [a] => ([], small [c, a])
    | capitals (a :: run) => ([run.reverse], small [c, a])
    | b => (b.finish, small [c])
  else if isDigit c then
    match b with
    | digits run => ([], digits (c :: run))
    | b => (b.finish, digits [c])
  else (b.finish, nothing)

end Begun

/-- The words of the rest of a name behind the word begun. -/
def wordsFrom (b : Begun) : List Char → List (List Char)
  | [] => b.finish
  | c :: s => let (done, b') := b.step c; done ++ wordsFrom b' s

/-- The words of a name. -/
def words (s : String) : List String := (wordsFrom .nothing s.toList).map String.ofList

/-- `s` with the full capital form of its first character, the rest as it is. -/
def upperFirst (s : String) : String :=
  match s.toList with
  | [] => ""
  | c :: r => String.ofList (upperChar c ++ r)

/-- `s` with the lower form of its first character, the rest as it is. -/
def lowerFirst (s : String) : String :=
  match s.toList with
  | [] => ""
  | c :: r => String.ofList (lowerChar c ++ r)

/-- A word with a capital in front and the rest small; words hold only ASCII letters or digits. -/
def capitalWord (w : String) : String := upperFirst (lower w)

end Scaffold.Text
