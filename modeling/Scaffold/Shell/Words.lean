import Scaffold.Text.Letter
import Scaffold.Text.Search

/-!
# Words of a command line

A word is quoted with single quotes unless it holds only letters, digits and a few signs; a single
quote inside goes between double quotes.  Splitting undoes this and reads the other ways of quoting
too: inside double quotes a backslash takes away the meaning of a double quote and of a backslash,
outside quotes that of any character.
-/

namespace Scaffold

namespace Shell

/-! ## Quoting -/

/-- A character that needs no quotes. -/
def isSafe (c : Char) : Bool :=
  Text.isCapital c || Text.isSmall c || Text.isAsciiDigit c || "_@%+=:,./-".toList.contains c

/-- A single quote inside single quotes. -/
def innerQuote : List Char := ['\'', '"', '\'', '"', '\'']

/-- A word as it stands on a command line. -/
def quoteChars (s : List Char) : List Char :=
  if s.isEmpty then ['\'', '\'']
  else if s.all isSafe then s
  else '\'' :: s.flatMap (fun c => if c == '\'' then innerQuote else [c]) ++ ['\'']

/-- A word as it stands on a command line. -/
def quote (s : String) : String := String.ofList (quoteChars s.toList)

/-! ## Splitting -/

/-- Why a command line has no words. -/
inductive WordFault where
  | openQuote
  | openEscape
  deriving DecidableEq, Inhabited, Repr

/-- The wording of a fault. -/
def WordFault.message : WordFault → String
  | .openQuote => "No closing quotation"
  | .openEscape => "No escaped character"

/-- Where the reader of words is. -/
inductive Mode where
  | between
  | word
  | single
  | double
  /-- Behind a backslash outside quotes. -/
  | escape
  /-- Behind a backslash inside double quotes. -/
  | doubleEscape
  deriving DecidableEq, Inhabited, Repr

/-- A blank that ends a word. -/
def endsWord (c : Char) : Bool := c == ' ' || c == '\t' || c == '\n' || c == '\r'

/-- The words behind a word begun, last character first. -/
def splitFrom : Mode → (begun : List Char) → List Char → Except WordFault (List (List Char))
  | .between, _, [] => .ok []
  | .word, begun, [] => .ok [begun.reverse]
  | .single, _, [] | .double, _, [] => .error .openQuote
  | .escape, _, [] | .doubleEscape, _, [] => .error .openEscape
  | .between, begun, c :: s =>
    if endsWord c then splitFrom .between begun s
    else if c == '\'' then splitFrom .single [] s
    else if c == '"' then splitFrom .double [] s
    else if c == '\\' then splitFrom .escape [] s
    else splitFrom .word [c] s
  | .word, begun, c :: s =>
    if endsWord c then (splitFrom .between [] s).map (begun.reverse :: ·)
    else if c == '\'' then splitFrom .single begun s
    else if c == '"' then splitFrom .double begun s
    else if c == '\\' then splitFrom .escape begun s
    else splitFrom .word (c :: begun) s
  | .single, begun, c :: s =>
    if c == '\'' then splitFrom .word begun s else splitFrom .single (c :: begun) s
  | .double, begun, c :: s =>
    if c == '"' then splitFrom .word begun s
    else if c == '\\' then splitFrom .doubleEscape begun s
    else splitFrom .double (c :: begun) s
  | .escape, begun, c :: s => splitFrom .word (c :: begun) s
  | .doubleEscape, begun, c :: s =>
    splitFrom .double (if c == '"' || c == '\\' then c :: begun else c :: '\\' :: begun) s

/-- The words of a command line. -/
def split (s : String) : Except WordFault (List String) :=
  (splitFrom .between [] s.toList).map fun ws => ws.map String.ofList

end Shell

end Scaffold
