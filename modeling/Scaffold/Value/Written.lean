import Scaffold.Value
import Scaffold.Text.Letter
import Scaffold.Text.Search

/-!
# Values as text

Two texts of a value.  The *literal* text is the one in which messages quote it: texts in quotes
with escapes, lists in brackets, mappings in braces.  The *plain* text is the one that stands in
prose and templates: a text is itself, everything else is its literal.

A text is quoted with single quotes unless it holds one and no double quote.  The quote and the
backslash are escaped; a line feed, carriage return and tab have short escapes; any other character
that is not printable is written by its code in two, four or eight hexadecimal digits.
-/

namespace Scaffold

namespace Quoted

/-- `n` in at least `width` hexadecimal digits. -/
def hex (width n : Nat) : List Char :=
  let ds := Nat.toDigits 16 n
  List.replicate (width - ds.length) '0' ++ ds

/-- One character inside quotes `q`. -/
def escape (q c : Char) : List Char :=
  if c == q || c == '\\' then ['\\', c]
  else if c == '\n' then ['\\', 'n']
  else if c == '\r' then ['\\', 'r']
  else if c == '\t' then ['\\', 't']
  else if Text.isPrintable c then [c]
  else if c.toNat < 0x100 then '\\' :: 'x' :: hex 2 c.toNat
  else if c.toNat < 0x10000 then '\\' :: 'u' :: hex 4 c.toNat
  else '\\' :: 'U' :: hex 8 c.toNat

/-- The quote a text is written in. -/
def quote (s : List Char) : Char := if s.contains '\'' && !s.contains '"' then '"' else '\''

/-- The text in quotes. -/
def chars (s : List Char) : List Char :=
  let q := quote s
  q :: s.flatMap (escape q) ++ [q]

end Quoted

/-- A text in quotes. -/
def quoted (s : String) : String := String.ofList (Quoted.chars s.toList)

namespace Moment

/-- A span of seconds as messages quote it. -/
def spanLiteral (span : Int) : String :=
  let days := Int.fdiv span 86400
  let seconds := Int.fmod span 86400
  let parts := (if days = 0 then [] else ["days=" ++ intText days]) ++
    (if seconds = 0 then [] else ["seconds=" ++ intText seconds])
  "datetime.timedelta(" ++ Text.join ", " parts ++ ")"

/-- An offset from universal time as messages quote it. -/
def offsetLiteral (o : Int) : String :=
  if o = 0 then "datetime.timezone.utc" else "datetime.timezone(" ++ spanLiteral o ++ ")"

/-- A moment as messages quote it. -/
def literal : Moment → String
  | .day y m d => "datetime.date(" ++ Text.join ", " ([y, m, d].map toString) ++ ")"
  | .time y m d h mi s us o =>
    let fields := [y, m, d, h, mi] ++
      (if s = 0 && us = 0 then [] else [s]) ++ (if us = 0 then [] else [us])
    let zone := (o.map fun o => ", tzinfo=" ++ offsetLiteral o).getD ""
    "datetime.datetime(" ++ Text.join ", " (fields.map toString) ++ zone ++ ")"

end Moment

namespace Value

mutual

/-- The literal text of a value. -/
def literal : Value → String
  | .null => "None"
  | .bool b => if b then "True" else "False"
  | .int n => intText n
  | .float x => x.full
  | .str s => quoted s
  | .moment t => t.literal
  | .list items => "[" ++ Text.join ", " (literalItems items) ++ "]"
  | .dict entries => "\x7b" ++ Text.join ", " (literalEntries entries) ++ "\x7d"

/-- The literal texts of the items of a list. -/
def literalItems : List Value → List String
  | [] => []
  | v :: vs => literal v :: literalItems vs

/-- The literal texts of the entries of a mapping. -/
def literalEntries : List (Key × Value) → List String
  | [] => []
  | (k, v) :: es => (literalKey k ++ ": " ++ literal v) :: literalEntries es

/-- The literal text of a key. -/
def literalKey : Key → String
  | .null => "None"
  | .bool b => if b then "True" else "False"
  | .int n => intText n
  | .float x => x.full
  | .str s => quoted s
  | .moment t => t.literal

end

/-- The plain text of a value. -/
def plain : Value → String
  | .str s => s
  | .moment t => t.text " "
  | v => literal v

end Value

/-- The plain text of a key. -/
def Key.plain (k : Key) : String := k.toValue.plain

end Scaffold
