import Scaffold.Value.Written

/-!
# Writing JSON

The JSON text of a value, on one line or indented.  All characters are ASCII: others are written as
escapes of their UTF-16 units.  A point in time has no JSON form of its own; it is written as its
plain text, and callers that have to refuse it look for one first (`Value.unwritable`).
-/

namespace Scaffold

namespace Json

/-- An escape of one UTF-16 unit. -/
def unitEscape (n : Nat) : List Char := '\\' :: 'u' :: Quoted.hex 4 n

/-- One character inside a JSON string. -/
def escape (c : Char) : List Char :=
  let n := c.toNat
  if c == '"' || c == '\\' then ['\\', c]
  else if c == '\n' then ['\\', 'n']
  else if c == '\r' then ['\\', 'r']
  else if c == '\t' then ['\\', 't']
  else if n == 8 then ['\\', 'b']
  else if n == 12 then ['\\', 'f']
  else if 32 ≤ n && n < 127 then [c]
  else if n < 0x10000 then unitEscape n
  else
    let m := n - 0x10000
    unitEscape (0xd800 + m / 0x400) ++ unitEscape (0xdc00 + m % 0x400)

/-- A text as a JSON string. -/
def string (s : List Char) : List Char := '"' :: s.flatMap escape ++ ['"']

/-- A floating point number, with words for what is not finite. -/
def float : Binary64 → List Char
  | .nan => "NaN".toList
  | .infinite s => (if s then "-Infinity" else "Infinity").toList
  | x => x.full.toList

/-- A key as the text of a JSON name. -/
def name : Key → List Char
  | .null => "null".toList
  | .bool b => (if b then "true" else "false").toList
  | .int n => (intText n).toList
  | .float x => float x
  | .str s => s.toList
  | .moment t => (t.text " ").toList

mutual

/-- The JSON text of a value on one line. -/
def write : Value → List Char
  | .null => "null".toList
  | .bool b => (if b then "true" else "false").toList
  | .int n => (intText n).toList
  | .float x => float x
  | .str s => string s.toList
  | .moment t => string (t.text " ").toList
  | .list items => '[' :: writeItems items
  | .dict entries => '{' :: writeEntries entries

/-- The items of a list up to its closing bracket. -/
def writeItems : List Value → List Char
  | [] => [']']
  | [v] => write v ++ [']']
  | v :: w :: vs => write v ++ ',' :: ' ' :: writeItems (w :: vs)

/-- The entries of a mapping up to its closing brace. -/
def writeEntries : List (Key × Value) → List Char
  | [] => ['}']
  | [(k, v)] => string (name k) ++ ':' :: ' ' :: (write v ++ ['}'])
  | (k, v) :: e :: es =>
    string (name k) ++ ':' :: ' ' :: (write v ++ ',' :: ' ' :: writeEntries (e :: es))

end

/-- A line break followed by `depth` steps of two blanks. -/
def newLine (depth : Nat) : List Char := '\n' :: List.replicate (2 * depth) ' '

mutual

/-- The JSON text of a value, one entry a line, below `depth` levels. -/
def writeAt (depth : Nat) : Value → List Char
  | .list [] => ['[', ']']
  | .dict [] => ['{', '}']
  | .list (v :: vs) => '[' :: writeItemsAt (depth + 1) (v :: vs) ++ newLine depth ++ [']']
  | .dict (e :: es) => '{' :: writeEntriesAt (depth + 1) (e :: es) ++ newLine depth ++ ['}']
  | .null => "null".toList
  | .bool b => (if b then "true" else "false").toList
  | .int n => (intText n).toList
  | .float x => float x
  | .str s => string s.toList
  | .moment t => string (t.text " ").toList

/-- The items of a list, each on its line. -/
def writeItemsAt (depth : Nat) : List Value → List Char
  | [] => []
  | [v] => newLine depth ++ writeAt depth v
  | v :: w :: vs => newLine depth ++ writeAt depth v ++ ',' :: writeItemsAt depth (w :: vs)

/-- The entries of a mapping, each on its line. -/
def writeEntriesAt (depth : Nat) : List (Key × Value) → List Char
  | [] => []
  | [(k, v)] => newLine depth ++ string (name k) ++ ':' :: ' ' :: writeAt depth v
  | (k, v) :: e :: es =>
    newLine depth ++ string (name k) ++ ':' :: ' ' :: writeAt depth v ++
      ',' :: writeEntriesAt depth (e :: es)

end

/-- The JSON text of a value on one line. -/
def text (v : Value) : String := String.ofList (write v)

/-- The JSON text of a value, indented. -/
def indented (v : Value) : String := String.ofList (writeAt 0 v)

end Json

end Scaffold
