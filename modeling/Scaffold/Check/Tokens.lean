import Scaffold.Text.Letter
import Scaffold.Text.Search

/-!
# Tokens of Python source

Splits a source text into the tokens that its grammar is about: names, literals, operators, the ends
of logical lines, and the changes of indentation in front of them.  Inside brackets, and behind a
backslash, a line goes on.  A text that cannot be split has no tokens.

The content of a literal is not looked at beyond finding its end.
-/

namespace Scaffold

namespace Check

/-- A token. -/
inductive Token where
  | name (text : String)
  | literal
  | op (text : String)
  | lineEnd
  | indent
  | dedent
  deriving DecidableEq, Inhabited, Repr

namespace Token

/-- The operators and marks, the longer ones first. -/
def operators : List String :=
  ["**=", "//=", ">>=", "<<=", "...", "!=", "->", ":=", "+=", "-=", "*=", "/=", "%=", "@=", "&=",
    "|=", "^=", "**", "//", "<<", ">>", "<=", ">=", "==", "+", "-", "*", "/", "%", "@", "&", "|", "^",
    "~", "<", ">", "(", ")", "[", "]", "\x7b", "\x7d", ",", ":", ".", ";", "="]

/-- The operator that a text starts with, and what follows. -/
def operator? (s : List Char) : Option (String × List Char) :=
  operators.findSome? fun o => (Text.afterStart? o.toList s).map (o, ·)

/-- What follows a string literal whose opening quote was just passed. -/
def behindShort? (quote : Char) : List Char → Option (List Char)
  | [] => none
  | '\\' :: _ :: rest => behindShort? quote rest
  | c :: rest => if c = quote then some rest else if c = '\n' then none else behindShort? quote rest

/-- What follows a string literal that three quotes opened. -/
def behindLong? (quote : Char) : List Char → Option (List Char)
  | [] => none
  | '\\' :: _ :: rest => behindLong? quote rest
  | c :: rest =>
    if c = quote && rest.take 2 == [quote, quote] then some (rest.drop 2) else behindLong? quote rest

/-- What follows a string literal that a text starts with. -/
def behindString? : List Char → Option (List Char)
  | [] => none
  | q :: rest =>
    if rest.take 2 == [q, q] then behindLong? q (rest.drop 2) else behindShort? q rest

/-- Digits, and marks between them. -/
def digits (p : Char → Bool) (s : List Char) : List Char × List Char :=
  s.span fun c => p c || c == '_'

/-- What follows an exponent, if there is one. -/
def behindExponent (s : List Char) : List Char :=
  match s with
  | c :: rest =>
    if c == 'e' || c == 'E' then
      let unsigned := match rest with
        | '+' :: r | '-' :: r => r
        | r => r
      let (ds, behind) := digits Text.isAsciiDigit unsigned
      if ds.isEmpty then s else behind
    else s
  | [] => []

/-- Whether digits are written as a number may be. -/
def wellWritten (ds : List Char) : Bool :=
  ds.head? != some '_' && ds.getLast? != some '_' && !Text.occurs ['_', '_'] ds

/-- What follows a number in a base. -/
def behindBased? (p : Char → Bool) (s : List Char) : Option (List Char) :=
  let (ds, rest) := digits p s
  if ds.isEmpty || !wellWritten (ds.dropWhile (· == '_')) then none else some rest

/-- What follows a decimal number. -/
def behindDecimal? (s : List Char) : Option (List Char) :=
  let (whole, rest) := digits Text.isAsciiDigit s
  let (part, behind) := match rest with
    | '.' :: r =>
      let (ds, r) := digits Text.isAsciiDigit r
      (some ds, r)
    | r => (none, r)
  let last := behindExponent behind
  let exact := part.isNone && last.length = behind.length
  let padded := exact && whole.head? == some '0' && whole.any fun c => c != '0' && c != '_'
  if !wellWritten whole || !(part.all wellWritten) || padded then none
  else match last with
    | 'j' :: r | 'J' :: r => some r
    | r => some r

/-- What follows a number that a text starts with; a letter may not follow at once. -/
def behindNumber? (s : List Char) : Option (List Char) := do
  let rest ← match s with
    | '0' :: c :: r =>
      if c == 'x' || c == 'X' then behindBased? (fun d => (Text.hexValue? d).isSome) r
      else if c == 'o' || c == 'O' then behindBased? (fun d => '0' ≤ d && d ≤ '7') r
      else if c == 'b' || c == 'B' then behindBased? (fun d => d == '0' || d == '1') r
      else behindDecimal? s
    | _ => behindDecimal? s
  if (rest.head?.map Text.isWord).getD false then none else some rest

/-- Whether a name may stand in front of a string literal and say how it is read. -/
def isStringMark (letters : List Char) : Bool :=
  ["r", "u", "b", "f", "br", "rb", "fr", "rf"].contains (String.ofList (letters.map Char.toLower))

/-- One token inside a line, and what follows. -/
def next? (s : List Char) : Option (Token × List Char) :=
  match s with
  | [] => none
  | c :: rest =>
    if c == '"' || c == '\x27' then (behindString? s).map (.literal, ·)
    else if Text.isAsciiDigit c || (c == '.' && (rest.head?.map Text.isAsciiDigit).getD false) then
      (behindNumber? s).map (.literal, ·)
    else if Text.isWord c then
      let (letters, behind) := s.span Text.isWord
      match behind with
      | q :: _ =>
        if (q == '"' || q == '\x27') && isStringMark letters then
          (behindString? behind).map (.literal, ·)
        else some (.name (String.ofList letters), behind)
      | [] => some (.name (String.ofList letters), [])
    else (operator? s).map fun (o, behind) => (.op o, behind)

/-- How far a line is indented; a tabulator goes on to the next multiple of eight. -/
def indentation : (column : Nat) → List Char → Nat × List Char
  | n, ' ' :: r => indentation (n + 1) r
  | n, '\t' :: r => indentation ((n / 8 + 1) * 8) r
  | _, '\x0c' :: r => indentation 0 r
  | n, r => (n, r)

/-- The tokens for a line that starts at a column, and the columns still open. -/
def indents? (opened : List Nat) (column : Nat) : Option (List Token × List Nat) :=
  let top := opened.headD 0
  if top < column then some ([.indent], column :: opened)
  else
    let kept := opened.dropWhile (column < ·)
    if kept.headD 0 = column then
      some (List.replicate (opened.length - kept.length) .dedent, kept)
    else none

/-- The tokens of a text.  `fresh` says that a line starts here, `depth` counts the brackets that are
open, and `opened` are the columns of the indented lines that this one is inside of. -/
def scan : (fuel : Nat) → (fresh : Bool) → (depth : Nat) → (opened : List Nat) → List Char →
    Option (List Token)
  | 0, _, _, _, _ => none
  | fuel + 1, true, depth, opened, s =>
    let (column, rest) := indentation 0 s
    match rest with
    | [] => some (List.replicate opened.length .dedent)
    | '\n' :: r => scan fuel true depth opened r
    | '#' :: r => scan fuel true depth opened ((r.dropWhile (· != '\n')).drop 1)
    | _ => do
      let (marks, opened) ← indents? opened column
      return marks ++ (← scan fuel false depth opened rest)
  | fuel + 1, false, depth, opened, s =>
    match s with
    | [] => if depth = 0 then (scan fuel true 0 opened []).map (.lineEnd :: ·) else none
    | '\n' :: r =>
      if depth = 0 then (scan fuel true 0 opened r).map (.lineEnd :: ·)
      else scan fuel false depth opened r
    | '\\' :: '\n' :: r => if r.isEmpty then none else scan fuel false depth opened r
    | '#' :: r => scan fuel false depth opened (r.dropWhile (· != '\n'))
    | c :: r =>
      if c == ' ' || c == '\t' || c == '\x0c' then scan fuel false depth opened r
      else do
        let (t, behind) ← next? s
        let depth ← match t with
          | .op o =>
            if ["(", "[", "\x7b"].contains o then some (depth + 1)
            else if [")", "]", "\x7d"].contains o then (if depth = 0 then none else some (depth - 1))
            else some depth
          | _ => some depth
        return t :: (← scan fuel false depth opened behind)

/-- The tokens of a source text. -/
def ofText? (text : List Char) : Option (List Token) := scan (2 * text.length + 3) true 0 [] text

end Token

end Check

end Scaffold
