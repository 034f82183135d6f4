import Scaffold.Value
import Scaffold.Number.Reader

/-!
# Reading JSON

A reader of JSON text that also takes the words for numbers that are not finite.  Of entries with
the same name the last one counts, at the place of the first.  A number with a point or an exponent
is a floating point number, any other an exact integer.

A fault carries its cause and the number of characters that were still unread there; the wrapper
`read` turns that into a line, a column and an offset.  An escape for half of a surrogate pair
without its partner has no character and reads as the replacement character.
-/

namespace Scaffold

namespace Json

/-- What can be wrong with a JSON text. -/
inductive Cause where
  | expectingValue
  | expectingName
  | expectingColon
  | expectingComma
  | extraData
  | unterminatedString
  | controlCharacter
  | badEscape
  | badUnicodeEscape
  | byteOrderMark
  deriving DecidableEq, Inhabited, Repr

/-- The wording of a cause. -/
def Cause.text : Cause → String
  | .expectingValue => "Expecting value"
  | .expectingName => "Expecting property name enclosed in double quotes"
  | .expectingColon => "Expecting ':' delimiter"
  | .expectingComma => "Expecting ',' delimiter"
  | .extraData => "Extra data"
  | .unterminatedString => "Unterminated string starting at"
  | .controlCharacter => "Invalid control character at"
  | .badEscape => "Invalid \\escape"
  | .badUnicodeEscape => "Invalid \\uXXXX escape"
  | .byteOrderMark => "Unexpected UTF-8 BOM (decode using utf-8-sig)"

/-- A cause and the place where it was met; lines and columns count from one. -/
structure Error where
  cause : Cause
  line : Nat
  column : Nat
  offset : Nat
  deriving DecidableEq, Inhabited, Repr

/-- The message of an error. -/
def Error.message (e : Error) : String :=
  e.cause.text ++ ": line " ++ toString e.line ++ " column " ++ toString e.column ++
    " (char " ++ toString e.offset ++ ")"

/-- A cause with the number of characters unread where it was met. -/
abbrev Fault := Cause × Nat

/-- What was read and the rest of the text, or a fault. -/
abbrev Step (α : Type) := Except Fault (α × List Char)

/-- White space between tokens. -/
def isGap (c : Char) : Bool := c == ' ' || c == '\t' || c == '\n' || c == '\r'

/-- Drops white space between tokens. -/
def skipGap (s : List Char) : List Char := s.dropWhile isGap

/-- The number that four hexadecimal digits write. -/
def unit? (a b c d : Char) : Option Nat := do
  let a ← Text.hexValue? a
  let b ← Text.hexValue? b
  let c ← Text.hexValue? c
  let d ← Text.hexValue? d
  some (((a * 16 + b) * 16 + c) * 16 + d)

/-- The character of a short escape. -/
def shortEscape? (c : Char) : Option Char :=
  if c == '"' || c == '\\' || c == '/' then some c
  else if c == 'b' then some (Char.ofNat 8)
  else if c == 'f' then some (Char.ofNat 12)
  else if c == 'n' then some '\n'
  else if c == 'r' then some '\r'
  else if c == 't' then some '\t'
  else none

/-- The character of a UTF-16 unit that stands alone. -/
def loneUnit (n : Nat) : Char :=
  if 0xd800 ≤ n && n ≤ 0xdfff then Char.ofNat 0xfffd else Char.ofNat n

/-- The character of a surrogate pair. -/
def pairUnit (high low : Nat) : Char :=
  Char.ofNat (0x10000 + (high - 0xd800) * 0x400 + (low - 0xdc00))

/-- The low half of a surrogate pair that stands at the front as an escape and does not end the
text; a second escape that is not hexadecimal is a fault. -/
def lowUnit? : List Char → Except Fault (Option Nat)
  | '\\' :: 'u' :: a :: b :: c :: d :: e :: rest =>
    match unit? a b c d with
    | none => .error (.badUnicodeEscape, (e :: rest).length + 5)
    | some m => .ok (if 0xdc00 ≤ m && m ≤ 0xdfff then some m else none)
  | _ => .ok none

/-- The rest of a string behind its opening quote, which stood `opened` characters before the end
of the text; `skip` characters are still to be passed over, and `acc` holds what was read, last
character first. -/
def readString (opened : Nat) : (skip : Nat) → (acc : List Char) → List Char → Step (List Char)
  | _, _, [] => .error (.unterminatedString, opened)
  | skip + 1, acc, _ :: rest => readString opened skip acc rest
  | 0, acc, '"' :: rest => .ok (acc.reverse, rest)
  | 0, acc, '\\' :: 'u' :: a :: b :: c :: d :: rest =>
    match unit? a b c d with
    | none => .error (.badUnicodeEscape, rest.length + 5)
    | some n =>
      if rest.isEmpty then .error (.badUnicodeEscape, rest.length + 5)
      else if 0xd800 ≤ n && n ≤ 0xdbff then
        match lowUnit? rest with
        | .error f => .error f
        | .ok (some m) => readString opened 6 (pairUnit n m :: acc) rest
        | .ok none => readString opened 0 (loneUnit n :: acc) rest
      else readString opened 0 (loneUnit n :: acc) rest
  | 0, _, '\\' :: 'u' :: rest => .error (.badUnicodeEscape, rest.length + 1)
  | 0, _, ['\\'] => .error (.unterminatedString, opened)
  | 0, acc, '\\' :: c :: rest =>
    match shortEscape? c with
    | some x => readString opened 0 (x :: acc) rest
    | none => .error (.badEscape, rest.length + 2)
  | 0, acc, c :: rest =>
    if c.toNat < 32 then .error (.controlCharacter, rest.length + 1)
    else readString opened 0 (c :: acc) rest

/-- The digits at the front, and the rest. -/
def spanDigits (s : List Char) : List Char × List Char :=
  (s.takeWhile Text.isAsciiDigit, s.dropWhile Text.isAsciiDigit)

/-- The exponent at the front, if there is a whole one, and the rest. -/
def exponentPart (s : List Char) : List Char × List Char :=
  match s with
  | c :: r =>
    if c == 'e' || c == 'E' then
      let (mark, body) := match r with
        | '+' :: t => (['+'], t)
        | '-' :: t => (['-'], t)
        | t => ([], t)
      let (ds, rest) := spanDigits body
      if ds.isEmpty then ([], s) else (c :: mark ++ ds, rest)
    else ([], s)
  | [] => ([], s)

/-- A number at the front. -/
def readNumber (s : List Char) : Step Value :=
  let (negative, body) := match s with
    | '-' :: r => (true, r)
    | r => (false, r)
  let (whole, rest) := match body with
    | '0' :: r => (['0'], r)
    | r => spanDigits r
  if whole.isEmpty then .error (.expectingValue, s.length)
  else
    let (places, rest) := match rest with
      | '.' :: r => let (ds, t) := spanDigits r; if ds.isEmpty then ([], rest) else ('.' :: ds, t)
      | r => ([], r)
    let (power, rest) := exponentPart rest
    if places.isEmpty && power.isEmpty then
      let n : Int := Numeral.natOfDigits whole
      .ok (.int (if negative then -n else n), rest)
    else
      .ok (.float ((Numeral.decimal? negative (whole ++ places ++ power)).getD .nan), rest)

/-- The words that stand for values. -/
def words : List (List Char × Value) :=
  [("null".toList, .null), ("true".toList, .bool true), ("false".toList, .bool false),
    ("NaN".toList, .float .nan), ("Infinity".toList, .float (.infinite false)),
    ("-Infinity".toList, .float (.infinite true))]

/-- A word at the front. -/
def readWord? (s : List Char) : Option (Value × List Char) :=
  words.findSome? fun w => if w.1.isPrefixOf s then some (w.2, s.drop w.1.length) else none

mutual

/-- The value at the front. -/
def readValue : (fuel : Nat) → List Char → Step Value
  | 0, s => .error (.expectingValue, s.length)
  | fuel + 1, s =>
    match s with
    | '"' :: rest => (readString s.length 0 [] rest).map fun (t, r) => (.str (String.ofList t), r)
    | '[' :: rest =>
      match skipGap rest with
      | ']' :: r => .ok (.list [], r)
      | r => (readItems fuel r).map fun (vs, r) => (.list vs, r)
    | '{' :: rest =>
      match skipGap rest with
      | '}' :: r => .ok (.dict [], r)
      | r => (readEntries fuel r).map fun (es, r) => (.dict (Entries.ofList es), r)
    | s =>
      match readWord? s with
      | some r => .ok r
      | none => readNumber s

/-- The items of a list up to its closing bracket. -/
def readItems : (fuel : Nat) → List Char → Step (List Value)
  | 0, s => .error (.expectingValue, s.length)
  | fuel + 1, s =>
    match readValue fuel s with
    | .error e => .error e
    | .ok (v, rest) =>
      match skipGap rest with
      | ']' :: r => .ok ([v], r)
      | ',' :: r => (readItems fuel (skipGap r)).map fun (vs, r) => (v :: vs, r)
      | r => .error (.expectingComma, r.length)

/-- The entries of a mapping up to its closing brace. -/
def readEntries : (fuel : Nat) → List Char → Step (List (Key × Value))
  | 0, s => .error (.expectingValue, s.length)
  | fuel + 1, s =>
    match s with
    | '"' :: rest =>
      match readString s.length 0 [] rest with
      | .error e => .error e
      | .ok (k, rest) =>
        match skipGap rest with
        | ':' :: r =>
          match readValue fuel (skipGap r) with
          | .error e => .error e
          | .ok (v, rest) =>
            let e : Key × Value := (.str (String.ofList k), v)
            match skipGap rest with
            | '}' :: r => .ok ([e], r)
            | ',' :: r => (readEntries fuel (skipGap r)).map fun (es, r) => (e :: es, r)
            | r => .error (.expectingComma, r.length)
        | r => .error (.expectingColon, r.length)
    | s => .error (.expectingName, s.length)

end

/-- The value that a whole text writes, or a fault. -/
def readAll (s : List Char) : Except Fault Value :=
  match s with
  | c :: _ =>
    if c.toNat == 0xfeff then .error (.byteOrderMark, s.length) else body s
  | [] => body s
where
  /-- The value with nothing but white space around it. -/
  body (s : List Char) : Except Fault Value :=
    match readValue (2 * s.length + 2) (skipGap s) with
    | .error e => .error e
    | .ok (v, rest) =>
      match skipGap rest with
      | [] => .ok v
      | r => .error (.extraData, r.length)

/-- The error of a fault in the text `s`. -/
def locate (s : List Char) (f : Fault) : Error :=
  let offset := s.length - f.2
  let before := s.take offset
  let column := (before.reverse.takeWhile (· != '\n')).length + 1
  ⟨f.1, before.count '\n' + 1, column, offset⟩

/-- The value that a JSON text writes. -/
def read (s : String) : Except Error Value :=
  (readAll s.toList).mapError (locate s.toList)

end Json

end Scaffold
