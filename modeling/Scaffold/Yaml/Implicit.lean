import Scaffold.Value.Written
import Scaffold.Number.Reader
import Scaffold.Yaml.Cursor

/-!
# What a scalar means

The kinds of scalars, the forms by which a plain scalar shows its kind, and the value of a scalar of
each kind.  Numbers may hold underscores; an integer may be binary, octal, hexadecimal or to the base
of sixty; a floating point number needs a point.  A day has four, two and two digits; a time of day
may stand behind it.
-/

namespace Scaffold

namespace Yaml

/-- The kinds of scalars. -/
inductive Kind where
  | null
  | bool
  | int
  | float
  | timestamp
  | merge
  | default
  | str
  deriving DecidableEq, Inhabited, Repr

/-- The kind of a tag that names one. -/
def Kind.ofTag? (tag : String) : Option Kind :=
  [("tag:yaml.org,2002:null", Kind.null), ("tag:yaml.org,2002:bool", .bool),
    ("tag:yaml.org,2002:int", .int), ("tag:yaml.org,2002:float", .float),
    ("tag:yaml.org,2002:timestamp", .timestamp), ("tag:yaml.org,2002:merge", .merge),
    ("tag:yaml.org,2002:value", .default), ("tag:yaml.org,2002:str", .str)].lookup tag

/-! ## Words -/

/-- The words for null. -/
def nullWords : List String := ["", "~", "null", "Null", "NULL"]

/-- The words for booleans, in small letters. -/
def boolWords : List (String × Bool) :=
  [("yes", true), ("no", false), ("true", true), ("false", false), ("on", true), ("off", false)]

/-- Whether a text is a word for a boolean: in small letters, in capitals, or with one in front. -/
def isBoolWord (s : String) : Bool :=
  boolWords.any fun w =>
    let capitals := w.1.toList.map Char.toUpper
    s == w.1 || s.toList == capitals || s.toList == capitals.take 1 ++ w.1.toList.drop 1

/-! ## Forms of numbers -/

/-- A digit or an underscore. -/
def isDigitOrBar (c : Char) : Bool := Text.isAsciiDigit c || c == '_'

/-- The text behind a sign, if there is one. -/
def unsigned (s : List Char) : List Char := (Numeral.sign s).2

/-- Parts to the base of sixty behind a first number: each a colon and at most two digits, the first
of them below six. -/
def sexagesimalTail : List Char → Option (List Char)
  | ':' :: a :: b :: s =>
    if '0' ≤ a && a ≤ '5' && Text.isAsciiDigit b then
      (if s.head? == some ':' then sexagesimalTail s else some s)
    else if Text.isAsciiDigit a then
      (if b == ':' then sexagesimalTail (b :: s) else some (b :: s))
    else none
  | [':', a] => if Text.isAsciiDigit a then some [] else none
  | _ => none

/-- Whether a text without a sign has the form of an integer. -/
def isUnsignedInt : List Char → Bool
  | [] => false
  | '0' :: 'b' :: s => !s.isEmpty && s.all fun c => c == '0' || c == '1' || c == '_'
  | '0' :: 'x' :: s => !s.isEmpty && s.all fun c => (Text.hexValue? c).isSome || c == '_'
  | '0' :: s => s.all fun c => ('0' ≤ c && c ≤ '7') || c == '_'
  | c :: s =>
    let rest := s.dropWhile isDigitOrBar
    Text.isAsciiDigit c && (rest.isEmpty || sexagesimalTail rest == some [])

/-- An exponent, which has a sign. -/
def isExponent : List Char → Bool
  | [] => true
  | e :: sign :: ds =>
    (e == 'e' || e == 'E') && (sign == '+' || sign == '-') && !ds.isEmpty && ds.all Text.isAsciiDigit
  | _ => false

/-- Whether a text without a sign has the form of a floating point number. -/
def isUnsignedFloat (s : List Char) : Bool :=
  match s with
  | [] => false
  | c :: _ =>
    Text.isAsciiDigit c &&
      match s.dropWhile isDigitOrBar with
      | '.' :: r => isExponent (r.dropWhile isDigitOrBar)
      | r =>
        match sexagesimalTail r with
        | some ('.' :: places) => places.all isDigitOrBar
        | _ => false

/-- Whether a text has the form of a floating point number that starts with a point. -/
def isPointFloat : List Char → Bool
  | '.' :: c :: s => Text.isAsciiDigit c && isExponent (s.dropWhile isDigitOrBar)
  | _ => false

/-- Whether a text has the form of a floating point number. -/
def isFloat (s : List Char) : Bool :=
  isUnsignedFloat (unsigned s) || isPointFloat s
    || [".inf", ".Inf", ".INF"].contains (String.ofList (unsigned s))
    || [".nan", ".NaN", ".NAN"].contains (String.ofList s)

/-- Whether a text has the form of an integer. -/
def isInt (s : List Char) : Bool := isUnsignedInt (unsigned s)

/-! ## Values of numbers -/

/-- The letters that may stand behind a zero in front of digits to a base. -/
def baseLetters : Nat → List Char
  | 2 => ['b', 'B']
  | 8 => ['o', 'O']
  | 16 => ['x', 'X']
  | _ => []

/-- The integer that a sign and digits to a base write, with blanks around them. -/
def inBase? (base : Nat) (s : List Char) : Option Int :=
  let (negative, body) := Numeral.sign (Numeral.asciiDigits (Text.trimChars s))
  let ds := match body with
    | '0' :: c :: r => if (baseLetters base).contains c then r else body
    | _ => body
  let number? := if ds.isEmpty then none
    else ds.foldl (fun acc c => do
      let n ← acc
      let d ← Text.hexValue? c
      if d < base then some (n * base + d) else none) (some 0)
  number?.map fun n => if negative then -(n : Int) else n

/-- The refusal of digits that write no number to a base. -/
def notInteger (base : Nat) (s : List Char) : Fault :=
  .badValue ("invalid literal for int() with base " ++ toString base ++ ": " ++
    quoted (String.ofList s))

/-- The integer that digits to a base write. -/
def readBase (base : Nat) (s : List Char) : Except Fault Int :=
  match inBase? base s with
  | some n => .ok n
  | none => .error (notInteger base s)

/-- The refusal of a number that has no first character. -/
def noCharacter : Fault := .outOfRange "string index out of range"

/-- The value of an integer. -/
def intValue (s : List Char) : Except Fault Int := do
  let s := s.filter (· != '_')
  let (negative, body) := Numeral.sign s
  let n ←
    match body with
    | [] => throw noCharacter
    | ['0'] => pure 0
    | '0' :: 'b' :: ds => readBase 2 ds
    | '0' :: 'x' :: ds => readBase 16 ds
    | '0' :: ds => readBase 8 ('0' :: ds)
    | _ =>
      if body.contains ':' then
        (Text.splitAll [':'] body).foldlM (fun n part => do return n * 60 + (← readBase 10 part)) 0
      else readBase 10 body
  return if negative then -n else n

/-- The refusal of a text that writes no floating point number. -/
def notFloat (s : List Char) : Fault :=
  .badValue ("could not convert string to float: " ++ quoted (String.ofList s))

/-- The floating point number that a text writes. -/
def readFloat (s : List Char) : Except Fault Binary64 :=
  match Numeral.read? (String.ofList s) with
  | some x => .ok x
  | none => .error (notFloat s)

/-- The value of parts to the base of sixty, the last of which counts once. -/
def sexagesimalFloat (parts : List Binary64) : Binary64 :=
  (parts.foldr
    (fun part (acc : Binary64 × Nat) => (acc.1.add (part.mul (.ofInt acc.2)), acc.2 * 60))
    (Binary64.zero, 1)).1

/-- The value of a floating point number. -/
def floatValue (s : List Char) : Except Fault Binary64 := do
  let s := (s.filter (· != '_')).map Char.toLower
  if s.isEmpty then throw noCharacter
  let (negative, body) := Numeral.sign s
  let x ←
    if body == ".inf".toList then pure (Binary64.infinite false)
    else if body == ".nan".toList then pure .nan
    else if body.contains ':' then do
      return sexagesimalFloat (← (Text.splitAll [':'] body).mapM readFloat)
    else readFloat body
  return if negative then x.neg else x

/-! ## Points in time -/

/-- The parts of a point in time as written. -/
structure Stamp where
  year : Nat
  month : Nat
  day : Nat
  /-- Whether month and day have two digits. -/
  wide : Bool
  /-- Hour, minute, second and the digits of a fraction. -/
  clock : Option (Nat × Nat × Nat × List Char)
  /-- The offset from universal time in seconds. -/
  offset : Option Int
  deriving DecidableEq, Inhabited, Repr

/-- One or two digits. -/
def oneOrTwo? (s : List Char) : Option (List Char × List Char) :=
  match s with
  | a :: b :: r =>
    if !Text.isAsciiDigit a then none
    else if Text.isAsciiDigit b then some ([a, b], r) else some ([a], b :: r)
  | [a] => if Text.isAsciiDigit a then some ([a], []) else none
  | [] => none

/-- Exactly `n` digits. -/
def digits? (n : Nat) (s : List Char) : Option (List Char × List Char) :=
  let ds := s.take n
  if ds.length = n && ds.all Text.isAsciiDigit then some (ds, s.drop n) else none

/-- The rest behind a character. -/
def behind? (c : Char) : List Char → Option (List Char)
  | d :: s => if d = c then some s else none
  | [] => none

/-- The offset at the end of a point in time. -/
def offset? (s : List Char) : Option (Option Int) :=
  match s.dropWhile isSpace with
  | [] => if s.isEmpty then some none else none
  | ['Z'] => some (some 0)
  | sign :: r => do
    if sign != '+' && sign != '-' then none
    let (h, r) ← oneOrTwo? r
    let minutes ← match r with
      | [] => some 0
      | r => do
        let (m, r) ← digits? 2 (← behind? ':' r)
        if r.isEmpty then some (Numeral.natOfDigits m) else none
    let seconds : Int := Numeral.natOfDigits h * 3600 + minutes * 60
    return some (if sign == '-' then -seconds else seconds)

/-- The time of day behind a day. -/
def clock? (s : List Char) : Option ((Nat × Nat × Nat × List Char) × Option Int) := do
  let (h, s) ← oneOrTwo? s
  let (m, s) ← digits? 2 (← behind? ':' s)
  let (sec, s) ← digits? 2 (← behind? ':' s)
  let (fraction, s) := match s with
    | '.' :: r => (r.takeWhile Text.isAsciiDigit, r.dropWhile Text.isAsciiDigit)
    | r => ([], r)
  let offset ← offset? s
  return ((Numeral.natOfDigits h, Numeral.natOfDigits m, Numeral.natOfDigits sec, fraction), offset)

/-- The point in time that a text writes. -/
def stamp? (s : List Char) : Option Stamp := do
  let (y, s) ← digits? 4 s
  let (m, s) ← oneOrTwo? (← behind? '-' s)
  let (d, s) ← oneOrTwo? (← behind? '-' s)
  let day : Stamp :=
    ⟨Numeral.natOfDigits y, Numeral.natOfDigits m, Numeral.natOfDigits d,
      m.length = 2 && d.length = 2, none, none⟩
  match s with
  | [] => return day
  | c :: r =>
    let r ← if c == 'T' || c == 't' then some r
      else if isSpace c then some (r.dropWhile isSpace) else none
    let (clock, offset) ← clock? r
    return { day with clock := some clock, offset }

/-- Whether a text has the form of a point in time. -/
def isTimestamp (s : List Char) : Bool := (stamp? s).any fun t => t.clock.isSome || t.wide

/-- The number of days of a month. -/
def daysIn (year month : Nat) : Nat :=
  let leap := year % 4 = 0 && (year % 100 != 0 || year % 400 = 0)
  if month = 2 then (if leap then 29 else 28)
  else if [4, 6, 9, 11].contains month then 30 else 31

/-- The point in time, if there is one with these parts. -/
def Stamp.moment (t : Stamp) : Except Fault Moment := do
  let outside (what : String) : Except Fault Unit := throw (.badValue what)
  if t.offset.any fun o => 86400 ≤ o.natAbs then
    outside ("offset must be a timedelta strictly between -timedelta(hours=24) and " ++
      "timedelta(hours=24), not " ++
      ((t.offset.map Moment.spanLiteral).getD ""))
  if t.year = 0 then outside "year 0 is out of range"
  if t.month = 0 || 12 < t.month then outside "month must be in 1..12"
  if t.day = 0 || daysIn t.year t.month < t.day then outside "day is out of range for month"
  match t.clock with
  | none => return .day t.year t.month t.day
  | some (h, m, s, fraction) => do
    if 23 < h then outside "hour must be in 0..23"
    if 59 < m then outside "minute must be in 0..59"
    if 59 < s then outside "second must be in 0..59"
    let six := (fraction ++ List.replicate 6 '0').take 6
    return .time t.year t.month t.day h m s (Numeral.natOfDigits six) t.offset

/-! ## Scalars -/

/-- The kind that the form of a plain scalar shows. -/
def Kind.ofForm (s : String) : Kind :=
  let cs := s.toList
  if isBoolWord s then .bool
  else if isFloat cs then .float
  else if isInt cs then .int
  else if s == "<<" then .merge
  else if nullWords.contains s then .null
  else if isTimestamp cs then .timestamp
  else if s == "=" then .default
  else .str

/-- The value of a scalar of a kind. -/
def Kind.value (k : Kind) (s : String) : Except Fault Value :=
  match k with
  | .null => .ok .null
  | .bool =>
    let word := String.ofList (s.toList.map Char.toLower)
    match boolWords.lookup word with
    | some b => .ok (.bool b)
    | none => .error (.noEntry (quoted word))
  | .int => (intValue s.toList).map .int
  | .float => (floatValue s.toList).map .float
  | .timestamp =>
    match stamp? s.toList with
    | some t => t.moment.map .moment
    | none => .error (.noField "'NoneType' object has no attribute 'groupdict'")
  | .str => .ok (.str s)
  | .merge | .default => .error (.malformed "could not determine a constructor for the tag")

end Yaml

end Scaffold
