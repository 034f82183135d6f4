import Scaffold.Failure
import Scaffold.Text.Blank
import Scaffold.Yaml.Implicit

/-!
# Answers files

The handoff between a run that waits for answers and the one that goes on with them.  The current
format wraps the answers with a version; a bare mapping of keys to texts is read too.  An answer that
is no text stands for its JSON.
-/

namespace Scaffold

/-- The content of an answers file. -/
structure AnswersFile where
  version : Int := 1
  recipe : Option String := none
  created : Option Moment := none
  answers : Record String := []
  deriving DecidableEq, Inhabited, Repr

namespace AnswersFile

open Schema

/-- An answer as a text. -/
def asText : Value → String
  | .str s => s
  | v => Json.text v

/-- Entries of a JSON object as answers. -/
def answersOf (es : Entries) : Record String :=
  Record.ofList (es.map fun (k, v) => (k.plain, asText v))

/-- Whether a value is the number of a known version. -/
def isKnownVersion (v : Value) : Bool := v.isAmong [.int 0, .int 1]

/-! ## Points in time -/

/-- A time zone at the end of a point in time. -/
def zone? (s : List Char) : Option (Option Int) :=
  match s with
  | [] => some none
  | ['Z'] | ['z'] => some (some 0)
  | sign :: r => do
    if sign != '+' && sign != '-' then none
    let (h, r) ← Yaml.digits? 2 r
    let (m, r) ← Yaml.digits? 2 (match r with | ':' :: r => r | r => r)
    if !r.isEmpty || 59 < Numeral.natOfDigits m then none
    let seconds : Int := Numeral.natOfDigits h * 3600 + Numeral.natOfDigits m * 60
    if 86400 ≤ seconds then none
    return some (if sign == '-' then -seconds else seconds)

/-- Seconds with a fraction, if they are given. -/
def seconds? (s : List Char) : Option ((Nat × List Char) × List Char) :=
  match s with
  | ':' :: r => do
    let (sec, r) ← Yaml.digits? 2 r
    match r with
    | '.' :: f | ',' :: f =>
      let places := f.takeWhile Text.isAsciiDigit
      if places.isEmpty then none
      else some ((Numeral.natOfDigits sec, places), f.dropWhile Text.isAsciiDigit)
    | r => some ((Numeral.natOfDigits sec, []), r)
  | r => some ((0, []), r)

/-- The point in time that a text writes: a day, and a time of day behind a letter or blank. -/
def moment? (s : String) : Option Moment := do
  let (y, r) ← Yaml.digits? 4 s.toList
  let (m, r) ← Yaml.digits? 2 (← Yaml.behind? '-' r)
  let (d, r) ← Yaml.digits? 2 (← Yaml.behind? '-' r)
  let day : Yaml.Stamp :=
    ⟨Numeral.natOfDigits y, Numeral.natOfDigits m, Numeral.natOfDigits d, true, none, none⟩
  let stamp ← match r with
    | [] => some { day with clock := some (0, 0, 0, []) }
    | c :: r => do
      if !("Tt _".toList.contains c) then none
      let (h, r) ← Yaml.digits? 2 r
      let (mi, r) ← Yaml.digits? 2 (← Yaml.behind? ':' r)
      let ((sec, places), r) ← seconds? r
      let offset ← zone? r
      some { day with clock := some (Numeral.natOfDigits h, Numeral.natOfDigits mi, sec, places), offset }
  stamp.moment.toOption

/-- The day that is some days after the first of January 1970. -/
def dayOf (days : Int) : Nat × Nat × Nat :=
  let z := days + 719468
  let era := Int.fdiv z 146097
  let doe := (z - era * 146097).toNat
  let yoe := (doe - doe / 1460 + doe / 36524 - doe / 146096) / 365
  let doy := doe - (365 * yoe + yoe / 4 - yoe / 100)
  let mp := (5 * doy + 2) / 153
  let d := doy - (153 * mp + 2) / 5 + 1
  let m := if mp < 10 then mp + 3 else mp - 9
  let y := (yoe : Int) + era * 400 + (if m ≤ 2 then 1 else 0)
  (y.toNat, m, d)

/-- The point in time some microseconds after the first of January 1970. -/
def momentAfter (micros : Int) : Moment :=
  let seconds := Int.fdiv micros 1000000
  let (y, m, d) := dayOf (Int.fdiv seconds 86400)
  let s := (Int.fmod seconds 86400).toNat
  .time y m d (s / 3600) (s / 60 % 60) (s % 60) (Int.fmod micros 1000000).toNat (some 0)

/-- The point in time that a count of seconds and microseconds from the first of January 1970 stands
for, from the year 1600 to 9999; a count above twenty thousand million is one of milliseconds. -/
def momentAt? (count micros : Int) : Option Moment :=
  let total := (if 20000000000 < count.natAbs then count * 1000 else count * 1000000) + micros
  if -11676096000000000 ≤ total && total < 253402300800000000 then some (momentAfter total) else none

/-- The point in time that a number stands for: its floor, and its distance from the next integer
towards zero in microseconds. -/
def momentOfFloat? (x : Binary64) : Option Moment := do
  let (p, q) ← x.ratio?
  let beyond := (Int.tmod p q).natAbs * 1000000
  momentAt? (Int.fdiv p q) ((2 * beyond + q) / (2 * q) : Nat)

/-- The point in time that a text of digits stands for, which may have a sign and a fraction. -/
def momentOfDigits? (s : String) : Option Moment :=
  let (negative, digits) := Numeral.sign s.toList
  let whole := digits.takeWhile Text.isAsciiDigit
  if whole.isEmpty then none
  else
    match digits.dropWhile Text.isAsciiDigit with
    | [] =>
      let n : Int := Numeral.natOfDigits whole
      momentAt? (if negative then -n else n) 0
    | '.' :: places =>
      if places.all Text.isAsciiDigit then
        (Numeral.decimal? negative (whole ++ '.' :: places)).bind momentOfFloat?
      else none
    | _ => none

/-- A point in time. -/
def readMoment : Reader Moment := fun v =>
  let found :=
    match v with
    | .str s => (moment? s).orElse fun _ => momentOfDigits? s
    | .int n => momentAt? n 0
    | .float x => momentOfFloat? x
    | _ => none
  match found with
  | some t => .ok t
  | none => refuse "Input should be a valid datetime"

/-! ## Reading -/

/-- The schema of the current format. -/
def ofEntries (es : Entries) : Checked AnswersFile :=
  (AnswersFile.mk
    <$> field es "version" whole 1
    <*> field es "recipe" (optional text) none
    <*> field es "created_at" (optional readMoment) none
    <*> field es "answers" (recordOf text) [])
  <* noOthers es ["version", "recipe", "created_at", "answers"]

/-- How many issues there are. -/
def countIssues (n : Nat) : String :=
  toString n ++ (if n = 1 then " validation error" else " validation errors") ++ " for AnswersFile"

/-- The content of an answers file in either format. -/
def parse (data : Value) (source : String := "<answers>") : Except Failure AnswersFile :=
  match data with
  | .dict es =>
    match Entries.field? es "answers", Entries.field? es "version" with
    | some (.dict answers), some version =>
      match version with
      | .list _ => .error (.badType "unhashable type: 'list'")
      | .dict _ => .error (.badType "unhashable type: 'dict'")
      | _ =>
        if !isKnownVersion version then
          .error (.answersFile (source ++ ": unsupported answers file version " ++ version.literal ++
            " (supported: 0, 1)"))
        else
          let texts := Value.ofRecord ((answersOf answers).map fun e => (e.1, .str e.2))
          (ofEntries (Entries.put es (.str "answers") texts)).toExcept.mapError fun issues =>
            .answersFile (source ++ ": " ++ countIssues issues.length)
    | _, _ => .ok { version := 0, answers := answersOf es }
  | v => .error (.answersFile (source ++ ": expected a JSON object, got " ++ v.typeName))

/-- The answers in a file, whose path is seen from `here`. -/
def load (t : Tree) (path : Path) (here : Path := Path.ofString "/") : Except Failure (Record String) := do
  let name := path.toString
  let content ← (t.read (here.join path)).mapError fun e =>
    Failure.answersFile ("Cannot read answers file " ++ name ++ ": " ++ (e.renamed path).message)
  let text ← content.decode.mapError Failure.badOctets
  let data ← (Json.read (Text.withLineFeeds text)).mapError fun e =>
    Failure.answersFile ("Answers file " ++ name ++ " is not valid JSON: " ++ e.message)
  return (← parse data name).answers

/-! ## Writing -/

/-- A character inside quotes, where only control characters, quotes and backslashes are escaped. -/
def escape (c : Char) : List Char :=
  if c.toNat < 0x7f then Json.escape c else [c]

/-- A text in quotes. -/
def inQuotes (s : String) : String := String.ofList ('"' :: s.toList.flatMap escape ++ ['"'])

/-- A text in quotes, or null. -/
def orNull (s : Option String) : String := (s.map inQuotes).getD "null"

/-- A point in time as it stands in a file: a letter stands for the offset of universal time. -/
def stamp : Moment → String
  | .time y m d h mi s us (some 0) => (Moment.time y m d h mi s us none).iso ++ "Z"
  | t => t.iso

/-- The text of an answers file. -/
def write (f : AnswersFile) : String :=
  let answers :=
    if f.answers.isEmpty then "\x7b\x7d"
    else
      "\x7b\n    " ++
        Text.join ",\n    " (f.answers.map fun e => inQuotes e.1 ++ ": " ++ inQuotes e.2) ++ "\n  \x7d"
  "\x7b\n  \"version\": " ++ intText f.version ++ ",\n  \"recipe\": " ++ orNull f.recipe ++
    ",\n  \"created_at\": " ++ orNull (f.created.map stamp) ++ ",\n  \"answers\": " ++ answers ++
    "\n\x7d"

/-- Writes answers in the current format, at a point in time. -/
def save (t : Tree) (path : Path) (answers : Record String) (recipe : Option String)
    (now : Moment) : Except FileFault Unit × Tree :=
  t.replace path (write { recipe, created := some now, answers } ++ "\n")

end AnswersFile

end Scaffold
