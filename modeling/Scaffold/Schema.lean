import Scaffold.Value.Written
import Scaffold.Number.Reader
import Scaffold.Text.Blank
import Scaffold.Text.Case

/-!
# Reading data by a schema

Readers that turn a value into typed data and report every issue they meet, each with the place
where it was met: a list of field names and positions from the outside in.  Readers of several fields
are put together applicatively, so the issues of one field never hide those of the next.

Readers of scalars are lenient in one direction only: a text or a number may stand for a boolean or a
number when it plainly writes one, but only a text is a text.
-/

namespace Scaffold

namespace Schema

/-- Something wrong at a place. -/
structure Issue where
  place : List String
  text : String
  deriving DecidableEq, Inhabited, Repr

/-- An issue behind its place, the steps of which points separate. -/
def Issue.message (i : Issue) : String :=
  if i.place.isEmpty then i.text else Text.join "." i.place ++ ": " ++ i.text

/-- What a reader gives: data, or the issues met. -/
inductive Checked (α : Type) where
  | ok (a : α)
  | bad (issues : List Issue)
  deriving Inhabited, Repr

namespace Checked

/-- The issues met. -/
def issues {α : Type} : Checked α → List Issue
  | ok _ => []
  | bad is => is

/-- Applies read data to a function. -/
def map {α β : Type} (f : α → β) : Checked α → Checked β
  | ok a => ok (f a)
  | bad is => bad is

/-- Applies a read function to read data, with the issues of both. -/
def apply {α β : Type} (f : Checked (α → β)) (a : Checked α) : Checked β :=
  match f, a with
  | ok g, ok x => ok (g x)
  | ok _, bad js => bad js
  | bad is, a => bad (is ++ a.issues)

instance : Functor Checked := ⟨map, fun a => map fun _ => a⟩

instance : Applicative Checked where
  pure := ok
  seq f a := apply f (a ())

/-- Goes on with the data if there was no issue. -/
def andThen {α β : Type} (c : Checked α) (f : α → Checked β) : Checked β :=
  match c with
  | ok a => f a
  | bad is => bad is

/-- The same seen from outside: below one more step. -/
def under {α : Type} (step : String) : Checked α → Checked α
  | ok a => ok a
  | bad is => bad (is.map fun i => { i with place := step :: i.place })

/-- The results in order, with the issues of all. -/
def all {α : Type} : List (Checked α) → Checked (List α)
  | [] => ok []
  | c :: cs => apply (c.map fun a as => a :: as) (all cs)

/-- The data, or the issues as an error. -/
def toExcept {α : Type} : Checked α → Except (List Issue) α
  | ok a => .ok a
  | bad is => .error is

end Checked

/-- A reader of values. -/
abbrev Reader (α : Type) := Value → Checked α

/-- Refuses with one issue right here. -/
def refuse {α : Type} (text : String) : Checked α := .bad [⟨[], text⟩]

/-! ## Scalars -/

/-- Any value. -/
def anything : Reader Value := .ok

/-- A text. -/
def text : Reader String
  | .str s => .ok s
  | _ => refuse "Input should be a valid string"

/-- The texts that stand for a boolean. -/
def flagWords : List (String × Bool) :=
  ["0", "off", "f", "false", "n", "no"].map (·, false) ++
    ["1", "on", "t", "true", "y", "yes"].map (·, true)

/-- A boolean, zero or one, or a text that stands for one. -/
def flag : Reader Bool := fun v =>
  let unclear := refuse "Input should be a valid boolean, unable to interpret input"
  let ofInt (n : Int) : Checked Bool :=
    if n = 0 then .ok false else if n = 1 then .ok true else unclear
  match v with
  | .bool b => .ok b
  | .int n => ofInt n
  | .float x =>
    match x.toInt? with
    | some n => ofInt n
    | none => refuse "Input should be a valid boolean"
  | .str s =>
    match flagWords.lookup (Text.lower s) with
    | some b => .ok b
    | none => unclear
  | _ => refuse "Input should be a valid boolean"

/-- A text of digits without the zeros behind a point at its end. -/
def withoutZeroPlaces (s : List Char) : List Char :=
  let head := s.takeWhile (· != '.')
  match s.drop head.length with
  | '.' :: places => if places.all (· == '0') then head else s
  | _ => s

/-- Digits with underscores only between them, without the underscores. -/
def joinedDigits? : List Char → Option (List Char)
  | [] => none
  | [c] => if Text.isAsciiDigit c then some [c] else none
  | c :: '_' :: s => if Text.isAsciiDigit c then (joinedDigits? s).map (c :: ·) else none
  | c :: s => if Text.isAsciiDigit c then (joinedDigits? s).map (c :: ·) else none

/-- The integer that a text writes. -/
def wholeOfText? (s : String) : Option Int :=
  let (negative, body) := match Text.trimChars s.toList with
    | '-' :: r => (true, r)
    | '+' :: r => (false, r)
    | r => (false, r)
  (joinedDigits? (withoutZeroPlaces body)).map fun ds =>
    let n : Int := Numeral.natOfDigits ds
    if negative then -n else n

/-- The longest text that is read as an integer. -/
def longestNumeral : Nat := 4300

/-- An integer, a boolean as zero or one, a floating point number without a fraction, or a text that
writes an integer. -/
def whole : Reader Int := fun v =>
  let tooLarge := refuse "Unable to parse input string as an integer, exceeded maximum size"
  match v with
  | .bool b => .ok (if b then 1 else 0)
  | .int n => .ok n
  | .float x =>
    match x, x.toInt? with
    | .nan, _ | .infinite _, _ => refuse "Input should be a finite number"
    | _, none => refuse "Input should be a valid integer, got a number with a fractional part"
    | _, some n => if n.natAbs < Power.two 63 then .ok n else tooLarge
  | .str s =>
    if longestNumeral < (Text.trimChars s.toList).length then tooLarge
    else
      match wholeOfText? s with
      | some n => .ok n
      | none => refuse "Input should be a valid integer, unable to parse string as an integer"
  | _ => refuse "Input should be a valid integer"

/-- A floating point number, an integer or a boolean, or a text that writes a number. -/
def number : Reader Binary64 := fun v =>
  match v with
  | .bool b => .ok (.ofInt (if b then 1 else 0))
  | .int n => .ok (.ofInt n)
  | .float x => .ok x
  | .str s =>
    match if s.toList.all fun c => c.toNat < 128 then Numeral.read? s else none with
    | some x => .ok x
    | none => refuse "Input should be a valid number, unable to parse string as a number"
  | _ => refuse "Input should be a valid number"

/-! ## Constraints -/

/-- At least `low`. -/
def Reader.atLeast (r : Reader Int) (low : Int) : Reader Int := fun v => (r v).andThen fun n =>
  if n < low then refuse ("Input should be greater than or equal to " ++ intText low) else .ok n

/-- At most `high`. -/
def Reader.atMost (r : Reader Int) (high : Int) : Reader Int := fun v => (r v).andThen fun n =>
  if high < n then refuse ("Input should be less than or equal to " ++ intText high) else .ok n

/-- Above zero. -/
def Reader.positive (r : Reader Int) : Reader Int := fun v => (r v).andThen fun n =>
  if n ≤ 0 then refuse "Input should be greater than 0" else .ok n

/-- A number from `low` to `high`. -/
def Reader.within (r : Reader Binary64) (low high : Int) : Reader Binary64 := fun v =>
  (r v).andThen fun x =>
    if (Number.int high).lt (.float x) then
      refuse ("Input should be less than or equal to " ++ intText high)
    else if (Number.float x).lt (.int low) then
      refuse ("Input should be greater than or equal to " ++ intText low)
    else .ok x

/-- A number above zero. -/
def Reader.above (r : Reader Binary64) : Reader Binary64 := fun v => (r v).andThen fun x =>
  if (Number.float x).le (.int 0) then refuse "Input should be greater than 0" else .ok x

/-- Words with commas between them and the last behind `or`. -/
def alternatives : List String → String
  | [] => ""
  | [a] => a
  | [a, b] => a ++ " or " ++ b
  | a :: rest => a ++ ", " ++ alternatives rest

/-- One of some words, each of which stands for something. -/
def choice {α : Type} (options : List (String × α)) : Reader α := fun v =>
  let found := match v with
    | .str s => options.lookup s
    | _ => none
  match found with
  | some a => .ok a
  | none =>
    refuse ("Input should be " ++ alternatives (options.map fun o => "'" ++ o.1 ++ "'"))

/-! ## Compound data -/

/-- Null, or what `r` reads. -/
def optional {α : Type} (r : Reader α) : Reader (Option α)
  | .null => .ok none
  | v => (r v).map some

/-- A list of what `r` reads. -/
def listOf {α : Type} (r : Reader α) : Reader (List α)
  | .list items => Checked.all (items.mapIdx fun i v => (r v).under (toString i))
  | _ => refuse "Input should be a valid list"

/-- A key as a step of a place. -/
def keyStep : Key → String
  | .str s => s
  | .bool b => if b then "1" else "0"
  | k => k.toValue.literal

/-- A mapping from names to what `r` reads. -/
def recordOf {α : Type} (r : Reader α) : Reader (Record α)
  | .dict entries =>
    (Checked.all (entries.map fun (k, v) =>
      let step := keyStep k
      let name := match k with
        | .str s => Checked.ok s
        | _ => (refuse "Input should be a valid string").under "[key]"
      Checked.apply ((name.under step).map Prod.mk) ((r v).under step))).map Record.ofList
  | _ => refuse "Input should be a valid dictionary"

/-- The entries of a mapping that should make a `className`. -/
def entriesOf (className : String) : Reader Entries
  | .dict entries => .ok entries
  | _ => refuse ("Input should be a valid dictionary or instance of " ++ className)

/-- A field that may be left out. -/
def field {α : Type} (es : Entries) (name : String) (r : Reader α) (default : α) : Checked α :=
  match Entries.field? es name with
  | none => .ok default
  | some v => (r v).under name

/-- A field that has to be there. -/
def required {α : Type} (es : Entries) (name : String) (r : Reader α) : Checked α :=
  match Entries.field? es name with
  | none => (refuse "Field required").under name
  | some v => (r v).under name

/-- No fields but those `known`. -/
def noOthers (es : Entries) (known : List String) : Checked Unit :=
  (Checked.all (es.map fun (k, _) =>
    match k with
    | .str s => if known.contains s then .ok () else (refuse "Extra inputs are not permitted").under s
    | k => (refuse "Keys should be strings").under (keyStep k))).map fun _ => ()

end Schema

end Scaffold
