import Scaffold.Record
import Scaffold.Number.Layout

/-!
# Values

The data that recipes, answers files and actions carry: null, booleans, exact integers, floating
point numbers, texts, points in time, lists, and mappings in written order.  The keys of a mapping
are scalars.  Two keys are the same when they are equal as scalars, where a boolean counts as the
number one or zero and numbers of both kinds are compared exactly.
-/

namespace Scaffold

/-- A calendar day, or a time of day on it with the offset from universal time in seconds. -/
inductive Moment where
  | day (year month day : Nat)
  | time (year month day hour minute second micro : Nat) (offset : Option Int)
  deriving DecidableEq, Inhabited, Repr

namespace Moment

/-- `n` with zeros in front to at least `width` digits. -/
def pad (width n : Nat) : String :=
  let ds := Nat.toDigits 10 n
  String.ofList (List.replicate (width - ds.length) '0' ++ ds)

/-- An offset from universal time as hours and minutes, and seconds if there are any. -/
def offsetText (o : Int) : String :=
  let n := o.natAbs
  let seconds := if n % 60 = 0 then "" else ":" ++ pad 2 (n % 60)
  (if o < 0 then "-" else "+") ++ pad 2 (n / 3600) ++ ":" ++ pad 2 (n / 60 % 60) ++ seconds

/-- The standard text of a moment, `gap` standing between the day and the time of day. -/
def text (gap : String) : Moment → String
  | .day y m d => pad 4 y ++ "-" ++ pad 2 m ++ "-" ++ pad 2 d
  | .time y m d h mi s us o =>
    let clock := pad 2 h ++ ":" ++ pad 2 mi ++ ":" ++ pad 2 s
    let micros := if us = 0 then "" else "." ++ pad 6 us
    pad 4 y ++ "-" ++ pad 2 m ++ "-" ++ pad 2 d ++ gap ++ clock ++ micros ++
      (o.map offsetText).getD ""

/-- The text with the letter T between the day and the time of day. -/
def iso : Moment → String := text "T"

end Moment

/-- A scalar that serves as the key of a mapping. -/
inductive Key where
  | null
  | bool (b : Bool)
  | int (n : Int)
  | float (x : Binary64)
  | str (s : String)
  | moment (t : Moment)
  deriving DecidableEq, Inhabited, Repr

/-- A piece of data. -/
inductive Value where
  | null
  | bool (b : Bool)
  | int (n : Int)
  | float (x : Binary64)
  | str (s : String)
  | moment (t : Moment)
  | list (items : List Value)
  | dict (entries : List (Key × Value))
  deriving Inhabited, Repr

namespace Key

/-- The number a key counts as. -/
def number? : Key → Option Number
  | .bool b => some (.int (if b then 1 else 0))
  | .int n => some (.int n)
  | .float x => some (.float x)
  | _ => none

/-- Whether two keys name the same entry. -/
def same (a b : Key) : Bool :=
  match a.number?, b.number? with
  | some x, some y => x.same y
  | none, none => a == b
  | _, _ => false

/-- The key as a value. -/
def toValue : Key → Value
  | .null => .null
  | .bool b => .bool b
  | .int n => .int n
  | .float x => .float x
  | .str s => .str s
  | .moment t => .moment t

end Key

/-- The entries of a mapping. -/
abbrev Entries := List (Key × Value)

namespace Entries

/-- The value under a key. -/
def get? (es : Entries) (k : Key) : Option Value := (es.find? (·.1.same k)).map (·.2)

/-- The value under a text key. -/
def field? (es : Entries) (k : String) : Option Value := get? es (.str k)

/-- Sets the value under a key, in its old place if it has one and at the end otherwise. -/
def put : Entries → Key → Value → Entries
  | [], k, v => [(k, v)]
  | (k', v') :: es, k, v => if k'.same k then (k', v) :: es else (k', v') :: put es k v

/-- Entries read one after the other, the last of equal keys winning. -/
def ofList (es : List (Key × Value)) : Entries := es.foldl (fun r e => put r e.1 e.2) []

/-- The entries of a record. -/
def ofRecord (r : Record Value) : Entries := r.map fun e => (.str e.1, e.2)

/-- The entries with text keys, as a record. -/
def toRecord (es : Entries) : Record Value :=
  es.filterMap fun e => match e.1 with
    | .str s => some (s, e.2)
    | _ => none

end Entries

namespace Value

/-- The number a value counts as, a boolean as one or zero. -/
def number? : Value → Option Number
  | .bool b => some (.int (if b then 1 else 0))
  | .int n => some (.int n)
  | .float x => some (.float x)
  | _ => none

mutual

/-- Equality of values: numbers exactly and across kinds, mappings whatever their order. -/
def same : Value → Value → Bool
  | .null, .null => true
  | .bool a, w => w.number?.any (Number.same (.int (if a then 1 else 0)))
  | .int a, w => w.number?.any (Number.same (.int a))
  | .float a, w => w.number?.any (Number.same (.float a))
  | .str a, .str b => a == b
  | .moment a, .moment b => a == b
  | .list xs, .list ys => sameItems xs ys
  | .dict xs, .dict ys => xs.length == ys.length && sameEntries xs ys
  | _, _ => false

/-- Equality of lists, item by item. -/
def sameItems : List Value → List Value → Bool
  | [], [] => true
  | x :: xs, y :: ys => same x y && sameItems xs ys
  | _, _ => false

/-- Whether every entry has an equal one in `ys`. -/
def sameEntries : List (Key × Value) → Entries → Bool
  | [], _ => true
  | (k, v) :: xs, ys =>
    (match Entries.get? ys k with
      | some w => same v w
      | none => false) && sameEntries xs ys

end

/-- Whether a value equal to `v` is among `vs`. -/
def isAmong (v : Value) (vs : List Value) : Bool := vs.any fun w => same w v

/-- Whether a value counts as true: neither null nor false, zero, or empty. -/
def truthy : Value → Bool
  | .null => false
  | .bool b => b
  | .int n => n != 0
  | .float x => !x.isZero
  | .str s => s != ""
  | .moment _ => true
  | .list items => !items.isEmpty
  | .dict entries => !entries.isEmpty

/-- The name of a value's type as messages show it. -/
def typeName : Value → String
  | .null => "NoneType"
  | .bool _ => "bool"
  | .int _ => "int"
  | .float _ => "float"
  | .str _ => "str"
  | .moment (.day ..) => "date"
  | .moment (.time ..) => "datetime"
  | .list _ => "list"
  | .dict _ => "dict"

/-- A mapping made of a record. -/
def ofRecord (r : Record Value) : Value := .dict (Entries.ofRecord r)

/-- A list of texts. -/
def texts (ss : List String) : Value := .list (ss.map .str)

/-- A text, or null. -/
def ofText? (s : Option String) : Value := (s.map Value.str).getD .null

/-- What keeps a value from having a JSON form: a point in time, as an item or as a key. -/
inductive Unwritable where
  | item (t : Moment)
  | key (t : Moment)
  deriving DecidableEq, Inhabited, Repr

mutual

/-- What keeps a value from having a JSON form, in the order in which a writer meets it. -/
def unwritable : Value → List Unwritable
  | .moment t => [.item t]
  | .list items => unwritableItems items
  | .dict entries => unwritableEntries entries
  | _ => []

/-- The same for the items of a list. -/
def unwritableItems : List Value → List Unwritable
  | [] => []
  | v :: vs => unwritable v ++ unwritableItems vs

/-- The same for the entries of a mapping. -/
def unwritableEntries : List (Key × Value) → List Unwritable
  | [] => []
  | (k, v) :: es =>
    let here := match k with
      | .moment t => [.key t]
      | _ => []
    here ++ unwritable v ++ unwritableEntries es

end

namespace Unwritable

/-- The complaint about it. -/
def message : Unwritable → String
  | item t => "Object of type " ++ typeName (.moment t) ++ " is not JSON serializable"
  | key t => "keys must be str, int, float, bool or None, not " ++ typeName (.moment t)

/-- Whether it is a key, which a writer that makes texts of unknown items refuses too. -/
def isKey : Unwritable → Bool
  | item _ => false
  | key _ => true

end Unwritable

end Value

end Scaffold
