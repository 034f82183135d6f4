import Scaffold.Pattern.Reader
import Scaffold.Recipe.Basic
import Scaffold.Session

/-!
# The values of variables

A value from outside is first converted to the kind that its variable declares and then held to the
variable's constraints.  Each declared variable takes the first value there is of: the caller's, an
answer, the default, and an answer to a question.  What a caller gives for no declared variable goes
through as it is.

All problems of all variables are reported together.
-/

namespace Scaffold

namespace Variable

/-- What is wrong with a value, or with its being absent. -/
inductive Problem where
  | notBoolean (name : String) (value : Value)
  | notNumber (name : String) (value : Value)
  | notArray (name : String) (value : Value)
  | notObject (name : String) (value : Value)
  | notAllowed (name : String) (allowed : List Value) (value : Value)
  | belowMinimum (name : String) (bound : Binary64)
  | aboveMaximum (name : String) (bound : Binary64)
  | mismatch (name : String) (pattern : String)
  | missing (names : List String)
  deriving Inhabited, Repr

/-- The wording of a problem. -/
def Problem.message : Problem → String
  | .notBoolean n v => "Variable '" ++ n ++ "' expects a boolean, got " ++ v.literal
  | .notNumber n v => "Variable '" ++ n ++ "' expects a number, got " ++ v.literal
  | .notArray n v => "Variable '" ++ n ++ "' expects an array, got " ++ v.literal
  | .notObject n v => "Variable '" ++ n ++ "' expects a JSON object, got " ++ v.literal
  | .notAllowed n vs v =>
    "Variable '" ++ n ++ "' must be one of: " ++ Text.join ", " (vs.map (·.plain)) ++
      " (got " ++ v.literal ++ ")"
  | .belowMinimum n x => "Variable '" ++ n ++ "' is below the minimum " ++ x.brief
  | .aboveMaximum n x => "Variable '" ++ n ++ "' is above the maximum " ++ x.brief
  | .mismatch n p => "Variable '" ++ n ++ "' does not match pattern " ++ p
  | .missing names => "Missing required variables: " ++ Text.join ", " names

/-! ## Conversion -/

/-- The words for true and false. -/
def flagWords : List (String × Bool) :=
  ["true", "yes", "y", "1", "on"].map (·, true) ++ ["false", "no", "n", "0", "off"].map (·, false)

/-- A value as a boolean. -/
def toBoolean (name : String) (v : Value) : Except Problem Value :=
  match v with
  | .bool _ => .ok v
  | _ =>
    match flagWords.lookup (Text.lower (Text.trim v.plain)) with
    | some b => .ok (.bool b)
    | none => .error (.notBoolean name v)

/-- A value as a number: a text without a point that writes a whole number gives an integer. -/
def toNumber (name : String) (v : Value) : Except Problem Value :=
  match v with
  | .int _ | .float _ => .ok v
  | .bool _ => .error (.notNumber name v)
  | _ =>
    match Numeral.read? v.plain with
    | none => .error (.notNumber name v)
    | some x =>
      match x.toInt? with
      | some n => .ok (if Text.contains "." v.plain then .float x else .int n)
      | none => .ok (.float x)

/-- The items of a text between commas. -/
def itemsOf (s : String) : List Value :=
  ((Text.split "," s).map Text.trim).filterMap fun i => if i = "" then none else some (.str i)

/-- A value as a list: a text is a JSON array or items between commas. -/
def toArray (name : String) (v : Value) : Except Problem Value :=
  match v with
  | .list _ => .ok v
  | _ =>
    let text := Text.trim v.plain
    if Text.startsWith "[" text then
      match Json.read text with
      | .ok (.list items) => .ok (.list items)
      | .ok _ => .ok (.list (itemsOf text))
      | .error _ => .error (.notArray name v)
    else .ok (.list (itemsOf text))

/-- A value as a mapping: a text is a JSON object. -/
def toObject (name : String) (v : Value) : Except Problem Value :=
  match v with
  | .dict _ => .ok v
  | _ =>
    match Json.read v.plain with
    | .ok (.dict entries) => .ok (.dict entries)
    | _ => .error (.notObject name v)

/-- A value converted to the kind of a variable. -/
def coerce (name : String) (v : Value) (d : Variable) : Except Problem Value :=
  match d.kind with
  | .boolean => toBoolean name v
  | .number => toNumber name v
  | .array => toArray name v
  | .object => toObject name v
  | .string | .enum => .ok (.str v.plain)

/-! ## Constraints -/

/-- What the bounds of a variable measure: the length of a text or list, or a number itself. -/
def measure? : Value → Option Number
  | .str s => some (.int s.length)
  | .list items => some (.int items.length)
  | .int n => some (.int n)
  | .float x => some (.float x)
  | _ => none

/-- A value that is not among the allowed ones. -/
def checkAllowed (name : String) (v : Value) (d : Variable) : List Problem :=
  match d.values with
  | some vs => if v.isAmong vs then [] else [.notAllowed name vs v]
  | none => []

/-- A value outside its bounds. -/
def checkBounds (name : String) (v : Value) (d : Variable) : List Problem :=
  match measure? v with
  | none => []
  | some x =>
    ((d.min.filter fun low => x.lt (.float low)).map (Problem.belowMinimum name)).toList ++
      ((d.max.filter fun high => (Number.float high).lt x).map (Problem.aboveMaximum name)).toList

/-- A text that does not match its pattern as a whole. -/
def checkPattern (name : String) (v : Value) (d : Variable) : Except Failure (List Problem) :=
  match v, filled? d.pattern with
  | .str s, some p =>
    match Pattern.compile? p {} with
    | none => .error .badPattern
    | some c => .ok (if c.matchesAll s.toList then [] else [.mismatch name p])
  | _, _ => .ok []

/-- The constraints that a converted value breaks. -/
def check (name : String) (v : Value) (d : Variable) : Except Failure (List Problem) :=
  (checkPattern name v d).map fun ps => checkAllowed name v d ++ checkBounds name v d ++ ps

end Variable

/-! ## Resolution -/

/-- Who supplies what is missing. -/
inductive AskMode where
  | person
  | model
  | nobody
  deriving DecidableEq, Inhabited, Repr

/-- The word for a mode. -/
def AskMode.word : AskMode → String
  | person => "me"
  | model => "ai"
  | nobody => "nobody"

/-- The mode of a word. -/
def AskMode.ofWord? (s : String) : Option AskMode :=
  [person, model, nobody].find? fun m => m.word == s

/-- The values of a recipe's variables, the defaults apart so that a step may override them. -/
structure Bindings where
  defaults : Record Value := []
  values : Record Value := []
  /-- Required variables that are left to the model. -/
  missing : List String := []
  deriving Inhabited, Repr

namespace Bindings

/-- Defaults and values together; values win. -/
def merged (b : Bindings) : Record Value := b.defaults.merge b.values

theorem get?_merged (b : Bindings) (k : String) :
    b.merged.get? k = (b.values.get? k).or (b.defaults.get? k) := Record.get?_merge b.defaults b.values k

end Bindings

namespace Recipe

/-- Where a value comes from. -/
inductive Origin where
  | provided
  | answer
  | default
  | prompt
  deriving DecidableEq, Inhabited, Repr

/-- What is known when variables are resolved. -/
structure Sources where
  provided : Record Value
  answers : Record String := []
  useDefaults : Bool := true
  ask : Option AskMode := none
  prompter : Option Prompter := none

/-- The first value there is for a variable before anyone is asked; null is none. -/
def knownValue? (s : Sources) (name : String) (d : Variable) : Option (Value × Origin) :=
  match s.provided.get? name with
  | some (.null) | none =>
    match s.answers.get? name with
    | some a => some (.str a, .answer)
    | none =>
      match s.useDefaults, d.default with
      | true, .null | false, _ => none
      | true, v => some (v, .default)
  | some v => some (v, .provided)

/-- The value of a variable that someone is asked for, where it is required. -/
def askedValue (s : Sources) (name : String) (d : Variable) : Run (Option (Value × Origin)) := do
  match d.required, s.ask, s.prompter with
  | true, some .person, some p => return some (← p.ask name d, .prompt)
  | _, _, _ => return none

/-- The first value there is for a variable; null counts as a value only for a question. -/
def firstValue (s : Sources) (name : String) (d : Variable) : Run (Option (Value × Origin)) :=
  match knownValue? s name d with
  | some v => return some v
  | none => askedValue s name d

/-- What is known so far while variables are resolved. -/
structure Resolving where
  bindings : Bindings := {}
  problems : List Variable.Problem := []
  unresolved : List String := []
  deriving Inhabited, Repr

/-- Resolves one variable. -/
def resolveOne (s : Sources) (r : Resolving) (name : String) (d : Variable) : Run Resolving := do
  match (← firstValue s name d) with
  | none | some (.null, _) =>
    return if d.required then { r with unresolved := r.unresolved ++ [name] } else r
  | some (raw, origin) =>
    match d.coerce name raw with
    | .error p => return { r with problems := r.problems ++ [p] }
    | .ok v =>
      let ps ← Run.ofExcept (d.check name v)
      let b := r.bindings
      let b := match origin with
        | .default => { b with defaults := b.defaults.put name v }
        | _ => { b with values := b.values.put name v }
      return { r with bindings := b, problems := r.problems ++ ps }

/-- The caller's values for names that are not declared. -/
def undeclared (r : Recipe) (provided : Record Value) : Record Value :=
  provided.restrict fun name => !r.declared.has name

/-- The values of the variables, or all problems; what is missing may be left to the model. -/
def Resolving.conclude (d : Resolving) (r : Recipe) (toModel : Bool) : Except Failure Bindings :=
  let problems := d.problems ++
    if d.unresolved.isEmpty || toModel then [] else [.missing d.unresolved]
  if problems.isEmpty then
    .ok { d.bindings with missing := if toModel then d.unresolved else [] }
  else .error (.recipeInvalid (problems.map (·.message)) (some r.name))

/-- Resolves every variable, or reports all problems. -/
def resolveVariables (r : Recipe) (s : Sources) : Run Bindings := do
  let start : Resolving := { bindings := { values := r.undeclared s.provided } }
  let done ← r.declared.foldlM (fun acc (name, d) => resolveOne s acc name d) start
  Run.ofExcept (done.conclude r (s.ask == some .model))

end Recipe

end Scaffold
