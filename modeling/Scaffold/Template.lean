import Scaffold.Json.Writer
import Scaffold.Text.Blank
import Scaffold.Text.Words

/-!
# Templates

Texts with placeholders.  A placeholder is a name in double braces, behind which filters may follow,
each behind a bar; blanks may stand anywhere between these parts.  A name is made of word characters,
points and hyphens, and its points walk into nested mappings.

Rendering reads the text once into literal characters and placeholders and then evaluates each
placeholder, so nothing inside a value is ever expanded.  What does not read as a placeholder stays
as it is.  A name that leads nowhere gives the empty text; an unknown filter, or a value with no
text, is a fault.
-/

namespace Scaffold

namespace Template

/-- Why a template cannot be rendered. -/
inductive Fault where
  | unknownFilter (name : String)
  | noJson (cause : Value.Unwritable)
  deriving DecidableEq, Inhabited, Repr

/-- The wording of a fault. -/
def Fault.message : Fault → String
  | .unknownFilter name => "Unknown template filter: " ++ name
  | .noJson cause => cause.message

/-- A part of a template. -/
inductive Piece where
  | char (c : Char)
  | place (name : List Char) (filters : List (List Char))
  deriving DecidableEq, Inhabited, Repr

/-! ## Reading -/

/-- A character of a placeholder's name. -/
def isNameChar (c : Char) : Bool := Text.isWord c || c == '.' || c == '-'

/-- The filters up to the closing braces, with the number of characters they take.  `fuel` bounds
the number of filters. -/
def readFilters? : (fuel : Nat) → List Char → Option (List (List Char) × List Char)
  | 0, _ => none
  | fuel + 1, s =>
    match s with
    | '}' :: '}' :: rest => some ([], rest)
    | '|' :: rest =>
      let body := Text.trimLeft rest
      let name := body.takeWhile Text.isWord
      if name.isEmpty then none
      else
        (readFilters? fuel (Text.trimLeft (body.dropWhile Text.isWord))).map fun (fs, r) =>
          (name :: fs, r)
    | _ => none

/-- The placeholder at the front, and the rest. -/
def readPlace? : List Char → Option (Piece × List Char)
  | '{' :: '{' :: s =>
    let body := Text.trimLeft s
    let name := body.takeWhile isNameChar
    if name.isEmpty then none
    else
      let rest := Text.trimLeft (body.dropWhile isNameChar)
      (readFilters? (rest.length + 1) rest).map fun (fs, r) => (.place name fs, r)
  | _ => none

/-- The pieces of a template, of which `skip` characters are still to be passed over. -/
def piecesFrom : (skip : Nat) → List Char → List Piece
  | _, [] => []
  | skip + 1, _ :: s => piecesFrom skip s
  | 0, c :: s =>
    match readPlace? (c :: s) with
    | some (p, rest) => p :: piecesFrom (s.length - rest.length) s
    | none => .char c :: piecesFrom 0 s

/-- The pieces of a template. -/
def pieces (s : List Char) : List Piece := piecesFrom 0 s

/-! ## Evaluation -/

/-- The value that a path of names leads to inside a value. -/
def walk : Value → List String → Option Value
  | v, [] => some v
  | .dict entries, k :: ks => (Entries.field? entries k).bind fun v => walk v ks
  | _, _ :: _ => none

/-- The value of a dotted name. -/
def lookup (vars : Record Value) (name : String) : Option Value :=
  match Text.split "." name with
  | [] => none
  | k :: ks => (vars.get? k).bind fun v => walk v ks

/-- The text a value has in a template: nothing for null, small words for booleans, JSON for lists
and mappings, the plain text otherwise. -/
def textOf : Value → Except Fault String
  | .null => .ok ""
  | .bool b => .ok (if b then "true" else "false")
  | v@(.list _) | v@(.dict _) =>
    match v.unwritable with
    | cause :: _ => .error (.noJson cause)
    | [] => .ok (Json.text v)
  | v => .ok v.plain

/-- The text of a name that may lead nowhere. -/
def textOf? : Option Value → Except Fault String
  | none => .ok ""
  | some v => textOf v

/-- The filters that work on the words of a text, by the name of each. -/
def wordFilter? (name : String) : Option (List String → String) :=
  match name with
  | "pascal" | "pascalCase" => some fun ws => String.join (ws.map Text.capitalWord)
  | "camel" | "camelCase" =>
    some fun ws => Text.lowerFirst (String.join (ws.map Text.capitalWord))
  | "snake" | "snakeCase" => some fun ws => Text.join "_" (ws.map Text.lower)
  | "kebab" | "kebabCase" => some fun ws => Text.join "-" (ws.map Text.lower)
  | "title" => some fun ws => Text.join " " (ws.map Text.capitalWord)
  | _ => none

/-- The filter of a name. -/
def filter? (name : String) : Option (String → String) :=
  match name with
  | "upper" => some Text.upper
  | "lower" => some Text.lower
  | "capitalize" => some Text.upperFirst
  | name => (wordFilter? name).map fun f s => f (Text.words s)

/-- A text through a chain of filters, left to right. -/
def applyFilters : List (List Char) → String → Except Fault String
  | [], s => .ok s
  | name :: rest, s =>
    match filter? (String.ofList name) with
    | some f => applyFilters rest (f s)
    | none => .error (.unknownFilter (String.ofList name))

/-- The text of one piece. -/
def Piece.eval (vars : Record Value) : Piece → Except Fault (List Char)
  | .char c => .ok [c]
  | .place name filters => do
    let s ← textOf? (lookup vars (String.ofList name))
    return (← applyFilters filters s).toList

/-- The texts of pieces one behind the other; the first fault wins. -/
def evalAll (vars : Record Value) : List Piece → Except Fault (List Char)
  | [] => .ok []
  | p :: ps => do
    let a ← p.eval vars
    let b ← evalAll vars ps
    return a ++ b

/-- The text with its placeholders replaced. -/
def render (text : String) (vars : Record Value) : Except Fault String :=
  (evalAll vars (pieces text.toList)).map String.ofList

end Template

end Scaffold
