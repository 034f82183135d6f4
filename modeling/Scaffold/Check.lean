import Scaffold.Check.Brackets
import Scaffold.Check.Fence
import Scaffold.Check.Imports
import Scaffold.Check.Statements
import Scaffold.Failure
import Scaffold.Recipe.Basic
import Scaffold.Yaml.Document

/-!
# Checks on generated text

What a step may ask of the text that a model wrote for it: that it is not empty, not too long, well
formed in a language, and that it imports only what it may.  A report lists errors, which make the
text unusable, and warnings, which do not.

Scripts are held to their brackets alone.
-/

namespace Scaffold

namespace Check

/-- What the checks found. -/
structure Report where
  errors : List String := []
  warnings : List String := []
  deriving DecidableEq, Inhabited, Repr

/-- Whether a text may be used. -/
def Report.passed (r : Report) : Bool := r.errors.isEmpty

/-- A text shorter than this is suspicious. -/
def shortLength : Nat := 10

/-- The fault of a text that should be JSON. -/
def jsonProblem? (text : String) : Option String :=
  match Json.read text with
  | .ok _ => none
  | .error e => some ("Invalid JSON: " ++ e.message)

/-- The fault of a text that should be YAML.  A scalar without a value, such as one in the form of a date
that names none, is a failure of its own. -/
def yamlProblem? (text : String) : Except Failure (Option String) :=
  match Yaml.read text with
  | .ok _ => .ok none
  | .error (.malformed m) => .ok (some ("Invalid YAML: " ++ m))
  | .error f => .error (Failure.ofYaml .general f)

/-- What is wrong with a text in a language; a language that is not known has no faults. -/
def syntaxProblem? (text language : String) : Except Failure (Option String) :=
  match Text.lower language with
  | "json" => .ok (jsonProblem? text)
  | "yaml" | "yml" => yamlProblem? text
  | "python" | "py" =>
    .ok (if Statements.recognises text then none else some "Invalid Python: invalid syntax")
  | "typescript" | "ts" | "tsx" | "javascript" | "js" | "jsx" =>
    .ok ((bracketFault? text.toList).map fun f => "Invalid " ++ language ++ ": " ++ f.message)
  | _ => .ok none

/-- Whether a module is one of those listed, or inside one of them. -/
def isListed (module : String) (listed : List String) : Bool :=
  listed.any fun l => module == l || Text.startsWith (l ++ "/") module || Text.startsWith (l ++ ".") module

/-- What is wrong with importing a module.  Modules of the project itself may always be imported. -/
def importProblem? (g : Guardrails) (module : String) : Option String :=
  if Text.startsWith "." module then none
  else if isListed module (g.blockedImports.getD []) then
    some ("Import '" ++ module ++ "' is blocked")
  else if g.allowedImports.any fun allowed => !isListed module allowed then
    some ("Import '" ++ module ++ "' is not in the allowed list")
  else none

/-- Whether imports are looked at: where some are blocked, or only some are allowed. -/
def looksAtImports (g : Guardrails) : Bool :=
  g.allowedImports.isSome || !(g.blockedImports.getD []).isEmpty

/-- What is wrong with the length of a text. -/
def lengthProblem? (text : String) (g : Guardrails) : Option String :=
  (g.maxLength.filter fun n => n < (text.length : Int)).map fun n =>
    "Output is " ++ toString text.length ++ " characters, limit is " ++ intText n

/-- What is wrong with the form of a text. -/
def formProblem? (text : String) (g : Guardrails) : Except Failure (Option String) :=
  match g.syntaxOf with
  | some language => syntaxProblem? text language
  | none => .ok none

/-- What is wrong with the imports of a text. -/
def importProblems (text : String) (g : Guardrails) : List String :=
  if looksAtImports g then (imports text).filterMap (importProblem? g) else []

/-- The suspicion that a text is too short. -/
def shortWarning? (text : String) : Option String :=
  let n := (Text.trim text).length
  if n < shortLength then some ("Output is very short (" ++ toString n ++ " characters)") else none

end Check

open Check in
/-- Checks a text. -/
def Guardrails.check (g : Guardrails) (text : String) : Except Failure Report := do
  if Text.isBlankString text then return { errors := ["Output is empty"] }
  let form ← formProblem? text g
  return { errors := (lengthProblem? text g).toList ++ form.toList ++ importProblems text g
           warnings := (shortWarning? text).toList }

end Scaffold
