import Scaffold.Collector
import Scaffold.Prompt
import Scaffold.Value.Written

/-!
# Inquiries for variables

A required variable that nobody gave a value can be put to the model like any other task.
-/

namespace Scaffold

/-- What the value of a variable should look like. -/
def Variable.described (d : Variable) : String :=
  "A " ++ d.kind.word ++ " value" ++
    match d.values with
    | none | some [] => ""
    | some vs => ", one of: " ++ Text.join ", " (vs.map (·.plain))

/-- The inquiry for a variable of a recipe. -/
def Recipe.inquiryFor (r : Recipe) (name : String) (d : Variable) : Inquiry :=
  { key := name
    prompt := "Provide a value for the " ++ Prompt.codeName name ++ " variable of recipe " ++
      Prompt.codeName r.name ++ "." ++
      (if d.description = "" then "" else " " ++ d.description) ++
      (match d.suggestion with
        | .null => ""
        | v => " Suggested value: " ++ v.plain ++ ".")
    outputDescription := d.described
    typeHint := some d.kind.word
    source := some r.name }

/-- The inquiries for variables of a recipe. -/
def Recipe.inquiriesFor (r : Recipe) (names : List String) : List Inquiry :=
  names.filterMap fun n => (r.declared.get? n).map (r.inquiryFor n)

end Scaffold
