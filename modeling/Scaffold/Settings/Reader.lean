import Scaffold.Json.Reader
import Scaffold.Settings

/-!
# Reading settings

A section of settings comes from data that is given, from variables of the environment, whose names
are compared without regard to case, and from defaults, in this order.  A variable for a list holds
JSON.
-/

namespace Scaffold

open Schema

/-- A field of a section, and whether a variable for it holds JSON. -/
structure SettingField where
  name : String
  isList : Bool := false
  deriving DecidableEq, Inhabited, Repr

namespace Environment

/-- The last variable whose name is `name` without regard to case. -/
def anyCase? (env : Environment) (name : String) : Option String :=
  (env.reverse.find? fun e => Text.lower e.1 == Text.lower name).map (·.2)

/-- What the environment says about a field. -/
def field? (env : Environment) (start : String) (f : SettingField) :
    Except Failure (Option Value) :=
  match env.anyCase? (start ++ f.name) with
  | none => .ok none
  | some text =>
    if f.isList then
      match Json.read text with
      | .ok v => .ok (some v)
      | .error _ => .error <| .badSettings <|
        "error parsing value for field \"" ++ f.name ++ "\" from source \"EnvSettingsSource\""
    else .ok (some (.str text))

/-- What the environment says about the fields of a section. -/
def section? (env : Environment) (start : String) (fs : List SettingField) :
    Except Failure Entries := do
  let found ← fs.mapM fun f => return (← env.field? start f).map fun v => (Key.str f.name, v)
  return found.filterMap id

end Environment

namespace AiSettings

/-- The beginning of the names of variables for this section. -/
def start : String := "KITGEN_AI_"

/-- The fields of this section. -/
def fields : List SettingField :=
  ["mode", "provider", "model", "api_key", "base_url", "command", "command_mode", "command_timeout",
    "temperature", "max_tokens", "answers_path", "max_total_tokens", "max_total_cost_usd",
    "warn_at_cost_usd"].map fun n => { name := n }

/-- The section that entries make. -/
def ofEntries (es : Entries) : Checked AiSettings :=
  (AiSettings.mk
    <$> field es "mode" (choice AnswerMode.words) .auto
    <*> field es "provider" (optional (choice Provider.names)) none
    <*> field es "model" (optional text) none
    <*> field es "api_key" (optional text) none
    <*> field es "base_url" (optional text) none
    <*> field es "command" (optional text) none
    <*> field es "command_mode" (choice Batching.words) .batched
    <*> field es "command_timeout" number (.ofInt 300)
    <*> field es "temperature" (Reader.within number 0 2) (.ofDecimal false 2 (-1))
    <*> field es "max_tokens" (Reader.positive whole) 4096
    <*> field es "answers_path" text Prompt.defaultAnswersPath
    <*> field es "max_total_tokens" (optional whole) none
    <*> field es "max_total_cost_usd" (optional number) none
    <*> field es "warn_at_cost_usd" (optional number) none)
  <* noOthers es (fields.map (·.name))

end AiSettings

namespace SearchSettings

/-- The beginning of the names of variables for this section. -/
def start : String := "KITGEN_RESOLVER_"

/-- The fields of this section. -/
def fields : List SettingField := [⟨"search_dirs", true⟩, ⟨"kit_dirs", true⟩]

/-- The section that entries make. -/
def ofEntries (es : Entries) : Checked SearchSettings :=
  (SearchSettings.mk
    <$> field es "search_dirs" (listOf text) ({} : SearchSettings).searchDirectories
    <*> field es "kit_dirs" (listOf text) ({} : SearchSettings).kitDirectories)
  <* noOthers es (fields.map (·.name))

end SearchSettings

namespace LogSettings

/-- The beginning of the names of variables for this section. -/
def start : String := "KITGEN_LOG_"

/-- The fields of this section. -/
def fields : List SettingField := [⟨"level", false⟩, ⟨"json_output", false⟩]

/-- The section that entries make. -/
def ofEntries (es : Entries) : Checked LogSettings :=
  (LogSettings.mk
    <$> field es "level" text ({} : LogSettings).level
    <*> field es "json_output" flag ({} : LogSettings).asJson)
  <* noOthers es (fields.map (·.name))

end LogSettings

/-- A section from data and environment; data that is given wins. -/
def readSection {α : Type} (env : Environment) (start : String) (fs : List SettingField)
    (read : Entries → Checked α) (given : Entries) : Except Failure α := do
  let found ← env.section? start fs
  (read (Entries.ofList (found ++ given))).toExcept.mapError .badData

/-- The settings for answers. -/
def AiSettings.read (env : Environment) (given : Entries) : Except Failure AiSettings :=
  readSection env start fields ofEntries given

/-- The settings for the search. -/
def SearchSettings.read (env : Environment) (given : Entries) : Except Failure SearchSettings :=
  readSection env start fields ofEntries given

/-- The settings for the log. -/
def LogSettings.read (env : Environment) (given : Entries) : Except Failure LogSettings :=
  readSection env start fields ofEntries given

end Scaffold
