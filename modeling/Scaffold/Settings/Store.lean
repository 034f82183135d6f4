import Scaffold.Json.Writer
import Scaffold.Settings.Reader
import Scaffold.Text.Blank
import Scaffold.Tree

/-!
# The settings file

Settings may be kept in a JSON file with one object for each section.  A file that is missing, empty
or unreadable counts as an empty object, and so does a section that is no object.  Variables of the
environment win over the file; the file never holds a key when it is written.
-/

namespace Scaffold

namespace Settings

/-- The directory for settings. -/
def directory (env : Environment) : Path :=
  let base := (Record.get? env "XDG_CONFIG_HOME").getD "~/.config"
  let home := (Record.get? env "HOME").getD "/root"
  let whole := if base == "~" then home
    else if Text.startsWith "~/" base then home ++ Text.drop 1 base else base
  (Path.ofString whole).child "kitgen"

/-- The data in a settings file. -/
def fileData (t : Tree) (path : Path) : Except Failure Entries := do
  if !t.present path then return []
  match t.read path with
  | .error _ => return []
  | .ok content =>
    let text := Text.withLineFeeds (← content.decode.mapError Failure.badOctets)
    if Text.isBlankString text then return []
    match Json.read text with
    | .ok (.dict es) => return es
    | _ => return []

/-- A section of the data. -/
def sectionData (data : Entries) (name : String) : Entries :=
  match Entries.field? data name with
  | some (.dict es) => es
  | _ => []

/-- The entries of a section without those that the environment sets. -/
def withoutSet (env : Environment) (start : String) (es : Entries) : Entries :=
  es.filter fun e => !Record.has env (Text.upper (start ++ e.1.plain))

/-- Checks variables for whole sections, which must hold JSON although they do not count. -/
def checkWhole (env : Environment) : Except Failure Unit :=
  ["ai", "resolver", "logging"].forM fun name => do
    let _ ← env.field? "KITGEN_" ⟨name, true⟩
    return

/-- The settings from a file and the environment. -/
def load (t : Tree) (path : Path) (env : Environment) : Except Failure Settings := do
  let data ← fileData t path
  let part (name start : String) := withoutSet env start (sectionData data name)
  let ai ← AiSettings.read env (part "ai" AiSettings.start)
  let search ← SearchSettings.read env (part "resolver" SearchSettings.start)
  let log ← LogSettings.read env (part "logging" LogSettings.start)
  checkWhole env
  return { ai, search, log }

/-! ## Writing -/

/-- A text, if there is one. -/
def orNull {α : Type} (f : α → Value) (a : Option α) : Value := (a.map f).getD .null

/-- The section for answers as data, without the key. -/
def ofAi (s : AiSettings) : Record Value :=
  [("mode", .str s.mode.word), ("provider", orNull (fun p => .str p.name) s.provider),
    ("model", orNull .str s.model), ("base_url", orNull .str s.baseUrl),
    ("command", orNull .str s.command), ("command_mode", .str s.batching.word),
    ("command_timeout", .float s.timeout), ("temperature", .float s.temperature),
    ("max_tokens", .int s.maxTokens), ("answers_path", .str s.answersPath),
    ("max_total_tokens", orNull .int s.maxTotalTokens),
    ("max_total_cost_usd", orNull .float s.maxTotalCost),
    ("warn_at_cost_usd", orNull .float s.warnAtCost)]

/-- The section for the search as data. -/
def ofSearch (s : SearchSettings) : Record Value :=
  [("search_dirs", .texts s.searchDirectories), ("kit_dirs", .texts s.kitDirectories)]

/-- The section for the log as data. -/
def ofLog (s : LogSettings) : Record Value :=
  [("level", .str s.level), ("json_output", .bool s.asJson)]

/-- Entries without those that are null. -/
def withoutNull (r : Record Value) : Record Value :=
  r.filter fun e => match e.2 with
    | .null => false
    | _ => true

/-- The text of a settings file. -/
def write (s : Settings) : String :=
  Json.indented <| .ofRecord [("ai", .ofRecord (withoutNull (ofAi s.ai))),
    ("resolver", .ofRecord (ofSearch s.search)), ("logging", .ofRecord (ofLog s.log))]

/-- Writes a settings file and the directories above it. -/
def save (t : Tree) (path : Path) (s : Settings) : Except FileFault Tree := do
  let t ← t.makeDirectories path.parent (path.parent.parts.length + 1)
  t.write path (.text s.write)

end Settings

end Scaffold
