import Scaffold.Recipe.Basic
import Scaffold.Schema

/-!
# Reading recipes

The schema of a recipe.  Steps refuse fields they do not know; recipes and variables pass over them.
A step without a name is given one of its tool and its number first; names have to differ.
-/

namespace Scaffold

namespace Recipe

open Schema

/-! ## Variables -/

/-- A list of allowed values, which must not be empty. -/
def allowedValues : Reader (List Value) := fun v =>
  (listOf anything v).andThen fun vs =>
    if vs.isEmpty then refuse "Value error, values must not be empty" else .ok vs

/-- A declared variable. -/
def readVariable : Reader Variable := fun v =>
  (entriesOf "VariableDefinition" v).andThen fun es =>
    Variable.mk
      <$> field es "type" (choice VariableKind.all) .string
      <*> field es "required" flag false
      <*> field es "default" anything .null
      <*> field es "suggestion" anything .null
      <*> field es "description" text ""
      <*> field es "position" (optional (Reader.atLeast whole 0)) none
      <*> field es "values" (optional allowedValues) none
      <*> field es "min" (optional number) none
      <*> field es "max" (optional number) none
      <*> field es "pattern" (optional text) none

/-! ## The bodies of steps -/

/-- A list of texts. -/
def textList : Reader (List String) := listOf text

/-- The fields that say where a splice goes. -/
def readInsertion (es : Entries) : Checked Insertion :=
  Insertion.mk
    <$> field es "at_line" (optional whole) none
    <*> field es "before" (optional text) none
    <*> field es "after" (optional text) none
    <*> field es "prepend" flag false
    <*> field es "append" flag false

/-- The names of those fields. -/
def insertionFields : List String := ["at_line", "before", "after", "prepend", "append"]

/-- The template that a body is read from, which has two names. -/
def readSource (es : Entries) : Checked (Option String) :=
  if (Entries.field? es "from").isSome then field es "from" (optional text) none
  else field es "from_" (optional text) none

/-- The names of that field that count in `es`. -/
def sourceFields (es : Entries) : List String :=
  if (Entries.field? es "from").isSome then ["from"] else ["from", "from_"]

/-- The sources of context. -/
def readContext : Reader ContextSpec := fun v =>
  (entriesOf "AiContextSpec" v).andThen fun es =>
    (ContextSpec.mk
      <$> field es "files" textList []
      <*> field es "globs" textList []
      <*> field es "from_steps" textList []
      <*> field es "project_config" flag false
      <*> field es "max_context_tokens" (Reader.positive whole) 8000
      <*> field es "overflow"
        (choice [("truncate", .truncate), ("skip", .skip), ("error", .error)]) .truncate)
    <* noOthers es
      ["files", "globs", "from_steps", "project_config", "max_context_tokens", "overflow"]

/-- An example. -/
def readExample : Reader Example := fun v =>
  (entriesOf "AiExample" v).andThen fun es =>
    (Example.mk <$> field es "input" text "" <*> required es "output" text)
    <* noOthers es ["input", "output"]

/-- Where content goes. -/
def readOutput : Reader Output := fun v =>
  (entriesOf "AiOutput" v).andThen fun es =>
    (Output.mk
      <$> field es "type" text "variable"
      <*> field es "variable" (optional text) none
      <*> field es "to" (optional text) none
      <*> readInsertion es
      <*> field es "skip_if" (optional text) none
      <*> field es "format" (optional text) none)
    <* noOthers es (["type", "variable", "to", "skip_if", "format"] ++ insertionFields)

/-- Checks on content. -/
def readGuardrails : Reader Guardrails := fun v =>
  (entriesOf "AiGuardrails" v).andThen fun es =>
    (Guardrails.mk
      <$> field es "validate_syntax" (optional text) none
      <*> field es "allowed_imports" (optional textList) none
      <*> field es "blocked_imports" (optional textList) none
      <*> field es "max_output_length" (optional (Reader.positive whole)) none
      <*> field es "retry_on_failure" (Reader.atLeast (Reader.atMost whole 10) 0) 0
      <*> field es "on_failure"
        (choice [("error", .error), ("retry-with-feedback", .retry), ("fallback", .fallback)]) .error
      <*> field es "fallback" (optional text) none)
    <* noOthers es ["validate_syntax", "allowed_imports", "blocked_imports", "max_output_length",
      "retry_on_failure", "on_failure", "fallback"]

/-- What a step may spend. -/
def readAllowance : Reader Allowance := fun v =>
  (entriesOf "AiBudget" v).andThen fun es =>
    (Allowance.mk
      <$> field es "max_tokens" (optional (Reader.positive whole)) none
      <*> field es "max_cost_usd" (optional (Reader.above number)) none)
    <* noOthers es ["max_tokens", "max_cost_usd"]

/-- The body of a step of a kind, and the names of its fields. -/
def readBody (es : Entries) : StepKind → Checked StepBody × List String
  | .action =>
    (StepBody.action <$> (ActionStep.mk
      <$> field es "action" text ""
      <*> field es "parameters" (recordOf anything) []),
    ["action", "parameters"])
  | .add =>
    (StepBody.add <$> (AddStep.mk
      <$> field es "to" text ""
      <*> field es "body" (optional text) none
      <*> readSource es
      <*> field es "unless_exists" flag false
      <*> field es "force" flag false
      <*> field es "skip_if" (optional text) none),
    ["to", "body", "unless_exists", "force", "skip_if"] ++ sourceFields es)
  | .inject =>
    (StepBody.inject <$> (InjectStep.mk
      <$> field es "to" text ""
      <*> field es "body" (optional text) none
      <*> readSource es
      <*> readInsertion es
      <*> field es "skip_if" (optional text) none
      <*> field es "eol_last" flag true),
    ["to", "body", "skip_if", "eol_last"] ++ insertionFields ++ sourceFields es)
  | .shell =>
    (StepBody.shell <$> (ShellStep.mk
      <$> field es "command" text ""
      <*> field es "cwd" (optional text) none),
    ["command", "cwd"])
  | .setup =>
    (StepBody.setup <$> (SetupStep.mk
      <$> field es "commands" textList []
      <*> field es "cwd" (optional text) none),
    ["commands", "cwd"])
  | .echo => (StepBody.echo <$> (EchoStep.mk <$> field es "message" text ""), ["message"])
  | .ai =>
    (StepBody.ai <$> (AiStep.mk
      <$> field es "key" (optional text) none
      <*> field es "prompt" text ""
      <*> field es "system" (optional text) none
      <*> field es "model" (optional text) none
      <*> field es "context" readContext {}
      <*> field es "examples" (listOf readExample) []
      <*> field es "output" (optional readOutput) none
      <*> field es "guardrails" readGuardrails {}
      <*> field es "budget" readAllowance {}
      <*> field es "temperature" (optional number) none
      <*> field es "max_tokens" (optional whole) none),
    ["key", "prompt", "system", "model", "context", "examples", "output", "guardrails", "budget",
      "temperature", "max_tokens"])

/-! ## Steps -/

/-- The names of the fields that every step has. -/
def stepFields : List String :=
  ["name", "description", "when", "variables", "action_id", "subscribe_to", "reads", "writes", "tool"]

/-- A step of a kind. -/
def readStepOf (kind : StepKind) (es : Entries) : Checked Step :=
  let (body, names) := readBody es kind
  (Step.mk
    <$> field es "name" text ""
    <*> field es "description" text ""
    <*> field es "when" (optional text) none
    <*> field es "variables" (recordOf anything) []
    <*> field es "action_id" (optional text) none
    <*> field es "subscribe_to" textList []
    <*> field es "reads" textList []
    <*> field es "writes" textList []
    <*> body)
  <* noOthers es (stepFields ++ names)

/-- The tags of steps as a message lists them. -/
def tagList : String := Text.join ", " (StepKind.all.map fun k => "'" ++ k.tag ++ "'")

/-- A step, of the kind that its tag names. -/
def readStep : Reader Step
  | .dict es =>
    match Entries.field? es "tool" with
    | none => refuse "Unable to extract tag using discriminator 'tool'"
    | some tool =>
      let kind := match tool with
        | .str s => StepKind.ofTag? s
        | _ => none
      match kind with
      | some k => (readStepOf k es).under k.tag
      | none =>
        refuse ("Input tag '" ++ tool.plain ++
          "' found using 'tool' does not match any of the expected tags: " ++ tagList)
  | _ => refuse "Input should be a valid dictionary or object to extract fields from"

/-- Gives a step without a name one of its tool and its number. -/
def nameStep (number : Nat) : Value → Value
  | .dict es =>
    if ((Entries.field? es "name").getD .null).truthy then .dict es
    else
      let tool := ((Entries.field? es "tool").getD (.str "step")).plain
      .dict (Entries.put es (.str "name") (.str (tool ++ "-" ++ toString number)))
  | v => v

/-- Names every step of a list. -/
def nameSteps : Value → Value
  | .list items => .list (items.mapIdx fun i v => nameStep (i + 1) v)
  | v => v

/-- The names that occur more than once, in order. -/
def repeated (names : List String) : List String :=
  (names.eraseDups.filter fun n => 1 < names.count n).mergeSort fun a b => decide (a ≤ b)

/-- The steps, which are named first and must not share a name. -/
def readSteps : Reader (List Step) := fun v =>
  (listOf readStep (nameSteps v)).andThen fun steps =>
    match repeated (steps.map (·.name)) with
    | [] => .ok steps
    | names => refuse ("Value error, Duplicate step names: " ++ Text.join ", " names)

/-! ## Recipes -/

/-- The file of a recipe. -/
def readPath : Reader Path
  | .str s => .ok (Path.ofString s)
  | _ => refuse "Input is not a valid path"

/-- A recipe. -/
def ofValue : Reader Recipe := fun v =>
  (entriesOf "RecipeDefinition" v).andThen fun es =>
    Recipe.mk
      <$> required es "name" text
      <*> field es "description" text ""
      <*> field es "version" (optional text) none
      <*> field es "variables" (recordOf readVariable) []
      <*> field es "steps" readSteps []
      <*> field es "source_path" (optional readPath) none

end Recipe

end Scaffold
