import Scaffold.Collector

/-!
# The fields of recipes

Recipes, variables, steps and inquiries as plain data: every field by its name, those that are not set
as null.
-/

namespace Scaffold

namespace Value

/-- An integer, or null. -/
def ofInt? (n : Option Int) : Value := (n.map Value.int).getD .null

/-- A number, or null. -/
def ofNumber? (x : Option Binary64) : Value := (x.map Value.float).getD .null

/-- A list of texts, or null. -/
def ofTexts? (ss : Option (List String)) : Value := (ss.map Value.texts).getD .null

/-- A list of records. -/
def records (rs : List (Record Value)) : Value := .list (rs.map .ofRecord)

end Value

/-- The fields of a location. -/
def Insertion.fields (i : Insertion) : Record Value :=
  [("at_line", .ofInt? i.atLine), ("before", .ofText? i.before), ("after", .ofText? i.after),
    ("prepend", .bool i.front), ("append", .bool i.back)]

/-- The fields of checks. -/
def Guardrails.fields (g : Guardrails) : Record Value :=
  [("validate_syntax", .ofText? g.syntaxOf), ("allowed_imports", .ofTexts? g.allowedImports),
    ("blocked_imports", .ofTexts? g.blockedImports), ("max_output_length", .ofInt? g.maxLength),
    ("retry_on_failure", .int g.retries), ("on_failure", .str g.onFailure.word),
    ("fallback", .ofText? g.fallback)]

/-- The fields of an example. -/
def Example.fields (e : Example) : Record Value := [("input", .str e.input), ("output", .str e.output)]

/-- The fields of a specification of context. -/
def ContextSpec.fields (c : ContextSpec) : Record Value :=
  [("files", .texts c.files), ("globs", .texts c.globs), ("from_steps", .texts c.fromSteps),
    ("project_config", .bool c.projectConfig), ("max_context_tokens", .int c.maxTokens),
    ("overflow", .str c.overflow.word)]

/-- The fields of an output. -/
def Output.fields (o : Output) : Record Value :=
  [("type", .str o.type), ("variable", .ofText? o.target?), ("to", .ofText? o.target),
    ("skip_if", .ofText? o.skipIf), ("format", .ofText? o.format)] ++ o.insertion.fields

/-- The fields of a step that asks a model. -/
def AiStep.fields (s : AiStep) : Record Value :=
  [("key", .ofText? s.key), ("prompt", .str s.prompt), ("system", .ofText? s.system),
    ("model", .ofText? s.model), ("context", .ofRecord s.context.fields),
    ("examples", .records (s.examples.map (·.fields))),
    ("output", (s.output.map fun o => .ofRecord o.fields).getD .null),
    ("guardrails", .ofRecord s.guardrails.fields),
    ("budget", .ofRecord [("max_tokens", .ofInt? s.budget.maxTokens),
      ("max_cost_usd", .ofNumber? s.budget.maxCost)]),
    ("temperature", .ofNumber? s.temperature), ("max_tokens", .ofInt? s.maxTokens)]

/-- The fields of what a step does. -/
def StepBody.fields : StepBody → Record Value
  | .action s => [("action", .str s.action), ("parameters", .ofRecord s.parameters)]
  | .add s =>
    [("to", .str s.target), ("body", .ofText? s.body), ("from", .ofText? s.source),
      ("unless_exists", .bool s.unlessExists), ("force", .bool s.force), ("skip_if", .ofText? s.skipIf)]
  | .inject s =>
    [("to", .str s.target), ("body", .ofText? s.body), ("from", .ofText? s.source),
      ("skip_if", .ofText? s.skipIf), ("eol_last", .bool s.endsLine)] ++ s.insertion.fields
  | .shell s => [("command", .str s.command), ("cwd", .ofText? s.directory)]
  | .setup s => [("commands", .texts s.commands), ("cwd", .ofText? s.directory)]
  | .echo s => [("message", .str s.message)]
  | .ai s => s.fields

/-- The fields of a step. -/
def Step.fields (s : Step) : Record Value :=
  [("tool", .str s.kind.tag), ("name", .str s.name), ("description", .str s.description),
    ("when", .ofText? s.condition), ("variables", .ofRecord s.overrides),
    ("action_id", .ofText? s.actionId), ("subscribe_to", .texts s.subscribesTo),
    ("reads", .texts s.reads), ("writes", .texts s.writes)] ++ s.body.fields

/-- The fields of a variable. -/
def Variable.fields (d : Variable) : Record Value :=
  [("type", .str d.kind.word), ("required", .bool d.required), ("default", d.default),
    ("suggestion", d.suggestion), ("description", .str d.description), ("position", .ofInt? d.position),
    ("values", (d.values.map Value.list).getD .null), ("min", .ofNumber? d.min), ("max", .ofNumber? d.max),
    ("pattern", .ofText? d.pattern)]

/-- The fields of an inquiry. -/
def Inquiry.fields (i : Inquiry) : Record Value :=
  [("key", .str i.key), ("prompt", .str i.prompt), ("contexts", .texts i.contexts),
    ("output_description", .str i.outputDescription), ("type_hint", .ofText? i.typeHint),
    ("examples", .records (i.examples.map (·.fields))), ("source", .ofText? i.source),
    ("metadata", .ofRecord i.metadata)]

/-- The fields of a collector, with the keys of its inquiries. -/
def Collector.fields (c : Collector) : Record Value :=
  [("collect_mode", .bool c.collecting), ("has_entries", .bool c.isPending), ("keys", .texts c.keys),
    ("entries", .records (c.pending.map (·.fields))), ("global_contexts", .texts c.contexts)]

end Scaffold
