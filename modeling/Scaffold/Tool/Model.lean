import Scaffold.Context
import Scaffold.Recipe.Fields
import Scaffold.Tool.Files

/-!
# Steps that ask a model

While prompts are collected such a step records its inquiry and does nothing else.  With an answer at
hand, the answer is unfenced, checked and delivered; without one the step generates its text.  Text
that fails its checks is never delivered: a model may be asked again, or a fallback stands in, or the
step fails.
-/

namespace Scaffold

/-- The checks as data, without those that are not set. -/
def Guardrails.toRecord (g : Guardrails) : Record Value :=
  g.fields.filter fun e => match e.2 with
    | .null => false
    | _ => true

namespace AiStep

/-! ## Checking -/

/-- The kinds of outputs. -/
def outputTypes : List String := ["variable", "file", "inject", "stdout"]

/-- What is wrong with an output. -/
def checkOutput (o : Output) (step : Step) : Findings :=
  let kind := "output type \"" ++ o.type ++ "\""
  let lacks (s : Option String) : Bool := (filled? s).isNone
  if !outputTypes.contains o.type then
    { errors := [step.about ("invalid " ++ kind ++ ". Must be one of: " ++ Text.join ", " outputTypes)] }
  else if o.type == "variable" && lacks o.target? then
    { errors := [step.about (kind ++ " requires a \"variable\" name")] }
  else Findings.errorIf ((o.type == "file" || o.type == "inject") && lacks o.target)
    (step.about (kind ++ " requires a \"to\" path"))

/-- Whether a temperature is out of range. -/
def isExtreme (t : Binary64) : Bool :=
  !(Number.le (.int 0) (.float t) && Number.le (.float t) (.int 2))

/-- What is wrong with a step. -/
def check (s : AiStep) (step : Step) (c : StepContext) : Findings :=
  Findings.errorIf (Text.isBlankString s.prompt) (step.about "prompt is required") ++
    ((s.output.map fun o => checkOutput o step).getD {}) ++
    Findings.errorIf (s.temperature.any isExtreme) (step.about "temperature must be between 0 and 2") ++
    Findings.errorIf (s.maxTokens.any (· ≤ 0)) (step.about "max_tokens must be a positive number") ++
    Findings.warnIf (c.generator.isNone && !c.answers.has (s.answerKey step.name))
      (step.about "no AI provider configured; the prompt will be collected for an answers file")

/-! ## Asking -/

/-- What the output should look like. -/
def described (s : AiStep) : String :=
  match filled? (s.output.bind (·.format)), filled? s.guardrails.syntaxOf with
  | some format, _ => format
  | none, some language => "Valid " ++ language ++ " content only, no surrounding prose."
  | none, none => ""

/-- The context of a step. -/
def surroundings (s : AiStep) (c : StepContext) : Run Context := do
  let st ← get
  Run.ofExcept <| Context.gather s.context
    { tree := st.tree, project := c.project, outputs := c.results.map fun e => (e.1, e.2.output)
      values := st.scope.visible }

/-- Records the inquiry of a step. -/
def collect (s : AiStep) (step : Step) (c : StepContext) : Run StepResult := do
  let key := s.answerKey step.name
  let context ← s.surroundings c
  let prompt := Prompt.task (← c.render s.prompt) s.examples
  Run.collect fun k => k.add
    { key, prompt, contexts := context.sections, outputDescription := s.described
      typeHint := s.guardrails.syntaxOf, examples := s.examples
      source := some ((c.recipe.source.map (·.toString)).getD c.recipe.name)
      metadata := [("step", .str step.name), ("guardrails", .ofRecord s.guardrails.toRecord)] }
  return step.completed ("collected prompt '" ++ key ++ "'") .null {}
    [("collected", .bool true), ("key", .str key)]

/-- The whole prompt of a step. -/
def fullPrompt (s : AiStep) (c : StepContext) : Run String := do
  let context ← s.surroundings c
  let task := Prompt.task (← c.render s.prompt) s.examples
  let task := if s.described = "" then task
    else task ++ "\n\nExpected output format: " ++ s.described
  return if context.sections.isEmpty then task
    else "## Context\n\n" ++ Text.join "\n\n" context.sections ++ "\n\n## Task\n\n" ++ task

/-- The failure of a step that has neither an answer nor a model. -/
def unanswered (key : String) : Failure :=
  .general ("No answer for '" ++ key ++ "' and no AI provider configured. Add '" ++ key ++
    "' to the answers file or set KITGEN_AI_PROVIDER.")

/-- Generates the text of a step, for its own prompt or another. -/
def generate (s : AiStep) (step : Step) (c : StepContext) (prompt : Option String := none) :
    Run String := do
  let key := s.answerKey step.name
  match c.generator with
  | none => throw (unanswered key)
  | some g =>
    let prompt ← match filled? prompt with
      | some p => pure p
      | none => s.fullPrompt c
    let made ← g.generate
      { key, prompt, system := s.system, temperature := s.temperature.map .float
        maxTokens := s.maxTokens, guardrails := s.guardrails, budget := s.budget }
    return made.text

/-- An answer that passes its checks, or what comes in its place. -/
def checked (s : AiStep) (step : Step) (c : StepContext) (answer : String) : Run String := do
  let report ← Run.ofExcept (s.guardrails.check answer)
  if report.passed then return answer
  match s.guardrails.onFailure, c.generator, s.guardrails.fallback with
  | .retry, some _, _ =>
    s.generate step c (some (Prompt.correction (← s.fullPrompt c) report.errors answer))
  | .fallback, _, some text => return text
  | _, _, _ => throw (.rejected (s.answerKey step.name) report.errors)

/-! ## Delivering -/

/-- Whether a file is there with a text as its content. -/
def holdsText (p : Path) (text : String) : Run Bool := do
  if (← get).tree.present p then return decide ((← Run.readText p) = text) else return false

/-- Writes a text into a file. -/
def deliverFile (target : String) (step : Step) (c : StepContext) (text : String)
    (failing : Option Tree.Stage := none) : Run StepResult := do
  let path ← c.resolve target
  let shown := c.shown path
  if c.isDry then return step.completed (dryMark ++ " Would write " ++ shown) (.str text)
  let present := (← get).tree.present path
  if (← holdsText path text) then return step.completed ("unchanged: " ++ shown) (.str text)
  Run.writeText path text failing
  return step.completed ("wrote: " ++ shown) (.str text)
    (if present then { modified := [shown] } else { created := [shown] })

/-- Splices a text into a file. -/
def deliverSplice (o : Output) (target : String) (step : Step) (c : StepContext) (text : String)
    (failing : Option Tree.Stage := none) : Run StepResult := do
  let path ← c.resolve target
  let shown := c.shown path
  let skipIf ← (filled? o.skipIf).mapM c.render
  let (changed, reason) ←
    Run.splice path text { location := o.insertion.location, skipIf } c.isDry failing
  match filled? reason with
  | some why => return step.skipped (why ++ " (" ++ shown ++ ")") (.str text)
  | none =>
    if c.isDry || !changed then
      return step.completed ((if c.isDry then dryMark else "unchanged:") ++ " " ++ shown) (.str text)
    return step.completed ("injected: " ++ shown) (.str text) { modified := [shown] }

/-- Delivers a text to the output of a step. -/
def deliver (s : AiStep) (step : Step) (c : StepContext) (text : String)
    (failing : Option Tree.Stage := none) : Run StepResult := do
  let name := (filled? (s.output.bind (·.target?))).getD (s.answerKey step.name)
  let target : Run String := match s.output.bind (·.target) with
    | some t => return t
    | none => throw (.badType "no target")
  match (s.output.map (·.type)).getD "variable", s.output with
  | "variable", _ =>
    Run.setVariable name (.str text)
    return step.completed ("set variable '" ++ name ++ "'") (.str text)
  | "stdout", _ =>
    Run.emit text
    return step.completed "printed generated output" (.str text)
  | "file", _ => deliverFile (← target) step c text failing
  | "inject", some o => deliverSplice o (← target) step c text failing
  | kind, _ => return step.failed ("Unknown output type: " ++ kind)

/-- Turns a failure of the domain into a failed step; other failures pass. -/
def guarded (step : Step) (r : Run StepResult) : Run StepResult := do
  match (← r.attempt) with
  | .ok result => return result
  | .error e => if e.isDomain then return step.failed e.message else throw e

/-- Asks for the text of a step, or delivers it. -/
def execute (s : AiStep) (step : Step) (c : StepContext) (failing : Option Tree.Stage := none) :
    Run StepResult := do
  match c.answers.get? (s.answerKey step.name) with
  | some answer => guarded step do
    s.deliver step c (← s.checked step c (Check.unfence answer)) failing
  | none =>
    if (← get).collector.collecting then s.collect step c
    else guarded step do s.deliver step c (← s.generate step c) failing

end AiStep

/-- Asks a model. -/
def Tool.model (failing : Option Tree.Stage := none) : Tool where
  kind := .ai
  check step c _ := match step.body with
    | .ai s => s.check step c
    | _ => {}
  execute step c := match step.body with
    | .ai s => s.execute step c failing
    | _ => return step.misplaced .ai

end Scaffold
