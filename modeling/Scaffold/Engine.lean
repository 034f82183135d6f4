import Scaffold.Recipe.Variables
import Scaffold.Tool.Action
import Scaffold.Tool.Commands
import Scaffold.Tool.Model

/-!
# Execution of recipes

All steps are checked before the first one runs.  They run in order up to the first that fails; a
failure raised by a tool becomes the failure of its step.

The variables of a step come in layers, from the lowest: the defaults of the recipe, the step's own
overrides, the values from the caller, what earlier steps have set, and answers.

While prompts are collected, steps that cannot be repeated are put off, and steps that change files
only say what they would do.
-/

namespace Scaffold

/-- What recipes are executed with. -/
structure Engine where
  project : Path
  tools : Tools
  generator : Option Generator := none
  prompter : Option Prompter := none

/-- The tools for all kinds of steps. -/
def Tools.standard (sh : Shell) (actions : Actions) : Tools :=
  [.action actions, .add, .inject, .shell sh, .setup sh, .echo, .model]

/-- The words for no. -/
def negativeWords : List String := ["", "false", "no", "0", "off", "none", "null"]

/-- Whether a value counts as true in a condition: a text does unless it is one of the words for no. -/
def Value.holds (v : Value) : Bool :=
  match v with
  | .str s => !negativeWords.contains (Text.lower (Text.trim s))
  | v => v.truthy

/-- Whether a condition keeps a step from running. -/
def Step.isExcluded (s : Step) (values : Record Value) : Bool :=
  match filled? s.condition with
  | none => false
  | some condition =>
    let name := Text.trim (String.ofList (condition.toList.dropWhile (· == '!')))
    ((values.get? name).getD .null).holds == Text.startsWith "!" condition

/-- The overrides of a step: texts are rendered with the defaults and the caller's values. -/
def Step.localVariables (s : Step) (b : Bindings) : Except Failure (Record Value) :=
  s.overrides.mapM fun (k, v) => match v with
    | .str text => do return (k, .str (← (Template.render text b.merged).mapError Failure.ofTemplate))
    | v => return (k, v)

/-- Answers as values. -/
def asValues (answers : Record String) : Record Value := answers.map fun e => (e.1, .str e.2)

/-- The variables that a step sees. -/
def Step.values (s : Step) (b : Bindings) (produced : Record Value) (answers : Record String) :
    Except Failure (Record Value) := do
  let here ← s.localVariables b
  return (((b.defaults.merge here).merge b.values).merge produced).merge (asValues answers)

namespace Engine

/-- What a step of a recipe may know. -/
def context (e : Engine) (r : Recipe) (options : Options) (answers : Record String)
    (results : Record StepResult) : StepContext :=
  { recipe := r, project := e.project, options, results, answers, generator := e.generator
    prompter := e.prompter }

/-- What is wrong with one step. -/
def validateStep (e : Engine) (r : Recipe) (values : Record Value) (answers : Record String)
    (s : Step) : Findings :=
  match e.tools.get? s.kind with
  | none => { errors := [s.about ("no tool registered for '" ++ s.kind.tag ++ "'")] }
  | some t => t.validate s (e.context r {} answers []) values

/-- What is wrong with a recipe. -/
def validate (e : Engine) (r : Recipe) (values : Record Value := []) (answers : Record String := []) :
    Findings :=
  r.steps.foldl (fun f s => f ++ e.validateStep r values answers s) {}

/-- Executes a step with its tool. -/
def runTool (t : Tool) (s : Step) (c : StepContext) : Run StepResult := do
  match (← (t.execute s c).attempt) with
  | .ok result => return result
  | .error f => return s.failed f.report

/-- Runs a step, unless its condition or the collecting of prompts keeps it from running. -/
def runStep (e : Engine) (s : Step) (c : StepContext) : Run StepResult := do
  let session ← get
  if s.isExcluded session.scope.visible then
    return s.skipped ("when: " ++ s.condition.getD "")
  let collecting := session.collector.collecting
  if collecting && s.kind.isDeferred then
    return s.skipped "deferred until answers are available" .null [("collect_pass", .bool true)]
  match e.tools.get? s.kind with
  | none => return s.failed ("no tool registered for '" ++ s.kind.tag ++ "'")
  | some t => runTool t s { c with simulate := collecting && s.kind.mutatesFiles }

/-- Prepares the variables of a step, and runs it. -/
def step (e : Engine) (r : Recipe) (b : Bindings) (options : Options) (answers : Record String)
    (results : Record StepResult) (s : Step) : Run StepResult := do
  let visible ← Run.ofExcept (s.values b (← get).scope.produced answers)
  modify fun st => { st with scope := { st.scope with visible } }
  Run.note (.began s.name visible)
  e.runStep s (e.context r options answers results)

/-- The results of steps, up to the first that failed. -/
def runSteps (e : Engine) (r : Recipe) (b : Bindings) (options : Options) (answers : Record String)
    (results : Record StepResult) : List Step → Run (List StepResult)
  | [] => return []
  | s :: rest => do
    let result ← e.step r b options answers results s
    if !result.success then return [result]
    return result :: (← runSteps e r b options answers (results.put s.name result) rest)

/-- Why a recipe stopped at a failed step. -/
def stepError (r : StepResult) : String :=
  let reason := ((filled? r.error).or (filled? (some r.message))).getD "failed"
  (Failure.stepFailed r.step reason).message

/-- Executes a recipe. -/
def execute (e : Engine) (r : Recipe) (b : Bindings) (options : Options := {})
    (answers : Record String := []) : Run RecipeResult := do
  let findings := e.validate r b.merged answers
  if !findings.valid then
    throw (.recipeInvalid (findings.errors ++ findings.suggestions) (some r.name))
  modify fun s => { s with scope := {} }
  Run.note (.executed r.name (← get).collector.collecting)
  let steps ← e.runSteps r b options answers [] r.steps
  return { recipe := r.name, path := r.source, steps
           values := (b.merged.merge (← get).scope.produced).merge (asValues answers)
           error := (steps.find? fun s => !s.success).map stepError }

end Engine

end Scaffold
