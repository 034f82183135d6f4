import Scaffold.Action
import Scaffold.Tool.Files

/-!
# Steps that run actions

The parameters of an action come from its defaults, from the variables the step sees, from what
earlier steps handed on, and last from the step itself.  A required one that is still missing is asked
for where someone can answer.  The output is handed on under the names that the step writes.
-/

namespace Scaffold

namespace ActionStep

/-- Whether a required parameter cannot be supplied. -/
def lacks (s : ActionStep) (values : Record Value) (p : ActionParameter) : Bool :=
  p.required && !s.parameters.has p.name && !values.has p.name &&
    match p.default with
    | .null => true
    | _ => false

/-- What is wrong with a step. -/
def check (s : ActionStep) (actions : Actions) (step : Step) (values : Record Value) : Findings :=
  if s.action = "" then { errors := [step.about "action name is required"] }
  else match actions.find? s.action with
    | none =>
      let similar := actions.similar s.action
      { errors := ["Action '" ++ s.action ++ "' is not registered"]
        suggestions := if similar.isEmpty then []
          else ["Similar actions available: " ++ Text.join ", " similar] }
    | some a =>
      { warnings := (a.parameters.filter (s.lacks values)).map fun p =>
          "Required parameter '" ++ p.name ++ "' for action '" ++ s.action ++
            "' is missing and will be prompted" }

/-- The parameters from variables and defaults. -/
def declared (a : Action) (values : Record Value) : Record Value :=
  a.parameters.foldl (fun r p => match values.get? p.name, p.default with
    | some v, _ => r.put p.name v
    | none, .null => r
    | none, v => r.put p.name v) []

/-- The parameters with what earlier steps handed on. -/
def withShared (step : Step) (shared params : Record Value) : Record Value :=
  step.reads.foldl (fun r k => match shared.get? k with
    | some v => r.putNew k v
    | none => r) params

/-- The value of a parameter of the step: a text is rendered. -/
def rendered (c : StepContext) (v : Value) : Run Value :=
  match v with
  | .str text => return .str (← c.render text)
  | v => return v

/-- A required parameter that is still missing, asked for where someone can answer. -/
def complete (a : Action) (c : StepContext) (params : Record Value) (p : ActionParameter) :
    Run (Record Value) := do
  if !p.required || params.has p.name then return params
  match c.options.interactive, c.prompter with
  | true, some who =>
    return params.put p.name (← who.ask p.name { required := true, description := p.description })
  | _, _ => throw (.badValue ("Action '" ++ a.name ++ "' requires parameter '" ++ p.name ++ "'"))

/-- The parameters of an action. -/
def arguments (s : ActionStep) (a : Action) (step : Step) (c : StepContext) : Run (Record Value) := do
  let scope := (← get).scope
  let known := withShared step scope.shared (declared a scope.visible)
  let given ← s.parameters.mapM fun (k, v) => do return (k, ← rendered c v)
  a.parameters.foldlM (complete a c) (known.merge given)

/-- What a step says about itself. -/
def about (s : ActionStep) (step : Step) : Record Value :=
  [("action", .str s.action), ("action_id", .str ((filled? step.actionId).getD step.name)),
    ("subscribe_to", .texts step.subscribesTo), ("reads", .texts step.reads),
    ("writes", .texts step.writes)]

/-- Runs an action. -/
def execute (s : ActionStep) (actions : Actions) (step : Step) (c : StepContext) : Run StepResult := do
  let about := s.about step
  match actions.find? s.action with
  | none => return step.failed ("Action '" ++ s.action ++ "' is not registered") .null about
  | some a =>
    let params ← s.arguments a step c
    if c.isDry then
      return step.completed (dryMark ++ " Would run action '" ++ s.action ++ "'") .null {}
        (about ++ [("parameters", .ofRecord params)])
    Run.note (.acted a.name)
    let o ← a.handler params c
    modify fun st =>
      let shared := step.writes.foldl (fun r k => r.put k o.output) st.scope.shared
      { st with scope := { st.scope with shared } }
    let message := if o.message = "" then "Action '" ++ s.action ++ "' completed" else o.message
    return step.completed message o.output o.files about

end ActionStep

/-- Runs actions. -/
def Tool.action (actions : Actions) : Tool where
  kind := .action
  check step _ values := match step.body with
    | .action s => s.check actions step values
    | _ => {}
  execute step c := match step.body with
    | .action s => s.execute actions step c
    | _ => return step.misplaced .action

end Scaffold
