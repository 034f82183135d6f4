import Scaffold.Arguments
import Scaffold.Engine
import Scaffold.Recipe.Store
import Scaffold.Recipe.Missing
import Scaffold.Resolution
import Scaffold.Transport

/-!
# Runs

A recipe without prompts runs once.  Any other first runs with its prompts collected and its effects
held back.  If none were collected it runs once more, now for good.  Otherwise a transport is asked:
it answers, and the recipe runs with the answers; or it defers the answers to a later run; or it
fails.  A run that is given answers starts with them.

However a run ends, it leaves no prompts behind in the collector.

A group runs its recipes one after the other, up to the first that does not succeed unless it is told
to go on; a recipe that waits for answers always stops it.
-/

namespace Scaffold

/-- What a run is asked for. -/
structure RunRequest where
  params : Record Value := []
  words : List String := []
  options : Options := {}
  ask : Option AskMode := none
  useDefaults : Bool := true
  answers : Option (Record String) := none
  /-- The command that would make this run. -/
  command : String := "kitgen run"
  answersPath : String := Prompt.defaultAnswersPath
  continueOnError : Bool := false
  deriving Inhabited, Repr

/-- How a run ended. -/
inductive RunStatus where
  | completed
  | deferred
  | failed
  deriving DecidableEq, Inhabited, Repr

/-- The word for how a run ended. -/
def RunStatus.word : RunStatus → String
  | completed => "completed"
  | deferred => "deferred"
  | failed => "failed"

/-- What came of the run of one recipe. -/
structure RunOutcome where
  status : RunStatus
  result : Option RecipeResult := none
  transport : Option TransportOutcome := none
  error : Option Failure := none
  passes : Nat := 0
  deriving Inhabited, Repr

namespace RunOutcome

/-- Why a run did not succeed. -/
def errorMessage? (o : RunOutcome) : Option String :=
  match o.error with
  | some e => some e.message
  | none => filled? (o.result.bind (·.error))

/-- The outcome of an execution. -/
def ofResult (r : RecipeResult) : RunOutcome :=
  { status := if r.success then .completed else .failed, result := some r, passes := 1 }

end RunOutcome

/-! ## Groups -/

/-- A line in the report of a group. -/
structure GroupEntry where
  name : String
  success : Bool
  stepCount : Nat
  error : Option String := none
  result : Option RecipeResult := none
  deriving Inhabited, Repr

/-- The report of a group; recipes that were not reached are not in it. -/
structure GroupResult where
  path : Path
  entries : List GroupEntry := []
  /-- The recipe that waits for answers. -/
  pending : Option String := none
  deriving Inhabited, Repr

namespace GroupResult

/-- Whether there were recipes and all succeeded. -/
def success (g : GroupResult) : Bool :=
  g.pending.isNone && !g.entries.isEmpty && g.entries.all (·.success)

/-- The names of the recipes that succeeded. -/
def succeeded (g : GroupResult) : List String := (g.entries.filter (·.success)).map (·.name)

/-- The names of the recipes that did not. -/
def failed (g : GroupResult) : List String := (g.entries.filter (!·.success)).map (·.name)

/-- Files of the recipes, one recipe after the other. -/
def gather (g : GroupResult) (files : RecipeResult → List String) : List String :=
  g.entries.flatMap fun e => (e.result.map files).getD []

/-- The report of a group. -/
def summary (g : GroupResult) : Record Value :=
  [("path", .str g.path.toString), ("success", .bool g.success),
    ("recipes", .list (g.entries.map fun e => .ofRecord
      [("name", .str e.name), ("success", .bool e.success), ("step_count", .int e.stepCount),
        ("error", .ofText? e.error)]))]

/-- The report of a group with the names and files of its recipes. -/
def details (g : GroupResult) : Record Value :=
  g.summary ++ [("succeeded", .texts g.succeeded), ("failed", .texts g.failed),
    ("pending", .ofText? g.pending), ("files_created", .texts (g.gather (·.filesCreated))),
    ("files_modified", .texts (g.gather (·.filesModified)))]

end GroupResult

namespace GroupEntry

/-- The line of a recipe that could not run. -/
def ofFailure (name : String) (e : Failure) : GroupEntry :=
  { name, success := false, stepCount := 0, error := some e.message }

/-- The line of a recipe that ran. -/
def ofOutcome (name : String) (o : RunOutcome) : GroupEntry :=
  let stepCount := (o.result.map (·.steps.length)).getD 0
  match o.status with
  | .deferred => { name, success := false, stepCount, error := some "answers pending", result := o.result }
  | status =>
    let success := status == .completed && o.result.any (·.success)
    let error := if success then none else some ((filled? o.errorMessage?).getD "failed")
    { name, success, stepCount, error, result := o.result }

end GroupEntry

/-- Runs the recipes of a group, each with `run`: its entries, and the recipe that waits for answers. -/
def runEach (run : Path → Run RunOutcome) (goOn : Bool) (directory : Path) :
    List Path → Run (List GroupEntry × Option String)
  | [] => return ([], none)
  | file :: rest => do
    let name := ((file.parent.below? directory).getD file.parent).toString
    match (← (run file).attempt) with
    | .error e =>
      if !e.isDomain then throw e
      let entry := GroupEntry.ofFailure name e
      if !goOn then return ([entry], none)
      let (entries, pending) ← runEach run goOn directory rest
      return (entry :: entries, pending)
    | .ok o =>
      let entry := GroupEntry.ofOutcome name o
      if o.status == .deferred then return ([entry], some name)
      if !entry.success && !goOn then return ([entry], none)
      let (entries, pending) ← runEach run goOn directory rest
      return (entry :: entries, pending)

/-! ## Recipes -/

/-- What runs are made with.  The transport is chosen only when it is needed. -/
structure Runner where
  engine : Engine
  transport : Except Failure Transport

namespace Runner

/-- The variables of a run. -/
def scope (u : Runner) (r : Recipe) (q : RunRequest) (words : List String)
    (answers : Option (Record String)) : Run Bindings :=
  r.resolveVariables
    { provided := Arguments.bindTo r words q.params, answers := answers.getD [], ask := q.ask
      useDefaults := q.useDefaults, prompter := u.engine.prompter }

/-- Runs a recipe with answers. -/
def resume (u : Runner) (r : Recipe) (q : RunRequest) (words : List String) (answers : Record String) :
    Run RunOutcome := do
  Run.collect Collector.clear
  let b ← u.scope r q words (some answers)
  if !b.missing.isEmpty then
    return { status := .failed, passes := 1
             error := some (.general ("Missing required variables: " ++ Text.join ", " b.missing)) }
  return .ofResult (← u.engine.execute r b q.options answers)

/-- Runs a recipe once, without prompts. -/
def runPlain (u : Runner) (r : Recipe) (q : RunRequest) (b : Bindings) : Run RunOutcome :=
  return .ofResult (← u.engine.execute r b q.options)

/-- What came of collecting. -/
inductive Collected where
  | ended (o : RunOutcome)
  | answered (first : RecipeResult) (o : TransportOutcome)

/-- Executes a recipe with its prompts collected, those for the variables left to the model first. -/
def collectPrompts (u : Runner) (r : Recipe) (q : RunRequest) (b : Bindings) : Run RecipeResult := do
  Run.collect fun c => (r.inquiriesFor b.missing).foldl Collector.add c.enter
  u.engine.execute r b q.options

/-- Runs a recipe with its prompts collected, and asks the transport if there are any. -/
def collect (u : Runner) (r : Recipe) (q : RunRequest) (b : Bindings) : Run Collected := do
  let first ← u.collectPrompts r q b
  if !first.success then
    Run.collect Collector.clear
    return .ended { status := .failed, result := some first, passes := 1 }
  if !(← get).collector.isPending then
    Run.collect Collector.clear
    return .ended (← u.runPlain r q b)
  let t ← Run.ofExcept u.transport
  return .answered first (← t.resolve ⟨(← get).collector, q.command, q.answersPath⟩)

/-- Clears the collector where a run fails. -/
def clearing {α : Type} (r : Run α) : Run α := do
  match (← r.attempt) with
  | .ok a => return a
  | .error e =>
    Run.collect Collector.clear
    throw e

/-- Goes on with what a transport gave. -/
def conclude (u : Runner) (r : Recipe) (q : RunRequest) (words : List String) (first : RecipeResult)
    (o : TransportOutcome) : Run RunOutcome := do
  Run.collect Collector.clear
  match o with
  | .resolved answers =>
    let done ← u.resume r q words answers
    return { done with transport := some o, passes := 2 }
  | .deferred .. =>
    return { status := .deferred, result := some first, transport := some o, passes := 1 }
  | .failed e =>
    return { status := .failed, result := some first, transport := some o, error := some e, passes := 1 }
  | .unknown shown => throw (.general ("Unexpected transport result: " ++ shown))

/-- Runs a recipe that was loaded. -/
def runLoaded (u : Runner) (r : Recipe) (q : RunRequest) (words : List String) : Run RunOutcome := do
  match q.answers with
  | some answers => u.resume r q words answers
  | none =>
    Run.collect Collector.clear
    let b ← u.scope r q words none
    if b.missing.isEmpty && !r.asksModel then return (← u.runPlain r q b)
    match (← clearing (u.collect r q b)) with
    | .ended o => return o
    | .answered first o => u.conclude r q words first o

/-- Runs the recipe in a file. -/
def runRecipe (u : Runner) (file : Path) (q : RunRequest) (words : List String) : Run RunOutcome := do
  let r ← Run.ofExcept (Recipe.load (← get).tree file)
  u.runLoaded r q words

/-- Runs the recipes of a group. -/
def runGroup (u : Runner) (directory : Path) (q : RunRequest) : Run GroupResult := do
  let files ← Run.ofFile (Recipe.discover (← get).tree directory)
  let (entries, pending) ← runEach (fun f => u.runRecipe f q []) q.continueOnError directory files
  return { path := directory, entries, pending }

end Runner

/-! ## Recipes and groups -/

/-- What came of the run of a recipe or a group. -/
inductive RunReport where
  | recipe (o : RunOutcome)
  | group (g : GroupResult) (answersPath : String)
  deriving Inhabited, Repr

namespace RunReport

/-- How it ended. -/
def status : RunReport → RunStatus
  | recipe o => o.status
  | group g _ => if g.pending.isSome then .deferred else if g.success then .completed else .failed

/-- What the transport gave. -/
def transport? : RunReport → Option TransportOutcome
  | recipe o => o.transport
  | group g path => if g.pending.isSome then some (.deferred "" path) else none

/-- Why it did not succeed. -/
def errorMessage? : RunReport → Option String
  | recipe o => o.errorMessage?
  | group .. => none

/-- How often a recipe was executed in turn; a group does not say. -/
def passes : RunReport → Nat
  | recipe o => o.passes
  | group .. => 0

/-- The exit status: zero for success, another for pending answers. -/
def exitStatus (r : RunReport) : Int :=
  match r with
  | recipe o =>
    match o.status with
    | .deferred => pendingStatus
    | .completed => if o.result.any (·.success) then 0 else 1
    | .failed => 1
  | group g _ => if g.pending.isSome then pendingStatus else if g.success then 0 else 1

end RunReport

/-- Runs what words were resolved to. -/
def Runner.run (u : Runner) (target : Resolved) (q : RunRequest) : Run RunReport := do
  if target.isGroup then return .group (← u.runGroup target.path q) q.answersPath
  return .recipe (← u.runRecipe target.path q (target.remaining ++ q.words))

end Scaffold
