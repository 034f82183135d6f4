import Scaffold.Path
import Scaffold.Value

/-!
# Outcomes

What came of a step and of a recipe: whether it was done, which files it touched, and what it said.
The report of a recipe is made from those of its steps: each file counts once, and one that a step
created does not count as modified as well.
-/

namespace Scaffold

/-- How a step ended. -/
inductive StepStatus where
  | completed
  | failed
  | skipped
  deriving DecidableEq, Inhabited, Repr

namespace StepStatus

/-- The word for a status. -/
def word : StepStatus → String
  | completed => "completed"
  | failed => "failed"
  | skipped => "skipped"

/-- The status of a word. -/
def ofWord? (s : String) : Option StepStatus := [completed, failed, skipped].find? fun k => k.word == s

end StepStatus

/-- The files that were touched. -/
structure Touched where
  created : List String := []
  modified : List String := []
  deleted : List String := []
  deriving DecidableEq, Inhabited, Repr

/-- What came of a step. -/
structure StepResult where
  step : String
  tool : String
  status : StepStatus
  message : String := ""
  files : Touched := {}
  output : Value := .null
  error : Option String := none
  metadata : Record Value := []
  /-- How long it took, in microseconds, once it is finished. -/
  elapsed : Option Int := none
  deriving Inhabited, Repr

/-- Microseconds as milliseconds. -/
def milliseconds (microseconds : Int) : Binary64 :=
  (Binary64.ofRatio (microseconds < 0) microseconds.natAbs 1000000).mul (.ofInt 1000)

namespace StepResult

/-- Whether a step did not fail. -/
def success (r : StepResult) : Bool := r.status != .failed

/-- How long a step took, in milliseconds. -/
def duration (r : StepResult) : Binary64 := (r.elapsed.map milliseconds).getD .zero

/-- The report of a step, without its times. -/
def summary (r : StepResult) : Record Value :=
  [("step", .str r.step), ("tool", .str r.tool), ("status", .str r.status.word),
    ("files_created", .texts r.files.created), ("files_modified", .texts r.files.modified),
    ("files_deleted", .texts r.files.deleted), ("error", .ofText? r.error)]

/-- The report of a step with what it said and put out. -/
def details (r : StepResult) : Record Value :=
  r.summary ++ [("message", .str r.message), ("output", r.output), ("metadata", .ofRecord r.metadata)]

end StepResult

/-- What came of a recipe. -/
structure RecipeResult where
  recipe : String
  path : Option Path := none
  steps : List StepResult := []
  values : Record Value := []
  error : Option String := none
  elapsed : Option Int := none
  deriving Inhabited, Repr

namespace RecipeResult

/-- Whether nothing failed. -/
def success (r : RecipeResult) : Bool := r.error.isNone && r.steps.all (·.success)

/-- The number of steps that were completed. -/
def stepsCompleted (r : RecipeResult) : Nat := (r.steps.filter fun s => s.status == .completed).length

/-- The first step that failed. -/
def failedStep? (r : RecipeResult) : Option StepResult := r.steps.find? fun s => !s.success

/-- Files of the steps, each once, in the order in which they came. -/
def gather (r : RecipeResult) (files : Touched → List String) : List String :=
  (r.steps.flatMap fun s => files s.files).foldl (fun seen p => if seen.contains p then seen else seen ++ [p]) []

/-- The files created. -/
def filesCreated (r : RecipeResult) : List String := r.gather (·.created)

/-- The files modified that were there before. -/
def filesModified (r : RecipeResult) : List String :=
  (r.gather (·.modified)).filter fun p => !r.filesCreated.contains p

/-- The files deleted. -/
def filesDeleted (r : RecipeResult) : List String := r.gather (·.deleted)

/-- The errors of the steps, or else that of the recipe; empty ones do not count. -/
def errors (r : RecipeResult) : List String :=
  let ofSteps := r.steps.filterMap fun s => match s.error with
    | none | some "" => none
    | some e => some (s.step ++ ": " ++ e)
  match r.error, ofSteps with
  | some e, [] => if e = "" then [] else [e]
  | _, es => es

/-- The report of a recipe, without its times. -/
def summary (r : RecipeResult) : Record Value :=
  [("recipe", .str r.recipe), ("success", .bool r.success),
    ("steps", .list (r.steps.map fun s => .ofRecord s.summary)),
    ("files_created", .texts r.filesCreated), ("files_modified", .texts r.filesModified),
    ("files_deleted", .texts r.filesDeleted), ("errors", .texts r.errors)]

/-- How far a recipe came. -/
def progress (r : RecipeResult) : Record Value :=
  [("steps_completed", .int r.stepsCompleted), ("failed_step", .ofText? (r.failedStep?.map (·.step)))]

/-- The report of a recipe with the details of its steps and its variables. -/
def details (r : RecipeResult) : Record Value :=
  let more : Record Value :=
    [("error", .ofText? r.error), ("variables", .ofRecord r.values),
      ("path", .ofText? (r.path.map (·.toString)))]
  (r.summary.put "steps" (.list (r.steps.map fun s => .ofRecord s.details))) ++ r.progress ++ more

/-- The report of a recipe with the place of its file and its time in milliseconds. -/
def report (r : RecipeResult) : Record Value :=
  r.summary ++ [("path", .ofText? (r.path.map (·.toString))),
    ("duration_ms", (r.elapsed.map fun t => Value.float (milliseconds t)).getD .null)]

end RecipeResult

end Scaffold
