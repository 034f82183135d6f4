import Scaffold.Generation
import Scaffold.Outcome

/-!
# Tools

What steps are done with.  A tool is for steps of one kind: it checks a step before anything runs, and
it executes a step on a session.  A check finds errors, which keep the recipe from running, and
warnings, which do not.

A step knows its recipe, the project, what the steps before it came to, and the answers; the variables
it sees and the collector are in the session.
-/

namespace Scaffold

/-- How a recipe is to be run. -/
structure Options where
  dryRun : Bool := false
  force : Bool := false
  yes : Bool := false
  interactive : Bool := false
  deriving DecidableEq, Inhabited, Repr

/-- What a check found. -/
structure Findings where
  errors : List String := []
  warnings : List String := []
  suggestions : List String := []
  deriving DecidableEq, Inhabited, Repr

namespace Findings

/-- Whether a check found no errors. -/
def valid (f : Findings) : Bool := f.errors.isEmpty

/-- The findings as data. -/
def report (f : Findings) : Record Value :=
  [("valid", .bool f.valid), ("errors", .texts f.errors), ("warnings", .texts f.warnings),
    ("suggestions", .texts f.suggestions)]

/-- The findings of two checks. -/
def add (a b : Findings) : Findings :=
  ⟨a.errors ++ b.errors, a.warnings ++ b.warnings, a.suggestions ++ b.suggestions⟩

/-- An error where something is the case. -/
def errorIf (b : Bool) (message : String) : Findings := if b then { errors := [message] } else {}

/-- A warning where something is the case. -/
def warnIf (b : Bool) (message : String) : Findings := if b then { warnings := [message] } else {}

instance : Append Findings := ⟨add⟩

end Findings

/-- What a step may know besides the session. -/
structure StepContext where
  recipe : Recipe
  project : Path
  options : Options := {}
  /-- What the steps before it came to. -/
  results : Record StepResult := []
  answers : Record String := []
  generator : Option Generator := none
  prompter : Option Prompter := none
  /-- Whether files are left as they are, since answers are still awaited. -/
  simulate : Bool := false

/-- A tool for steps of one kind. -/
structure Tool where
  kind : StepKind
  /-- What is wrong with a step, given the variables that are known. -/
  check : Step → StepContext → Record Value → Findings
  execute : Step → StepContext → Run StepResult

/-- Tools, of which the last one for a kind counts. -/
abbrev Tools := List Tool

namespace Tools

/-- The tool for a kind of steps. -/
def get? (ts : Tools) (k : StepKind) : Option Tool := ts.reverse.find? fun t => t.kind == k

/-- The tags of the kinds that have a tool, in order. -/
def tags (ts : Tools) : List String := Tree.sorted ((ts.map fun t => t.kind.tag).eraseDups)

end Tools

/-- The beginning of a message about what would be done. -/
def dryMark : String := "[DRY RUN]"

/-- The findings about a step, which has to be of the tool's kind. -/
def Tool.validate (t : Tool) (s : Step) (c : StepContext) (values : Record Value) : Findings :=
  if s.kind = t.kind then t.check s c values
  else { errors := ["Step '" ++ s.name ++ "' has tool '" ++ s.kind.tag ++ "', expected '" ++ t.kind.tag ++ "'"] }

namespace StepContext

/-- Whether nothing may be changed. -/
def isDry (c : StepContext) : Bool := c.options.dryRun || c.simulate

/-- The directory in which a recipe's own files are. -/
def recipeDirectory (c : StepContext) : Path := c.recipe.directory.getD c.project

/-- A text with its placeholders filled in from the variables of the step. -/
def render (_ : StepContext) (text : String) : Run String := do
  let s ← get
  Run.ofExcept ((Template.render text s.scope.visible).mapError Failure.ofTemplate)

/-- The path that a text writes, seen from the project. -/
def resolve (c : StepContext) (text : String) : Run Path := return c.project.child (← c.render text)

/-- A path as messages show it. -/
def shown (c : StepContext) (p : Path) : String := ((p.below? c.project).getD p).toString

end StepContext

namespace Step

/-- The result of a step with a status. -/
def result (s : Step) (status : StepStatus) : StepResult := { step := s.name, tool := s.kind.tag, status }

/-- The result of a completed step. -/
def completed (s : Step) (message : String) (output : Value := .null) (files : Touched := {})
    (metadata : Record Value := []) : StepResult :=
  { s.result .completed with message, output, files, metadata }

/-- The result of a skipped step. -/
def skipped (s : Step) (reason : String) (output : Value := .null) (metadata : Record Value := []) :
    StepResult :=
  { s.result .skipped with message := reason, output, metadata }

/-- The result of a failed step. -/
def failed (s : Step) (error : String) (output : Value := .null) (metadata : Record Value := []) :
    StepResult :=
  { s.result .failed with error := some error, output, metadata }

/-- The beginning of a finding about a step. -/
def about (s : Step) (text : String) : String := "Step '" ++ s.name ++ "': " ++ text

end Step

end Scaffold
