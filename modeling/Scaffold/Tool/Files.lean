import Scaffold.Tool

/-!
# Adding files and splicing into them

A file that has the content already is left alone, and so is one that is there and may not be
overwritten.  A splice whose condition is met already is skipped.  Where nothing may be changed both
say what they would do.

A file is replaced in one move, which may be made to fail at any of its stages.
-/

namespace Scaffold

/-- The words that count as true. -/
def isTrueWord (s : String) : Bool := ["true", "yes", "1", "on"].contains (Text.lower (Text.trim s))

/-- The rendered body of a step: the template file if one is named, or the text given. -/
def Step.loadBody (s : Step) (body source : Option String) (c : StepContext) : Run String := do
  match filled? source with
  | none => c.render (body.getD "")
  | some name =>
    let file := c.recipeDirectory.child (← c.render name)
    match (← (Run.readText file).attempt) with
    | .ok text => c.render text
    | .error (.file _) => throw (.noTemplate s.name file.toString)
    | .error e => throw e

/-! ## Splices -/

namespace Insertion

/-- The first location that is given; at the end if none is. -/
def location (i : Insertion) : Splice.Location :=
  match i.atLine, filled? i.before, filled? i.after with
  | some n, _, _ => .atLine (some n)
  | none, some p, _ => .before p
  | none, none, some p => .after p
  | none, none, none => if i.front then .front else .back

/-- The number of locations that are given. -/
def count (i : Insertion) : Nat :=
  ([i.atLine.isSome, (filled? i.before).isSome, (filled? i.after).isSome, i.front, i.back].filter id).length

end Insertion

/-- Splices a body into a file: whether the content changed, and why it was skipped if it was. -/
def Run.splice (target : Path) (body : String) (rule : Splice.Rule) (dry : Bool)
    (failing : Option Tree.Stage := none) : Run (Bool × Option String) := do
  if !(← get).tree.isFile target then
    throw (.splice ("Cannot inject into non-existent file: " ++ target.toString))
  let content ← Run.readText target
  let o ← Run.ofExcept ((Splice.apply content body rule).mapError Failure.ofSplice)
  if o.skipped then return (false, o.reason)
  if o.changed && !dry then Run.writeText target o.content failing
  return (o.changed, none)

namespace InjectStep

/-- What is wrong with a splice. -/
def check (s : InjectStep) (step : Step) : Findings :=
  Findings.errorIf (s.target == "") (step.about "'to' is required") ++
    Findings.errorIf (s.body.isNone && (filled? s.source).isNone) (step.about "provide 'body' or 'from'") ++
    Findings.errorIf (1 < s.insertion.count)
      (step.about "use only one of at_line, before, after, prepend, append") ++
    Findings.warnIf (s.insertion.count == 0) (step.about "no location given, content will be appended")

/-- Splices into a file. -/
def execute (s : InjectStep) (step : Step) (c : StepContext) (failing : Option Tree.Stage := none) :
    Run StepResult := do
  let target ← c.resolve s.target
  let shown := c.shown target
  let body ← step.loadBody s.body s.source c
  let skipIf ← (filled? s.skipIf).mapM c.render
  let rule : Splice.Rule := { location := s.insertion.location, skipIf, endsLine := s.endsLine }
  if c.isDry && !(← get).tree.isFile target then
    return step.completed (dryMark ++ " Would inject into " ++ shown ++ " (not created yet)")
  let (changed, reason) ← Run.splice target body rule c.isDry failing
  match filled? reason with
  | some why => return step.skipped (why ++ " (" ++ shown ++ ")")
  | none =>
    if !changed then return step.completed ("unchanged: " ++ shown)
    if c.isDry then return step.completed (dryMark ++ " Would inject into " ++ shown)
    return step.completed ("injected: " ++ shown) .null { modified := [shown] }

end InjectStep

/-! ## Files -/

namespace AddStep

/-- What is wrong with a file to add. -/
def check (s : AddStep) (step : Step) : Findings :=
  Findings.errorIf (s.target == "") (step.about "'to' is required") ++
    Findings.errorIf (s.body.isNone && (filled? s.source).isNone) (step.about "provide 'body' or 'from'") ++
    Findings.errorIf (s.body.isSome && (filled? s.source).isSome)
      (step.about "'body' and 'from' are mutually exclusive")

/-- Whether its own condition keeps a file from being added. -/
def isKept (s : AddStep) (c : StepContext) : Run Bool :=
  match filled? s.skipIf with
  | some text => return isTrueWord (← c.render text)
  | none => return false

/-- Whether a file that is there may be overwritten. -/
def mayOverwrite (c : StepContext) (force : Bool) (shown : String) : Run Bool := do
  if force || c.options.yes then return true
  match c.options.interactive, c.prompter with
  | true, some p => p.confirm (shown ++ " already exists. Overwrite?")
  | _, _ => return false

/-- Writes a body that differs from what is there. -/
def put (step : Step) (c : StepContext) (target : Path) (present force : Bool) (body : String)
    (failing : Option Tree.Stage := none) : Run StepResult := do
  let shown := c.shown target
  if c.isDry then
    return step.completed (dryMark ++ " Would " ++ (if present then "overwrite " else "create ") ++ shown)
  Run.writeText target body failing
  if present then
    return step.completed ((if force then "forced: " else "overwrote: ") ++ shown) .null
      { modified := [shown] }
  return step.completed ("added: " ++ shown) .null { created := [shown] }

/-- Replaces a file that is there, unless it has the body already or may not be overwritten. -/
def replace (step : Step) (c : StepContext) (target : Path) (force : Bool) (body : String)
    (failing : Option Tree.Stage := none) : Run StepResult := do
  let shown := c.shown target
  if (← Run.readText target) = body then return step.completed ("unchanged: " ++ shown)
  if !(← mayOverwrite c force shown) then
    return step.skipped ("exists, not overwritten: " ++ shown)
  put step c target true force body failing

/-- Adds a file. -/
def execute (s : AddStep) (step : Step) (c : StepContext) (failing : Option Tree.Stage := none) :
    Run StepResult := do
  let target ← c.resolve s.target
  let shown := c.shown target
  if (← s.isKept c) then return step.skipped ("skip_if: " ++ shown)
  let present := (← get).tree.present target
  let force := s.force || c.options.force
  if present && s.unlessExists && !force then return step.skipped ("exists: " ++ shown)
  let body ← step.loadBody s.body s.source c
  if present then replace step c target force body failing
  else put step c target false force body failing

end AddStep

/-- A step of another kind than its tool is for. -/
def Step.misplaced (s : Step) (k : StepKind) : StepResult :=
  s.failed ("has tool '" ++ s.kind.tag ++ "', expected '" ++ k.tag ++ "'")

namespace Tool

/-- Adds files. -/
def add (failing : Option Tree.Stage := none) : Tool where
  kind := .add
  check step _ _ := match step.body with
    | .add s => s.check step
    | _ => {}
  execute step c := match step.body with
    | .add s => s.execute step c failing
    | _ => return step.misplaced .add

/-- Splices into files. -/
def inject (failing : Option Tree.Stage := none) : Tool where
  kind := .inject
  check step _ _ := match step.body with
    | .inject s => s.check step
    | _ => {}
  execute step c := match step.body with
    | .inject s => s.execute step c failing
    | _ => return step.misplaced .inject

end Tool

end Scaffold
