import Scaffold.Proofs.Engine.Turns
import Scaffold.Proofs.Session.Runs
import Scaffold.Run

/-!
# The phases of a run

A run of a recipe or a group with its legs.  What makes up the collecting of prompts, from the moment
that it is entered to the end of the execution that collects them, what asks the transport, and what
clears the collector is labelled as such; all else stands apart.  An execution has a leg for each turn.

Each traced program is the program that it traces.
-/

namespace Scaffold

open Run Traced

/-! ## Executions -/

theorem Engine.Chained.linked (p : Phase) {s : Session} {us : List Turn} (h : Chained s us) :
    Linked s (us.map fun u => ⟨p, u.before, u.after⟩) (leaves s us) := by
  induction us generalizing s with
  | nil => rfl
  | cons u us ih => exact ⟨h.1, ih h.2⟩

/-- An execution, with a leg for its beginning and for each of its turns. -/
def Engine.executeTraced (p : Phase) (e : Engine) (r : Recipe) (b : Bindings) (options : Options)
    (answers : Record String := []) : Traced RecipeResult where
  run := e.execute r b options answers
  legs s :=
    if (e.validate r b.merged answers).valid then
      ⟨p, s, s.opened r⟩ ::
        (e.history r b options answers s).map fun u => ⟨p, u.before, u.after⟩
    else []
  linked s := by
    cases valid : (e.validate r b.merged answers).valid with
    | false =>
      obtain ⟨f, failed⟩ := Engine.execute_on_invalid valid
      rw [failed]
      rfl
    | true =>
      rw [Engine.execute_on_valid valid s]
      exact ⟨rfl, (Engine.history_chained s).linked p⟩

namespace Runner

variable (u : Runner) (r : Recipe) (q : RunRequest) (words : List String)

/-! ## Recipes -/

/-- A run with answers, leg by leg. -/
def resumeTraced (answers : Record String) : Traced RunOutcome := do
  Traced.clear
  let b ← leg .apart (u.scope r q words (some answers))
  if !b.missing.isEmpty then
    return { status := .failed, passes := 1
             error := some (.general ("Missing required variables: " ++ Text.join ", " b.missing)) }
  return .ofResult (← u.engine.executeTraced .apart r b q.options answers)

/-- A run without prompts, leg by leg. -/
def runPlainTraced (b : Bindings) : Traced RunOutcome :=
  return .ofResult (← u.engine.executeTraced .apart r b q.options)

/-- The collecting of prompts, from its beginning to its end. -/
def collectPromptsTraced (b : Bindings) : Traced RecipeResult := do
  leg .collecting (Run.collect fun c => (r.inquiriesFor b.missing).foldl Collector.add c.enter)
  u.engine.executeTraced .collecting r b q.options

/-- Collecting and asking, leg by leg. -/
def collectTraced (b : Bindings) : Traced Collected := do
  let first ← u.collectPromptsTraced r q b
  if !first.success then
    Traced.clear
    return .ended { status := .failed, result := some first, passes := 1 }
  if !(← Traced.session).collector.isPending then
    Traced.clear
    return .ended (← u.runPlainTraced r q b)
  let t ← Traced.ofExcept u.transport
  let request := ⟨(← Traced.session).collector, q.command, q.answersPath⟩
  return .answered first (← leg .asking (t.resolve request))

/-- A run that clears the collector where it fails, leg by leg. -/
def clearingTraced {α : Type} (x : Traced α) : Traced α := do
  match (← x.attempt) with
  | .ok a => return a
  | .error e =>
    Traced.clear
    Traced.ofExcept (.error e)

/-- What is done with the reply of a transport, leg by leg. -/
def concludeTraced (first : RecipeResult) (o : TransportOutcome) : Traced RunOutcome := do
  Traced.clear
  match o with
  | .resolved answers =>
    let done ← u.resumeTraced r q words answers
    return { done with transport := some o, passes := 2 }
  | .deferred .. =>
    return { status := .deferred, result := some first, transport := some o, passes := 1 }
  | .failed e =>
    return { status := .failed, result := some first, transport := some o, error := some e, passes := 1 }
  | .unknown shown => Traced.ofExcept (.error (.general ("Unexpected transport result: " ++ shown)))

/-- A run of a recipe that was loaded, leg by leg. -/
def runLoadedTraced : Traced RunOutcome := do
  match q.answers with
  | some answers => u.resumeTraced r q words answers
  | none =>
    Traced.clear
    let b ← leg .apart (u.scope r q words none)
    if b.missing.isEmpty && !r.asksModel then return (← u.runPlainTraced r q b)
    match (← clearingTraced (u.collectTraced r q b)) with
    | .ended o => return o
    | .answered first o => u.concludeTraced r q words first o

/-- A run of the recipe in a file, leg by leg. -/
def runRecipeTraced (file : Path) : Traced RunOutcome := do
  let r ← Traced.ofExcept (Recipe.load (← Traced.session).tree file)
  u.runLoadedTraced r q words

theorem resumeTraced_run (answers : Record String) :
    (u.resumeTraced r q words answers).run = u.resume r q words answers := by
  unfold resumeTraced resume
  refine bind_congr fun _ => bind_congr fun b => ?_
  exact run_ite _ _ _

theorem collectTraced_run (b : Bindings) : (u.collectTraced r q b).run = u.collect r q b := by
  unfold collectTraced collect
  refine bind_congr fun first => ?_
  refine (run_ite _ _ _).trans (congrArg (ite _ _) ?_)
  refine bind_congr fun st => ?_
  exact run_ite _ _ _

theorem clearingTraced_run {α : Type} (x : Traced α) : (clearingTraced x).run = clearing x.run := by
  unfold clearingTraced clearing
  refine bind_congr fun o => ?_
  cases o <;> rfl

theorem concludeTraced_run (first : RecipeResult) (o : TransportOutcome) :
    (u.concludeTraced r q words first o).run = u.conclude r q words first o := by
  unfold concludeTraced conclude
  refine bind_congr fun _ => ?_
  cases o with
  | resolved answers =>
    dsimp only
    rw [run_bind, resumeTraced_run]
    rfl
  | _ => rfl

theorem runLoadedTraced_run : (u.runLoadedTraced r q words).run = u.runLoaded r q words := by
  unfold runLoadedTraced runLoaded
  cases q.answers with
  | some answers => exact u.resumeTraced_run r q words answers
  | none =>
    refine bind_congr fun _ => bind_congr fun b => ?_
    refine (run_ite _ _ _).trans (congrArg (ite _ _) ?_)
    rw [run_bind, clearingTraced_run, collectTraced_run]
    refine bind_congr fun c => ?_
    cases c with
    | ended o => rfl
    | answered first o => exact u.concludeTraced_run r q words first o

theorem runRecipeTraced_run (file : Path) :
    (u.runRecipeTraced q words file).run = u.runRecipe file q words := by
  unfold runRecipeTraced runRecipe
  refine bind_congr fun st => bind_congr fun r => ?_
  exact u.runLoadedTraced_run r q words

/-! ## Groups -/

/-- Runs of the recipes of a group, leg by leg. -/
def runEachTraced (run : Path → Traced RunOutcome) (goOn : Bool) (directory : Path) :
    List Path → Traced (List GroupEntry × Option String)
  | [] => return ([], none)
  | file :: rest => do
    let name := ((file.parent.below? directory).getD file.parent).toString
    match (← (run file).attempt) with
    | .error e =>
      if !e.isDomain then Traced.ofExcept (.error e)
      else
        let entry := GroupEntry.ofFailure name e
        if !goOn then return ([entry], none)
        let (entries, pending) ← runEachTraced run goOn directory rest
        return (entry :: entries, pending)
    | .ok o =>
      let entry := GroupEntry.ofOutcome name o
      if o.status == .deferred then return ([entry], some name)
      if !entry.success && !goOn then return ([entry], none)
      let (entries, pending) ← runEachTraced run goOn directory rest
      return (entry :: entries, pending)

/-- A run of a group, leg by leg. -/
def runGroupTraced (directory : Path) : Traced GroupResult := do
  let files ← Traced.ofExcept ((Recipe.discover (← Traced.session).tree directory).mapError .file)
  let (entries, pending) ←
    runEachTraced (fun f => u.runRecipeTraced q [] f) q.continueOnError directory files
  return { path := directory, entries, pending }

theorem runEachTraced_run {run : Path → Traced RunOutcome} {goOn : Bool} {directory : Path}
    (files : List Path) : (runEachTraced run goOn directory files).run =
      runEach (fun f => (run f).run) goOn directory files := by
  induction files with
  | nil => rfl
  | cons file rest ih =>
    unfold runEachTraced runEach
    refine bind_congr fun o => ?_
    cases o with
    | error e =>
      dsimp only
      split
      · rfl
      split
      · rfl
      · rw [run_bind, ih]
        rfl
    | ok o =>
      dsimp only
      split
      · rfl
      split
      · rfl
      · rw [run_bind, ih]
        rfl

theorem runGroupTraced_run (directory : Path) :
    (u.runGroupTraced q directory).run = u.runGroup directory q := by
  unfold runGroupTraced runGroup
  refine bind_congr fun st => bind_congr fun files => ?_
  rw [run_bind, runEachTraced_run]
  have each : (fun f => (u.runRecipeTraced q [] f).run) = fun f => u.runRecipe f q [] :=
    funext (u.runRecipeTraced_run q [])
  rw [each]
  rfl

end Runner

end Scaffold
