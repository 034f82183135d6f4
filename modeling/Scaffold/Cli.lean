import Scaffold.Cli.Options
import Scaffold.Cli.Terminal
import Scaffold.Run
import Scaffold.Settings.Store
import Scaffold.Shell.Execution

/-!
# The command line

Four commands: to run a recipe or group, to list what is installed, to validate a recipe, and to show
the settings.  A command works on a session and gives an exit status; what it prints is in the journal
of the session.  A failure of the domain is reported and gives status one, pending answers give status
two; other failures pass through.
-/

namespace Scaffold

namespace Cli

/-- Where a command runs. -/
structure Workplace where
  directory : Path
  settings : Settings := {}
  settingsFile : Path
  environment : Environment := []
  shell : Shell
  web : Web
  plugins : List Plugin := []
  isTerminal : Bool := false

/-- What is to be run. -/
structure RunOptions where
  segments : List String
  answers : Option Path := none
  ask : Option AskMode := none
  noDefaults : Bool := false
  dry : Bool := false
  force : Bool := false
  yes : Bool := false
  continueOnError : Bool := false
  directory : Option Path := none
  deriving Inhabited, Repr

/-- A command. -/
inductive Command where
  | run (o : RunOptions)
  | list (kit : Option String) (directory : Option Path)
  | validate (segments : List String) (directory : Option Path)
  | config
  deriving Inhabited, Repr

/-! ## Reading -/

/-- The options of a run. -/
def runGrammar : Grammar where
  flags := ["--no-defaults", "--dry", "--force", "--yes", "--continue-on-error"]
  valued := ["--answers", "--ask", "--cwd"]
  letters := [('y', "--yes")]
  passesOn := true

/-- The options of a command that works on a directory. -/
def directoryGrammar : Grammar where
  valued := ["--cwd"]

/-- The directory that was given. -/
def directoryOf (t : Taken) : Option Path := (t.values.get? "--cwd").map Path.ofString

/-- Who was said to supply what is missing. -/
def askOf (t : Taken) : Except UsageFault (Option AskMode) :=
  match t.values.get? "--ask" with
  | none => .ok none
  | some w => match AskMode.ofWord? w with
    | some m => .ok (some m)
    | none => .error (.badChoice "--ask" w)

/-- What a command line asks to run. -/
def RunOptions.ofTaken (t : Taken) : Except UsageFault RunOptions := do
  return {
    segments := t.words
    answers := (t.values.get? "--answers").map Path.ofString
    ask := ← askOf t
    noDefaults := t.has "--no-defaults"
    dry := t.has "--dry"
    force := t.has "--force"
    yes := t.has "--yes"
    continueOnError := t.has "--continue-on-error"
    directory := directoryOf t }

/-- The command that arguments write. -/
def Command.read (args : List String) : Except UsageFault Command := do
  match args with
  | [] => throw (.missing "COMMAND")
  | "run" :: rest => return .run (← RunOptions.ofTaken (← runGrammar.take {} rest))
  | "list" :: rest =>
    let t ← directoryGrammar.take {} rest
    if 1 < t.words.length then throw (.extra (t.words.drop 1))
    return .list t.words.head? (directoryOf t)
  | "validate" :: rest =>
    let t ← directoryGrammar.take {} rest
    if t.words.isEmpty then throw (.missing "SEGMENTS...")
    return .validate t.words (directoryOf t)
  | "config" :: rest =>
    let t ← Grammar.take {} {} rest
    if !t.words.isEmpty then throw (.extra t.words)
    return .config
  | name :: _ => throw (.noCommand name)

/-- The paths that a command names. -/
def Command.paths : Command → List Path
  | .run o => o.directory.toList ++ o.answers.toList
  | .list _ d | .validate _ d => d.toList
  | .config => []

/-! ## Printing -/

/-- Prints a line of the output. -/
def say (line : String) : Run Unit := Run.emit line

/-- Prints a notice beside the output. -/
def notice (line : String) : Run Unit := Run.note (.printed .notices (line ++ "\n"))

/-- Says why a command failed. -/
def fail (message : String) (status : Int := 1) : Run Int := do
  notice message
  return status

/-- Reports a failure of the domain; others pass. -/
def reporting {α : Type} (r : Run α) (next : α → Run Int) : Run Int := do
  match (← r.attempt) with
  | .ok a => next a
  | .error e => if e.isDomain then fail e.message else throw e

/-! ## Places -/

/-- The root of the project. -/
def Workplace.root (w : Workplace) (directory : Option Path) : Path :=
  (match directory with
    | some d => w.directory.join d
    | none => w.directory).resolved

/-- The kits of a project. -/
def Workplace.kits (w : Workplace) (root : Path) : Run (Record Kit) := do
  Run.ofExcept (Kit.discover (← get).tree (w.settings.search.kitDirectories.map root.child))

/-- What words name. -/
def Workplace.resolve (w : Workplace) (root : Path) (words : List String) : Run Resolved := do
  let r : Resolver :=
    { kits := ← w.kits root, here := root
      searchDirectories := w.settings.search.searchDirectories.map Path.ofString }
  match ← Run.ofExcept (r.resolve (← get).tree words) with
  | some found => return found
  | none => throw (.unresolved words r.attempted)

/-- The actions that plugins register. -/
def Workplace.actions (w : Workplace) : Actions := (Actions.load [] w.plugins).1

/-- What recipes are executed with. -/
def Workplace.engine (w : Workplace) (root : Path) (g : Option Generator) (p : Option Prompter) : Engine :=
  { project := root, tools := .standard w.shell w.actions, generator := g, prompter := p }

/-! ## Running -/

/-- Reports what came of a run. -/
def report : RunReport → Run Unit
  | .group g _ => do
    for e in g.entries do
      let detail := match filled? e.error with
        | some m => " (" ++ m ++ ")"
        | none => ""
      notice ("  [" ++ (if e.success then "ok" else "FAILED") ++ "] " ++ e.name ++ ": " ++
        intText e.stepCount ++ " steps" ++ detail)
    notice ("Group " ++ g.path.name ++ ": " ++ intText g.succeeded.length ++ " succeeded, " ++
      intText g.failed.length ++ " failed")
  | .recipe o =>
    match o.result with
    | none => return
    | some r => do
      for p in r.filesCreated do notice ("  added: " ++ p)
      for p in r.filesModified do notice ("  modified: " ++ p)
      notice (r.recipe ++ ": " ++ intText r.stepsCompleted ++ "/" ++ intText r.steps.length ++
        " steps completed, " ++ intText r.filesCreated.length ++ " files created, " ++
        intText r.filesModified.length ++ " modified")

/-- Why a run did not succeed. -/
def reasonOf (r : RunReport) : String :=
  let errors := match r with
    | .recipe { result := some result, .. } => result.errors
    | _ => []
  if errors.isEmpty then (filled? r.errorMessage?).getD "Run failed" else Failure.listed errors

/-- The options as arguments of the command that would run this again. -/
def RunOptions.arguments (o : RunOptions) (params : Record Value) : List String :=
  params.map (fun e => Arguments.flagOf e.1 e.2) ++
    ([(o.noDefaults, "--no-defaults"), (o.dry, "--dry"), (o.force, "--force"), (o.yes, "--yes")].filterMap
      fun e => if e.1 then some e.2 else none) ++
    (o.ask.map fun m => "--ask=" ++ m.word).toList ++
    (o.directory.map fun d => "--cwd=" ++ d.toString).toList

/-- What is found out before a run. -/
structure Prepared where
  target : Resolved
  answers : Option (Record String)
  generator : Option Generator

/-- Resolves the words, loads the answers and looks for a model. -/
def Workplace.prepare (w : Workplace) (o : RunOptions) (words : List String) : Run Prepared := do
  let target ← w.resolve (w.root o.directory) words
  let answers ← o.answers.mapM fun p => do
    Run.ofExcept (AnswersFile.load (← get).tree p w.directory)
  return ⟨target, answers, ← Run.ofExcept (Generator.ofSettings w.web w.settings.ai w.environment)⟩

/-- The request that a command line makes. -/
def Workplace.request (w : Workplace) (o : RunOptions) (params : Record Value) (p : Prepared) :
    RunRequest :=
  let interactive := w.isTerminal && !o.yes
  { params
    options := { dryRun := o.dry, force := o.force, yes := o.yes, interactive }
    ask := some (o.ask.getD (if interactive then .person else .nobody))
    useDefaults := !o.noDefaults
    answers := p.answers
    command := Arguments.commandLine
      (["kitgen", "run"] ++ p.target.consumed ++ p.target.remaining ++ o.arguments params)
    answersPath := (o.answers.map (·.toString)).getD w.settings.ai.answersPath
    continueOnError := o.continueOnError }

/-- Runs a recipe or a group. -/
def Workplace.run (w : Workplace) (o : RunOptions) : Run Int := do
  let root := w.root o.directory
  let parsed := Arguments.parse o.segments
  reporting (w.prepare o parsed.positional) fun p => do
    let engine := w.engine root p.generator (some Terminal.prompter)
    let transport := Transport.ofSettings w.shell w.directory w.web p.generator w.settings.ai w.environment
    let request := w.request o parsed.params p
    reporting ((Runner.mk engine transport).run p.target request) fun r => do
      if r.status == .deferred then
        notice ("AI answers pending. Save the JSON response to " ++ request.answersPath ++
          " and re-run with --answers " ++ request.answersPath)
        return r.exitStatus
      report r
      if r.exitStatus = 0 then return 0
      fail (reasonOf r) r.exitStatus

/-! ## The other commands -/

/-- Names between commas, or a word for none. -/
def namesOr (names : List String) : String :=
  if names.isEmpty then "(no recipes)" else Text.join ", " names

/-- Prints a kit with its cookbooks. -/
def listKit (name : String) (k : Kit) : Run Unit := do
  say (if k.description = "" then name else name ++ " - " ++ k.description)
  for (cookbook, recipes) in ← Run.ofExcept (k.listing (← get).tree) do
    say ("  " ++ cookbook ++ ": " ++ namesOr recipes)

/-- Prints the recipes in a search directory. -/
def listDirectory (root : Path) (directory : String) : Run Unit := do
  let t := (← get).tree
  let path := root.child directory
  if t.isDirectory path then
    let found ← Run.ofExcept ((Glob.find t path "**/recipe.yml").mapError Failure.ofGlob)
    let names := found.map fun p => ((p.parent.below? path).getD p.parent).toString
    say (directory ++ ": " ++ namesOr (Tree.sorted names))

/-- Lists what is installed. -/
def Workplace.list (w : Workplace) (kit : Option String) (directory : Option Path) : Run Int := do
  let root := w.root directory
  let kits ← w.kits root
  match kit with
  | some name =>
    match kits.get? name with
    | none => fail ("Kit not found: " ++ name)
    | some k => do
      listKit name k
      return 0
  | none => do
    for (name, k) in kits do listKit name k
    for d in w.settings.search.searchDirectories do listDirectory root d
    return 0

/-- Reports what a check of a recipe found. -/
def reportFindings (r : Recipe) (f : Findings) : Run Int := do
  for m in f.warnings do notice ("warning: " ++ m)
  for m in f.suggestions do notice ("hint: " ++ m)
  if !f.valid then return ← fail (Text.join "\n" (f.errors.map ("error: " ++ ·)))
  say (r.name ++ ": " ++ intText r.steps.length ++ " steps, " ++ intText r.declared.length ++
    " variables - OK")
  return 0

/-- Validates a recipe. -/
def Workplace.validate (w : Workplace) (segments : List String) (directory : Option Path) : Run Int := do
  let root := w.root directory
  reporting (w.resolve root segments) fun target => do
    if target.isGroup then
      return ← fail (target.path.toString ++ " is a group; validate its recipes individually")
    let load : Run Recipe := do Run.ofExcept (Recipe.load (← get).tree target.path)
    reporting load fun r => reportFindings r ((w.engine root none none).validate r)

/-- Shows the settings. -/
def Workplace.config (w : Workplace) : Run Int := do
  let ai := w.settings.ai
  let search := w.settings.search
  say ("Config file: " ++ w.settingsFile.toString)
  say ("AI mode: " ++ ai.mode.word)
  say ("Provider: " ++ (ai.provider.map (·.name)).getD "(none)")
  say ("Model: " ++ (filled? ai.model).getD "(provider default)")
  say ("API key: " ++ if (filled? (ai.key? w.environment)).isSome then "set" else "(none)")
  say ("Command: " ++ (filled? ai.command).getD "(none)" ++ " [" ++ ai.batching.word ++ "]")
  say ("Answers path: " ++ ai.answersPath)
  say ("Search dirs: " ++ Text.join ", " search.searchDirectories)
  say ("Kit dirs: " ++ Text.join ", " search.kitDirectories)
  return 0

/-- Runs a command. -/
def Workplace.execute (w : Workplace) : Command → Run Int
  | .run o => w.run o
  | .list kit directory => w.list kit directory
  | .validate segments directory => w.validate segments directory
  | .config => w.config

/-- Runs a command line: its exit status.  Someone who stops answering aborts it. -/
def Workplace.main (w : Workplace) (args : List String) : Run Int := do
  match Command.read args with
  | .error f => fail ("Error: " ++ f.message) 2
  | .ok c =>
    match (← (w.execute c).attempt) with
    | .ok status => return status
    | .error .aborted => fail "Aborted."
    | .error e => throw e

end Cli

end Scaffold
