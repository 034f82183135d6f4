import Scaffold.Tool.Files

/-!
# Commands and messages

Steps that run shell commands in the project, and steps that print.  A command that ends with another
status than zero fails its step; of several commands those behind it do not run.
-/

namespace Scaffold

/-- The failure of a command that left nothing. -/
def CommandFault.failure : CommandFault → Failure
  | .timedOut => .raised "command does not end"
  | .notStarted f => .badDirectory f
  | .noProgram => .outOfRange "no program"
  | .nullCharacter => .badValue "embedded null byte"

/-- Runs a line of a shell in a directory. -/
def Run.line (sh : Shell) (directory : Path) (text : String) : Run CommandOutcome := do
  match (← Run.command sh { program := .line text, directory }) with
  | .ok o => return o
  | .error f => throw f.failure

/-- The directory of a step's commands. -/
def StepContext.workplace (c : StepContext) (directory : Option String) : Run Path :=
  match filled? directory with
  | some d => c.resolve d
  | none => return c.project

/-- How a command ended, for a message. -/
def CommandOutcome.ending (o : CommandOutcome) : String :=
  " exited with status " ++ intText o.status ++ ": " ++ o.errorText

namespace ShellStep

/-- Runs a command. -/
def execute (s : ShellStep) (sh : Shell) (step : Step) (c : StepContext) : Run StepResult := do
  let command ← c.render s.command
  let directory ← c.workplace s.directory
  if c.isDry then return step.completed (dryMark ++ " Would run: " ++ command)
  let o ← Run.line sh directory command
  if o.status != 0 then return step.failed ("Command" ++ o.ending) (.str o.outputText)
  return step.completed ("ran: " ++ command) (.str o.outputText)

end ShellStep

namespace SetupStep

/-- Runs commands in order up to the first that fails: what each printed, and how that one ended. -/
def runAll (sh : Shell) (directory : Path) (outputs : List String) : List String →
    Run (List String × Option (String × CommandOutcome))
  | [] => return (outputs, none)
  | command :: rest => do
    let o ← Run.line sh directory command
    let outputs := outputs ++ [o.outputText]
    if o.status != 0 then return (outputs, some (command, o))
    runAll sh directory outputs rest

/-- Runs the commands. -/
def execute (s : SetupStep) (sh : Shell) (step : Step) (c : StepContext) : Run StepResult := do
  let commands ← s.commands.mapM c.render
  let directory ← c.workplace s.directory
  let count := toString commands.length ++ " setup commands"
  if c.isDry then return step.completed (dryMark ++ " Would run " ++ count)
  match (← runAll sh directory [] commands) with
  | (outputs, some (command, o)) =>
    return step.failed ("Setup command '" ++ command ++ "'" ++ o.ending) (.texts outputs)
  | (outputs, none) => return step.completed ("ran " ++ count) (.texts outputs)

/-- What is wrong with setup commands. -/
def check (s : SetupStep) (step : Step) : Findings :=
  if s.commands.isEmpty then { errors := [step.about "setup needs at least one command"] }
  else Findings.errorIf (s.commands.any Text.isBlankString) (step.about "setup commands must not be empty")

end SetupStep

namespace Tool

/-- Runs a shell command. -/
def shell (sh : Shell) : Tool where
  kind := .shell
  check step _ _ := match step.body with
    | .shell s => Findings.errorIf (Text.isBlankString s.command) (step.about "shell command is required")
    | _ => {}
  execute step c := match step.body with
    | .shell s => s.execute sh step c
    | _ => return step.misplaced .shell

/-- Runs shell commands that set a project up. -/
def setup (sh : Shell) : Tool where
  kind := .setup
  check step _ _ := match step.body with
    | .setup s => s.check step
    | _ => {}
  execute step c := match step.body with
    | .setup s => s.execute sh step c
    | _ => return step.misplaced .setup

/-- Prints a message. -/
def echo : Tool where
  kind := .echo
  check step _ _ := match step.body with
    | .echo s => Findings.warnIf (s.message == "") (step.about "echo message is empty")
    | _ => {}
  execute step c := match step.body with
    | .echo s => do
      let message ← c.render s.message
      Run.emit message
      return step.completed message (.str message)
    | _ => return step.misplaced .echo

end Tool

end Scaffold
