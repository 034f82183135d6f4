import Scaffold.Endpoint
import Scaffold.Shell.Words

/-!
# Transports

Where the answers to collected prompts come from: one call of a model for all of them, an external
command for all or for each, or a printed document that someone else answers for a later run.  A
transport resolves the prompts, defers them, or fails; other failures pass through.
-/

namespace Scaffold

/-- What a transport may know of a pending run. -/
structure TransportRequest where
  collector : Collector
  /-- The command that would run the recipe again. -/
  command : String
  answersPath : String
  deriving Inhabited, Repr

/-- What came of a request. -/
inductive TransportOutcome where
  | resolved (answers : Record String)
  /-- A later run will have the answers. -/
  | deferred (document answersPath : String)
  | failed (error : Failure)
  /-- Something that is none of these, as it shows. -/
  | unknown (shown : String)
  deriving Inhabited, Repr

/-- The exit status that says that answers are pending. -/
def pendingStatus : Int := 2

/-- A source of answers. -/
structure Transport where
  resolve : TransportRequest → Run TransportOutcome

/-- A command that answers prompts. -/
structure AnswerCommand where
  command : String
  batching : Batching := .batched
  /-- Seconds until it is given up. -/
  timeout : Binary64 := .ofInt 300
  deriving DecidableEq, Inhabited, Repr

/-- The transport that settings ask for. -/
inductive TransportChoice where
  | api
  | command (c : AnswerCommand)
  | document
  deriving DecidableEq, Inhabited, Repr

namespace TransportChoice

/-- The choice of a model, which needs a provider and its credential. -/
def ofModel (s : AiSettings) (env : Environment) : Except Failure TransportChoice :=
  match s.provider with
  | none => .error (.misconfigured "AI mode 'api' needs a provider"
      "Set KITGEN_AI_PROVIDER (anthropic, openai, openai_compatible or ollama)")
  | some p =>
    if s.canCall env then .ok .api
    else .error (.misconfigured ("AI mode 'api' has no API key for provider '" ++ p.name ++ "'")
      "Set KITGEN_AI_API_KEY (or $VAR reference) or the provider's standard key variable")

/-- The choice of a command, which has to be there. -/
def ofCommand (s : AiSettings) : Except Failure TransportChoice :=
  match filled? s.command with
  | none => .error (.misconfigured "AI mode 'command' has no command configured"
      "Set KITGEN_AI_COMMAND, e.g. \"claude -p \x7bprompt\x7d\"")
  | some c => .ok (.command ⟨c, s.batching, s.timeout⟩)

/-- The choice that settings make.  Where they leave it open, a model that can be called comes first,
then a command. -/
def ofSettings (s : AiSettings) (env : Environment) : Except Failure TransportChoice :=
  match s.mode with
  | .api => ofModel s env
  | .command => ofCommand s
  | .document | .off => .ok .document
  | .auto =>
    if s.canCall env then ofModel s env
    else if (filled? s.command).isSome then ofCommand s
    else .ok .document

end TransportChoice

namespace Transport

/-- Turns a failure of the transport into an outcome; other failures pass. -/
def guarded (r : Run TransportOutcome) : Run TransportOutcome := do
  match (← r.attempt) with
  | .ok o => return o
  | .error (.transport m) => return .failed (.transport m)
  | .error e => throw e

/-- Prints the prompt document and defers. -/
def document : Transport where
  resolve q := do
    let text := Prompt.document q.collector (some q.command) q.answersPath
    Run.note (.printed .documents (if Text.endsWith "\n" text then text else text ++ "\n"))
    return .deferred text q.answersPath

/-- Puts all prompts into one call of a model. -/
def api (g : Generator) : Transport where
  resolve q := guarded do
    let keys := q.collector.keys
    let reply ← g.complete (Prompt.document q.collector) (Prompt.batchSystem keys)
    return .resolved (← Run.ofExcept (batchAnswers reply.text keys))

/-- The place of the prompt in a command. -/
def promptMark : String := "\x7bprompt\x7d"

/-- The variable that is kept from commands, since agents refuse to start inside another one. -/
def nestingMark : String := "CLAUDECODE"

/-- A command with a prompt: in the place of the mark, or else as its input. -/
def commandFor (c : AnswerCommand) (directory : Path) (prompt : String) : Except Failure Command := do
  let hidden := [nestingMark]
  let limit := some c.timeout
  if Text.contains promptMark c.command then
    let line := Text.replace promptMark (Shell.quote prompt) c.command
    return { program := .line line, directory, hidden, limit }
  else
    let words ← (Shell.split c.command).mapError fun f => Failure.badValue f.message
    return { program := .words words, directory, input := Utf8.encode prompt, hidden, limit }

/-- What a command prints for a prompt. -/
def runFor (sh : Shell) (directory : Path) (c : AnswerCommand) (prompt : String) : Run String := do
  match (← Run.command sh (← Run.ofExcept (commandFor c directory prompt))) with
  | .ok o =>
    if o.status = 0 then return o.outputText
    throw (.transport ("AI command exited with status " ++ intText o.status ++ ": " ++ o.errorText))
  | .error .timedOut =>
    throw (.transport ("AI command timed out after " ++ c.timeout.fixed 0 ++ "s: " ++ c.command))
  | .error (.notStarted f) =>
    throw (.transport ("AI command could not be started: " ++ f.message))
  | .error .noProgram => throw (.badType "missing 1 required positional argument: 'program'")
  | .error .nullCharacter => throw (.badValue "embedded null byte")

/-- Puts prompts to a command that is run in a directory. -/
def command (sh : Shell) (directory : Path) (c : AnswerCommand) : Transport where
  resolve q := guarded do
    match c.batching with
    | .perBlock =>
      let answers ← q.collector.pending.mapM fun i => do
        return (i.key, Text.trim (← runFor sh directory c (Prompt.single i)))
      return .resolved (Record.ofList answers)
    | .batched =>
      let reply ← runFor sh directory c (Prompt.document q.collector ++ Prompt.jsonOnly)
      return .resolved (← Run.ofExcept (batchAnswers reply q.collector.keys))

/-- The transport that settings ask for; a model that is at hand already is used. -/
def ofSettings (sh : Shell) (directory : Path) (web : Web) (ready : Option Generator) (s : AiSettings)
    (env : Environment) : Except Failure Transport := do
  match ← TransportChoice.ofSettings s env with
  | .document => return document
  | .command c => return command sh directory c
  | .api =>
    match ready, ← Generator.ofSettings web s env with
    | some g, _ | none, some g => return api g
    | none, none => throw (.badValue "no model")

end Transport

end Scaffold
