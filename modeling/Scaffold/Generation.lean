import Scaffold.Answers
import Scaffold.Check
import Scaffold.Prompt
import Scaffold.Session

/-!
# Generation

Calls of a model on behalf of one step or of a whole batch.  A call is held to the limits before it
is made and entered into the accounts afterwards.  Text for a step is unfenced and checked; where it
fails its checks the model is asked again, a bounded number of times, and at the end a fallback may
stand in.

The model itself is a function of the calls made before and the call at hand.
-/

namespace Scaffold

/-- What a model replied. -/
structure Completion where
  text : String
  model : String
  usage : Usage
  deriving DecidableEq, Inhabited, Repr

/-- A model: what it replies to a call, given the number of calls made before. -/
abbrev Client := (earlier : Nat) → ModelCall → Except Failure Completion

/-- A model with the settings that its calls are made with. -/
structure Generator where
  client : Client
  limits : Limits := {}
  temperature : Number := .float (.ofDecimal false 2 (-1))
  maxTokens : Int := 4096

/-- What a step asks for. -/
structure Demand where
  key : String
  prompt : String
  system : Option String := none
  temperature : Option Number := none
  maxTokens : Option Int := none
  guardrails : Guardrails := {}
  budget : Allowance := {}
  deriving DecidableEq, Inhabited, Repr

/-- What a step was given. -/
structure Generated where
  text : String
  attempts : Nat
  usage : Usage
  cost : Binary64
  usedFallback : Bool := false
  warnings : List String := []
  deriving DecidableEq, Inhabited, Repr

namespace Generator

/-- The system prompt of a call that has none of its own. -/
def defaultSystem : String :=
  "You are a code generation assistant embedded in a project scaffolding tool. " ++
    "Return only the requested content, without explanation or markdown fences."

/-- A limit of a step in place of the limit of the session. -/
def limitsWithin (limits : Limits) (b : Allowance) : Limits :=
  { limits with
    maxTokens := b.maxTokens.or limits.maxTokens
    maxCost := (b.maxCost.map .float).or limits.maxCost }

/-- A count that is there and not zero. -/
def counted (n : Option Int) (usual : Int) : Int :=
  match n with
  | some 0 | none => usual
  | some n => n

/-- Makes one call within the limits and enters it into the accounts. -/
def complete (g : Generator) (prompt : String) (system : String := defaultSystem)
    (temperature : Option Number := none) (maxTokens : Option Int := none)
    (budget : Allowance := {}) : Run Completion := do
  let s ← get
  let estimate := estimateTokens (system ++ prompt)
  match s.ledger.check (limitsWithin g.limits budget) estimate with
  | .error r => throw (.budget r.message)
  | .ok ledger =>
    let call : ModelCall :=
      { system, prompt, temperature := temperature.getD g.temperature
        maxTokens := counted maxTokens g.maxTokens }
    set (({ s with ledger } : Session).note (.called call))
    let reply ← Run.ofExcept (g.client s.calls.length call)
    modify fun s => { s with ledger := s.ledger.record reply.model reply.usage }
    return reply

/-- What stands in for text that failed its checks to the end. -/
def fallback? (g : Guardrails) : Option String :=
  match g.onFailure with
  | .fallback => g.fallback
  | _ => none

/-- The prompt after a text that failed its checks. -/
def nextPrompt (d : Demand) (prompt text : String) (issues : List String) : String :=
  match d.guardrails.onFailure with
  | .retry => Prompt.correction d.prompt issues text
  | _ => prompt

/-- Attempts up to the first text that passes its checks; `left` more may follow this one, and
`made` came before it. -/
def attempts (g : Generator) (d : Demand) :
    (left made : Nat) → (prompt : String) → Usage → Binary64 → Run Generated
  | left, made, prompt, used, spent => do
    let reply ← g.complete prompt ((filled? d.system).getD defaultSystem) d.temperature d.maxTokens
      d.budget
    let used := used.add reply.usage
    let spent := spent.add ((← get).ledger.costOf reply.model reply.usage)
    let text := Check.unfence reply.text
    let report ← Run.ofExcept (d.guardrails.check text)
    if report.passed then
      return { text, attempts := made + 1, usage := used, cost := spent, warnings := report.warnings }
    match left with
    | left + 1 => attempts g d left (made + 1) (nextPrompt d prompt text report.errors) used spent
    | 0 =>
      match fallback? d.guardrails with
      | some text =>
        return { text, attempts := made + 1, usage := used, cost := spent, usedFallback := true }
      | none => throw (.rejected d.key report.errors)

/-- Generates text for a step. -/
def generate (g : Generator) (d : Demand) : Run Generated :=
  g.attempts d d.guardrails.retries.toNat 0 d.prompt {} .zero

end Generator

/-! ## Replies to a batch -/

/-- From the first opening to the last closing brace of a text. -/
def braced? (s : List Char) : Option (List Char) :=
  let behind := s.dropWhile (· != '{')
  let inside := Text.dropBack (· != '}') behind
  if inside.length < 2 then none else some inside

/-- The answers in a model's reply, which must have every key. -/
def batchAnswers (reply : String) (keys : List String) : Except Failure (Record String) := do
  let cleaned := (Check.unfence (Text.trim reply)).toList
  let some inside := braced? cleaned
    | throw (.transport ("Response contained no JSON object: " ++ quoted (Text.take 200 reply)))
  let data ← (Json.read (String.ofList inside)).mapError fun e =>
    Failure.transport ("Response was not valid JSON: " ++ e.message)
  let entries ← match data with
    | .dict es => pure (Entries.toRecord es)
    | _ => throw (.transport "Response JSON must be an object")
  let missing := keys.filter fun k => !entries.has k
  if !missing.isEmpty then
    throw (.transport ("Response is missing keys: " ++ Text.join ", " missing))
  return (entries.restrict keys.contains).map fun e => (e.1, AnswersFile.asText e.2)

end Scaffold
