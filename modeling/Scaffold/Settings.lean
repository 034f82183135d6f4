import Scaffold.Failure
import Scaffold.Prompt

/-!
# Settings

How answers are found, where recipes are looked for, and how much is logged.  The environment is a
record of variables; it is also where keys for models may be kept.
-/

namespace Scaffold

/-- The variables of the environment. -/
abbrev Environment := Record String

/-- How answers are found. -/
inductive AnswerMode where
  | auto
  | api
  | command
  | document
  | off
  deriving DecidableEq, Inhabited, Repr

/-- The modes and their words. -/
def AnswerMode.words : List (String × AnswerMode) :=
  [("auto", .auto), ("api", .api), ("command", .command), ("stdout", .document), ("off", .off)]

/-- The word for a mode. -/
def AnswerMode.word : AnswerMode → String
  | auto => "auto"
  | api => "api"
  | command => "command"
  | document => "stdout"
  | off => "off"

/-- Who runs a model. -/
inductive Provider where
  | anthropic
  | openai
  | compatible
  | ollama
  deriving DecidableEq, Inhabited, Repr

/-- The providers and their names. -/
def Provider.names : List (String × Provider) :=
  [("anthropic", .anthropic), ("openai", .openai), ("openai_compatible", .compatible),
    ("ollama", .ollama)]

/-- The name of a provider. -/
def Provider.name : Provider → String
  | anthropic => "anthropic"
  | openai => "openai"
  | compatible => "openai_compatible"
  | ollama => "ollama"

/-- Whether prompts are put to a command all at once or one by one. -/
inductive Batching where
  | batched
  | perBlock
  deriving DecidableEq, Inhabited, Repr

/-- The ways of batching and their words. -/
def Batching.words : List (String × Batching) := [("batched", .batched), ("per-block", .perBlock)]

/-- The word for a way of batching. -/
def Batching.word : Batching → String
  | batched => "batched"
  | perBlock => "per-block"

/-- How answers are found, in detail. -/
structure AiSettings where
  mode : AnswerMode := .auto
  provider : Option Provider := none
  model : Option String := none
  /-- A key, or a dollar sign and the variable that holds it. -/
  apiKey : Option String := none
  baseUrl : Option String := none
  command : Option String := none
  batching : Batching := .batched
  /-- Seconds until a command is given up. -/
  timeout : Binary64 := .ofInt 300
  temperature : Binary64 := .ofDecimal false 2 (-1)
  maxTokens : Int := 4096
  answersPath : String := Prompt.defaultAnswersPath
  maxTotalTokens : Option Int := none
  maxTotalCost : Option Binary64 := none
  warnAtCost : Option Binary64 := none
  deriving DecidableEq, Inhabited, Repr

/-- Where recipes are looked for. -/
structure SearchSettings where
  searchDirectories : List String := [".kitgen/cookbooks", "cookbooks"]
  kitDirectories : List String := [".kitgen/kits", "kits"]
  deriving DecidableEq, Inhabited, Repr

/-- How much is logged, and in which form. -/
structure LogSettings where
  level : String := "WARNING"
  asJson : Bool := false
  deriving DecidableEq, Inhabited, Repr

/-- All settings. -/
structure Settings where
  ai : AiSettings := {}
  search : SearchSettings := {}
  log : LogSettings := {}
  deriving DecidableEq, Inhabited, Repr

/-- The variables that hold a key for a provider, which need not be one that is supported. -/
def standardKeys : Record String :=
  [("anthropic", "ANTHROPIC_API_KEY"), ("openai", "OPENAI_API_KEY"),
    ("google", "GOOGLE_GENERATIVE_AI_API_KEY")]

/-- A variable that is set and not empty. -/
def Environment.filled? (env : Environment) (name : String) : Option String :=
  (Record.get? env name).filter (· != "")

namespace AiSettings

/-- The variable of the environment that the given key refers to. -/
def keyVariable? (s : AiSettings) : Option String :=
  (s.apiKey.filter (Text.startsWith "$")).map (Text.drop 1)

/-- The key for the model: the one given, or one that the environment holds. -/
def key? (s : AiSettings) (env : Environment) : Option String :=
  match Scaffold.filled? s.apiKey with
  | some raw => (s.keyVariable?.map env.filled?).getD (some raw)
  | none =>
    match s.provider with
    | some p =>
      let standard := (standardKeys.get? p.name).bind env.filled?
      match p with
      | .compatible => standard.or (env.filled? "OPENAI_API_KEY")
      | _ => standard
    | none => standardKeys.findSome? fun e => env.filled? e.2

/-- Whether the provider asks for a key. -/
def needsKey (s : AiSettings) : Bool := s.provider != some .ollama

/-- Whether the provider can be called. -/
def canCall (s : AiSettings) (env : Environment) : Bool :=
  s.provider.isSome && (!s.needsKey || (s.key? env).isSome)

end AiSettings

end Scaffold
