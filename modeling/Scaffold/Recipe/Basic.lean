import Scaffold.Path
import Scaffold.Value

/-!
# Recipes

A recipe declares variables and lists steps.  A step has fields that every step has and a body that
says what it does: run an action, add a file, splice into a file, run shell commands, print a
message, or ask a model for content.

Location fields of a splice are kept as they are written, since a recipe may write several; which of
them counts is decided where the splice is made.
-/

namespace Scaffold

/-! ## Variables -/

/-- What a variable holds. -/
inductive VariableKind where
  | string
  | boolean
  | number
  | enum
  | array
  | object
  deriving DecidableEq, Inhabited, Repr

namespace VariableKind

/-- The kinds by the words that name them. -/
def all : List (String × VariableKind) :=
  [("string", .string), ("boolean", .boolean), ("number", .number), ("enum", .enum),
    ("array", .array), ("object", .object)]

/-- The word for a kind. -/
def word : VariableKind → String
  | string => "string"
  | boolean => "boolean"
  | number => "number"
  | enum => "enum"
  | array => "array"
  | object => "object"

end VariableKind

/-- A declared variable; a default or suggestion of null is none. -/
structure Variable where
  kind : VariableKind := .string
  required : Bool := false
  default : Value := .null
  suggestion : Value := .null
  description : String := ""
  /-- The index among the words of a command line that are left over. -/
  position : Option Int := none
  /-- The values allowed. -/
  values : Option (List Value) := none
  min : Option Binary64 := none
  max : Option Binary64 := none
  pattern : Option String := none
  deriving Inhabited, Repr

/-! ## Steps -/

/-- The kinds of steps. -/
inductive StepKind where
  | action
  | add
  | inject
  | shell
  | setup
  | echo
  | ai
  deriving DecidableEq, Inhabited, Repr

namespace StepKind

/-- The tag of a kind. -/
def tag : StepKind → String
  | action => "action"
  | add => "add"
  | inject => "inject"
  | shell => "shell"
  | setup => "setup"
  | echo => "echo"
  | ai => "ai"

/-- All kinds. -/
def all : List StepKind := [action, add, inject, shell, setup, echo, ai]

/-- The kind of a tag. -/
def ofTag? (s : String) : Option StepKind := all.find? fun k => k.tag == s

/-- Whether steps of a kind only change files, which a collecting pass simulates. -/
def mutatesFiles : StepKind → Bool
  | add | inject => true
  | _ => false

/-- Whether steps of a kind cannot be repeated, so that a collecting pass puts them off. -/
def isDeferred : StepKind → Bool
  | shell | setup | action | echo => true
  | _ => false

end StepKind

/-- A call of a named action. -/
structure ActionStep where
  action : String := ""
  parameters : Record Value := []
  deriving Inhabited, Repr

/-- A file to add. -/
structure AddStep where
  target : String := ""
  body : Option String := none
  source : Option String := none
  unlessExists : Bool := false
  force : Bool := false
  skipIf : Option String := none
  deriving DecidableEq, Inhabited, Repr

/-- Where a body is spliced in, as written: several fields may be given. -/
structure Insertion where
  atLine : Option Int := none
  before : Option String := none
  after : Option String := none
  front : Bool := false
  back : Bool := false
  deriving DecidableEq, Inhabited, Repr

/-- Content to splice into a file. -/
structure InjectStep where
  target : String := ""
  body : Option String := none
  source : Option String := none
  insertion : Insertion := {}
  skipIf : Option String := none
  endsLine : Bool := true
  deriving DecidableEq, Inhabited, Repr

/-- A shell command. -/
structure ShellStep where
  command : String := ""
  directory : Option String := none
  deriving DecidableEq, Inhabited, Repr

/-- Shell commands that set a project up. -/
structure SetupStep where
  commands : List String := []
  directory : Option String := none
  deriving DecidableEq, Inhabited, Repr

/-- A message to print. -/
structure EchoStep where
  message : String := ""
  deriving DecidableEq, Inhabited, Repr

/-! ## Steps that ask a model -/

/-- What happens to context that does not fit. -/
inductive Overflow where
  | truncate
  | skip
  | error
  deriving DecidableEq, Inhabited, Repr

/-- The word for an overflow policy. -/
def Overflow.word : Overflow → String
  | truncate => "truncate"
  | skip => "skip"
  | error => "error"

/-- Where the context of a prompt comes from. -/
structure ContextSpec where
  files : List String := []
  globs : List String := []
  fromSteps : List String := []
  projectConfig : Bool := false
  maxTokens : Int := 8000
  overflow : Overflow := .truncate
  deriving DecidableEq, Inhabited, Repr

/-- An example of what is wanted. -/
structure Example where
  input : String := ""
  output : String
  deriving DecidableEq, Inhabited, Repr

/-- Where generated content goes. -/
structure Output where
  type : String := "variable"
  target? : Option String := none
  target : Option String := none
  insertion : Insertion := {}
  skipIf : Option String := none
  format : Option String := none
  deriving DecidableEq, Inhabited, Repr

/-- What happens when content fails its checks. -/
inductive OnFailure where
  | error
  | retry
  | fallback
  deriving DecidableEq, Inhabited, Repr

/-- The word for a failure policy. -/
def OnFailure.word : OnFailure → String
  | error => "error"
  | retry => "retry-with-feedback"
  | fallback => "fallback"

/-- Checks on generated content. -/
structure Guardrails where
  syntaxOf : Option String := none
  allowedImports : Option (List String) := none
  blockedImports : Option (List String) := none
  maxLength : Option Int := none
  retries : Int := 0
  onFailure : OnFailure := .error
  fallback : Option String := none
  deriving DecidableEq, Inhabited, Repr

/-- What one step may spend. -/
structure Allowance where
  maxTokens : Option Int := none
  maxCost : Option Binary64 := none
  deriving DecidableEq, Inhabited, Repr

/-- Content asked of a model. -/
structure AiStep where
  key : Option String := none
  prompt : String := ""
  system : Option String := none
  model : Option String := none
  context : ContextSpec := {}
  examples : List Example := []
  output : Option Output := none
  guardrails : Guardrails := {}
  budget : Allowance := {}
  temperature : Option Binary64 := none
  maxTokens : Option Int := none
  deriving DecidableEq, Inhabited, Repr

/-- What a step does. -/
inductive StepBody where
  | action (s : ActionStep)
  | add (s : AddStep)
  | inject (s : InjectStep)
  | shell (s : ShellStep)
  | setup (s : SetupStep)
  | echo (s : EchoStep)
  | ai (s : AiStep)
  deriving Inhabited, Repr

/-- The kind of a body. -/
def StepBody.kind : StepBody → StepKind
  | action _ => .action
  | add _ => .add
  | inject _ => .inject
  | shell _ => .shell
  | setup _ => .setup
  | echo _ => .echo
  | ai _ => .ai

/-- A step of a recipe. -/
structure Step where
  name : String := ""
  description : String := ""
  /-- The variable that has to count as true, or as false behind an exclamation mark. -/
  condition : Option String := none
  /-- Variables that this step alone sees. -/
  overrides : Record Value := []
  actionId : Option String := none
  subscribesTo : List String := []
  reads : List String := []
  writes : List String := []
  body : StepBody
  deriving Inhabited, Repr

namespace Step

/-- The kind of a step. -/
def kind (s : Step) : StepKind := s.body.kind

end Step

/-- A text that is there and not empty. -/
def filled? (s : Option String) : Option String :=
  match s with
  | some "" => none
  | s => s

/-- The key of the answer to a step named `name`: its own key, the variable it sets, or its name. -/
def AiStep.answerKey (s : AiStep) (name : String) : String :=
  ((filled? s.key).or (filled? (s.output.bind (·.target?)))).getD name

/-! ## Recipes -/

/-- A recipe. -/
structure Recipe where
  name : String
  description : String := ""
  version : Option String := none
  declared : Record Variable := []
  steps : List Step := []
  /-- The file it was read from. -/
  source : Option Path := none
  deriving Inhabited, Repr

namespace Recipe

/-- The directory of its file. -/
def directory (r : Recipe) : Option Path := r.source.map (·.parent)

/-- The variables that take words of a command line by position, in the order of positions. -/
def positional (r : Recipe) : List (String × Variable) :=
  (r.declared.filter fun v => v.2.position.isSome).mergeSort fun a b =>
    decide (a.2.position.getD 0 ≤ b.2.position.getD 0)

/-- The keys of the answers its steps ask for. -/
def answerKeys (r : Recipe) : List String :=
  r.steps.filterMap fun s => match s.body with
    | .ai a => some (a.answerKey s.name)
    | _ => none

/-- Whether a step asks a model. -/
def asksModel (r : Recipe) : Bool := r.steps.any fun s => s.kind == .ai

end Recipe

end Scaffold
