import Scaffold.Schema
import Scaffold.Json.Reader
import Scaffold.Splice
import Scaffold.Template
import Scaffold.Tree.Glob
import Scaffold.Yaml.Cursor

/-!
# Failures

Everything that can end an operation, by cause.  The first group are failures of the domain, which a
run reports and a group of recipes survives; the others are faults of values, texts and files, which
a running step turns into its own failure.  A failure has a kind, a word that stands before its
message where a step reports it, and a message.
-/

namespace Scaffold

/-- Why an operation ended. -/
inductive Failure where
  /-- No recipe or group for the given words. -/
  | unresolved (segments searched : List String)
  /-- A recipe file that cannot be read. -/
  | recipeUnreadable (path reason : String)
  /-- A recipe, or values for it, with hard problems. -/
  | recipeInvalid (problems : List String) (recipe : Option String)
  /-- A step that failed. -/
  | stepFailed (step reason : String)
  /-- A transport that lacks a credential or command, and how to mend that. -/
  | misconfigured (message remedy : String)
  /-- A transport that failed at its work. -/
  | transport (message : String)
  /-- A splice that cannot be made. -/
  | splice (message : String)
  /-- A budget that would be exceeded. -/
  | budget (message : String)
  /-- Generated text that failed its checks. -/
  | rejected (key : String) (issues : List String)
  /-- An unreadable answers file. -/
  | answersFile (message : String)
  /-- Any other failure of the domain. -/
  | general (message : String)
  /-- A value that stands for nothing usable. -/
  | badValue (message : String)
  /-- A value of a kind that cannot be used here. -/
  | badType (message : String)
  /-- A field asked of a value that has none. -/
  | noField (message : String)
  /-- A position outside a sequence. -/
  | outOfRange (message : String)
  /-- A name that a mapping does not have. -/
  | noEntry (message : String)
  /-- A number that is too large for its use. -/
  | tooLarge (message : String)
  /-- A request that is not supported. -/
  | unsupported (message : String)
  /-- Someone stopped answering. -/
  | aborted
  /-- A failure raised by an action. -/
  | raised (message : String)
  /-- A pattern that cannot be compiled. -/
  | badPattern
  /-- A text that is no JSON. -/
  | badJson (error : Json.Error)
  /-- Octets that are no text. -/
  | badOctets (fault : Octets.Fault)
  /-- Settings that cannot be read. -/
  | badSettings (message : String)
  /-- Data that does not fit its schema. -/
  | badData (issues : List Schema.Issue)
  /-- A refused file operation. -/
  | file (fault : FileFault)
  /-- A directory in which a command cannot run. -/
  | badDirectory (fault : FileFault)
  /-- A template file that is not there. -/
  | noTemplate (step path : String)
  deriving DecidableEq, Inhabited, Repr

namespace Failure

/-- Problems one behind the other. -/
def listed (problems : List String) : String := Text.join "; " problems

/-- The message about a directory in which a command cannot run. -/
def directoryMessage (f : FileFault) : String :=
  let shown (p : Path) := "PosixPath(" ++ quoted p.toString ++ ")"
  match f with
  | .notFound p => "[Errno 2] No such file or directory: " ++ shown p
  | .notDirectory p => "[Errno 20] Not a directory: " ++ shown p
  | f => f.message

/-- The message of a failure. -/
def message : Failure → String
  | unresolved segments searched =>
    let joined := if segments.all (· == "") && segments.length ≤ 1 then "(none)"
      else Text.join " " segments
    "No recipe or group found for: " ++ joined ++
      (if searched.isEmpty then "" else " (searched: " ++ Text.join ", " searched ++ ")")
  | recipeUnreadable path reason => "Failed to load recipe " ++ path ++ ": " ++ reason
  | recipeInvalid problems recipe =>
    let who := match recipe with
      | some name => if name = "" then "Recipe is invalid" else "Recipe '" ++ name ++ "' is invalid"
      | none => "Recipe is invalid"
    who ++ ": " ++ listed problems
  | stepFailed step reason => "Step '" ++ step ++ "' failed: " ++ reason
  | misconfigured m remedy => m ++ "\n  Fix: " ++ remedy
  | rejected key issues => "Output for '" ++ key ++ "' failed validation: " ++ listed issues
  | transport m | splice m | budget m | answersFile m | general m => m
  | badValue m | badType m | noField m | outOfRange m | noEntry m | tooLarge m => m
  | unsupported m | raised m => m
  | badSettings m => m
  | badPattern | aborted => ""
  | badJson e => e.message
  | badOctets f => f.message
  | badData issues => listed (issues.map (·.message))
  | file f => f.message
  | badDirectory f => directoryMessage f
  | noTemplate step path => "Template not found for step '" ++ step ++ "': " ++ path

/-- The word for the kind of a refused file operation. -/
def fileKind : FileFault → String
  | .notFound _ => "FileNotFoundError"
  | .exists _ => "FileExistsError"
  | .notDirectory _ => "NotADirectoryError"
  | .isDirectory _ | .replacesDirectory .. => "IsADirectoryError"
  | .stage _ => "OSError"

/-- The word for the kind of a failure. -/
def kind : Failure → String
  | unresolved .. => "ResolutionError"
  | recipeUnreadable .. => "RecipeLoadError"
  | recipeInvalid .. => "RecipeValidationError"
  | stepFailed .. => "StepExecutionError"
  | misconfigured .. => "TransportConfigError"
  | transport _ => "TransportError"
  | splice _ => "InjectionError"
  | budget _ => "BudgetExceededError"
  | rejected .. => "GuardrailError"
  | answersFile _ => "AnswersFileError"
  | general _ => "KitgenError"
  | badValue _ => "ValueError"
  | badType _ => "TypeError"
  | noField _ => "AttributeError"
  | outOfRange _ => "IndexError"
  | noEntry _ => "KeyError"
  | tooLarge _ => "OverflowError"
  | unsupported _ => "NotImplementedError"
  | raised _ => "RuntimeError"
  | aborted => "Abort"
  | badPattern => "error"
  | badJson _ => "JSONDecodeError"
  | badOctets _ => "UnicodeDecodeError"
  | badSettings _ => "SettingsError"
  | badData _ => "ValidationError"
  | file f | badDirectory f => fileKind f
  | noTemplate .. => "FileNotFoundError"

/-- Whether a failure is one of the domain. -/
def isDomain : Failure → Bool
  | unresolved .. | recipeUnreadable .. | recipeInvalid .. | stepFailed .. | misconfigured ..
  | transport _ | splice _ | budget _ | rejected .. | answersFile _ | general _ => true
  | _ => false

/-- Whether a failure is a refusal of the file system. -/
def isOfFiles : Failure → Bool
  | file _ | badDirectory _ | noTemplate .. => true
  | _ => false

/-- A failure as a step reports it: its kind and its message. -/
def report (f : Failure) : String := f.kind ++ ": " ++ f.message

/-- The failure of a template. -/
def ofTemplate : Template.Fault → Failure
  | f@(.unknownFilter _) => .badValue f.message
  | f@(.noJson _) => .badType f.message

/-- The failure of a glob pattern. -/
def ofGlob : Glob.Fault → Failure
  | f@(.empty) | f@(.badStars) => .badValue f.message
  | f@(.notRelative) => .unsupported f.message
  | f@(.noComponent) => .outOfRange f.message
  | f@(.onlySlash) => .noField f.message

/-- The failure of a document in YAML: what is malformed is refused in the words of the reader, and a scalar
without a value fails for itself. -/
def ofYaml (refused : String → Failure) : Yaml.Fault → Failure
  | .malformed what => refused what
  | .badValue m => .badValue m
  | .badType m => .badType m
  | .noEntry m => .noEntry m
  | .noField m => .noField m
  | .outOfRange m => .outOfRange m
  | .tooLarge m => .tooLarge m

/-- The failure of a splice. -/
def ofSplice (f : Splice.Fault) : Failure := .splice f.message

end Failure

end Scaffold
