import Scaffold.Budget
import Scaffold.Collector
import Scaffold.Failure

/-!
# Sessions

What one invocation works on and what it has done: the tree of files, the pending inquiries, the
accounts of model calls, the variables of the step that is running, the input still unread, and a
journal of everything it did that can be seen from outside, in order.

A run is an operation on a session.  A run that fails leaves the session as it was at the failure, so
nothing that happened before is forgotten.  What surrounds a session — a shell, a model, a person who
answers questions, the handlers of actions — comes in as functions.
-/

namespace Scaffold

/-- Where printed text goes. -/
inductive Channel where
  /-- What steps print. -/
  | steps
  /-- What a person is asked on a terminal. -/
  | questions
  /-- Prompt documents for someone else to answer. -/
  | documents
  /-- Notices beside the output. -/
  | notices
  deriving DecidableEq, Inhabited, Repr

/-- A call of a model. -/
structure ModelCall where
  system : String
  prompt : String
  temperature : Number
  maxTokens : Int
  deriving DecidableEq, Inhabited, Repr

/-- Something that was done. -/
inductive Event where
  | printed (channel : Channel) (text : String)
  | asked (name description : String) (suggestion : Value)
  | confirmed (message : String)
  /-- A line of the input answered a question, or there was none left. -/
  | answered (line : Option String)
  | called (call : ModelCall)
  /-- The execution of a recipe began. -/
  | executed (recipe : String) (collecting : Bool)
  /-- A step began, with the variables that it saw. -/
  | began (step : String) (visible : Record Value)
  | ran (command : String)
  | acted (action : String)
  deriving Inhabited, Repr

/-- The variables of a running step. -/
structure Scope where
  /-- What the step sees. -/
  visible : Record Value := []
  /-- What the steps of this execution have set. -/
  produced : Record Value := []
  /-- What steps hand on by name. -/
  shared : Record Value := []
  deriving Inhabited, Repr

namespace Scope

/-- Sets a variable for this step and those behind it. -/
def set (s : Scope) (name : String) (v : Value) : Scope :=
  { s with visible := s.visible.put name v, produced := s.produced.put name v }

end Scope

/-- A session. -/
structure Session where
  tree : Tree := .bare
  collector : Collector := {}
  ledger : Ledger := {}
  scope : Scope := {}
  /-- The input that was not read yet. -/
  input : String := ""
  journal : List Event := []
  deriving Inhabited, Repr

namespace Session

/-- Enters an event. -/
def note (s : Session) (e : Event) : Session := { s with journal := s.journal ++ [e] }

/-- The text printed to some channels; an answer stands behind its question. -/
def printed (s : Session) (p : Channel → Bool) : String :=
  String.join <| s.journal.filterMap fun
    | .printed c text => if p c then some text else none
    | .answered (some line) => if p .questions then some (" " ++ line ++ "\n") else none
    | _ => none

/-- The calls of models. -/
def calls (s : Session) : List ModelCall :=
  s.journal.filterMap fun
    | .called c => some c
    | _ => none

end Session

/-- The accounts as data. -/
def Ledger.report (l : Ledger) : Record Value :=
  [("total_tokens", .int l.tokens), ("total_cost_usd", .float l.cost), ("calls", .int l.calls),
    ("warned", .bool l.warned)]

/-- An operation on a session, which may fail. -/
abbrev Run := ExceptT Failure (StateM Session)

namespace Run

/-- Enters an event. -/
def note (e : Event) : Run Unit := modify fun s => s.note e

/-- The outcome of a pure operation. -/
def ofExcept {α : Type} : Except Failure α → Run α
  | .ok a => return a
  | .error e => throw e

/-- The outcome of a file operation. -/
def ofFile {α : Type} (r : Except FileFault α) : Run α := ofExcept (r.mapError .file)

/-- Prints a line for the running step. -/
def emit (message : String) : Run Unit := note (.printed .steps (message ++ "\n"))

/-- Sets a variable for this step and those behind it. -/
def setVariable (name : String) (v : Value) : Run Unit :=
  modify fun s => { s with scope := s.scope.set name v }

/-- Works on the collector. -/
def collect (f : Collector → Collector) : Run Unit :=
  modify fun s => { s with collector := f s.collector }

/-- The text of a file as it is. -/
def readText (p : Path) : Run String := do
  let content ← ofFile ((← get).tree.read p)
  ofExcept (content.decode.mapError .badOctets)

/-- Replaces a file in one move; `failing` is a stage that fails. -/
def writeText (p : Path) (text : String) (failing : Option Tree.Stage := none) : Run Unit := do
  let s ← get
  let (outcome, tree) := s.tree.replace p text failing
  set { s with tree }
  ofFile outcome

/-- The outcome of a run as a value: no failure escapes. -/
def attempt {α : Type} (r : Run α) : Run (Except Failure α) := fun s =>
  let (a, s') := r.run s
  (.ok a, s')

/-- Runs on a session. -/
def on {α : Type} (r : Run α) (s : Session) : Except Failure α × Session := r.run s

end Run

/-- Someone who answers questions. -/
structure Prompter where
  /-- A value for a variable. -/
  ask : String → Variable → Run Value
  /-- Consent to something. -/
  confirm : String → Run Bool

/-! ## Commands -/

/-- What is to be run: a line for the shell, or a program with its arguments. -/
inductive Program where
  | line (text : String)
  | words (arguments : List String)
  deriving DecidableEq, Inhabited, Repr

/-- A command with its surroundings. -/
structure Command where
  program : Program
  directory : Path
  /-- What the command reads. -/
  input : List UInt8 := []
  /-- The variables of the environment that are kept from it. -/
  hidden : List String := []
  /-- Seconds until it is given up. -/
  limit : Option Binary64 := none
  deriving DecidableEq, Inhabited, Repr

/-- What a command leaves behind. -/
structure CommandOutcome where
  status : Int
  output : List UInt8
  errors : List UInt8
  tree : Tree
  deriving Inhabited, Repr

namespace CommandOutcome

/-- The printed text; what is no text is replaced. -/
def outputText (o : CommandOutcome) : String := Utf8.decodeLenient o.output

/-- The beginning of what was printed about errors. -/
def errorText (o : CommandOutcome) : String :=
  Text.take 500 (Text.trim (Utf8.decodeLenient o.errors))

end CommandOutcome

/-- Why a command left nothing. -/
inductive CommandFault where
  | timedOut
  | notStarted (fault : FileFault)
  /-- There was nothing to run. -/
  | noProgram
  /-- A text with a null character cannot be handed over. -/
  | nullCharacter
  deriving DecidableEq, Inhabited, Repr

/-- Runs commands on a tree. -/
abbrev Shell := Command → Tree → Except CommandFault CommandOutcome

/-- Runs a command; the tree is what it leaves. -/
def Run.command (sh : Shell) (c : Command) : Run (Except CommandFault CommandOutcome) := do
  let text := match c.program with
    | .line l => l
    | .words ws => Text.join " " ws
  Run.note (.ran text)
  match sh c (← get).tree with
  | .ok o =>
    modify fun s => { s with tree := o.tree }
    return .ok o
  | .error e => return .error e

end Scaffold
