import Scaffold.Text.Similar
import Scaffold.Tool

/-!
# Actions

Named operations that a host offers to recipes.  An action declares its parameters; its handler works
on the session of the step that runs it, and what it returns becomes the output of the step.  Plugins
register actions of their own; one that fails leaves the others alone.
-/

namespace Scaffold

/-- A parameter of an action; a default of null is none. -/
structure ActionParameter where
  name : String
  required : Bool := false
  default : Value := .null
  description : String := ""
  deriving Inhabited, Repr

/-- What an action returns. -/
structure ActionOutcome where
  output : Value := .null
  message : String := ""
  files : Touched := {}
  deriving Inhabited, Repr

/-- An action. -/
structure Action where
  name : String
  description : String := ""
  parameters : List ActionParameter := []
  handler : Record Value → StepContext → Run ActionOutcome

/-- Actions by name. -/
abbrev Actions := Record Action

namespace Actions

/-- Registers an action in the place of one of its name. -/
def register (as : Actions) (a : Action) : Actions := Record.put as a.name a

/-- The action of a name. -/
def find? (as : Actions) (name : String) : Option Action := Record.get? as name

/-- The names in order. -/
def names (as : Actions) : List String := Tree.sorted (Record.keys as)

/-- The names most like a given one. -/
def similar (as : Actions) (name : String) (limit : Nat := 3) : List String :=
  Text.similar limit name as.names

/-- The names most like a given one, at most as many as asked for, which has to be at least one. -/
def nearest (as : Actions) (limit : Int) (name : String) : Except Failure (List String) :=
  if limit ≤ 0 then .error (.badValue ("n must be > 0: " ++ intText limit))
  else .ok (as.similar name limit.toNat)

end Actions

/-- Something installed that registers actions. -/
structure Plugin where
  name : String
  register : Actions → Except Failure Actions

/-- Lets plugins register actions; those that failed are left out of the names returned. -/
def Actions.load (as : Actions) (plugins : List Plugin) : Actions × List String :=
  plugins.foldl (fun (as, loaded) p => match p.register as with
    | .ok as' => (as', loaded ++ [p.name])
    | .error _ => (as, loaded)) (as, [])

end Scaffold
