import Scaffold.Session
import Scaffold.Shell.Script

/-!
# The machine of a shell

What a shell script works on: its variables, its directory and the tree of files, what it reads, and
the buffers and files that its two outputs lead to.  Buffer zero is what it prints and buffer one what
it says about errors; more buffers come and go with pipes.
-/

namespace Scaffold

namespace Shell

/-- Where an output leads. -/
inductive Sink where
  | buffer (i : Nat)
  | file (p : Place)
  | nowhere
  deriving DecidableEq, Inhabited, Repr

/-- The state of a shell. -/
structure Machine where
  /-- What the shell calls itself. -/
  name : String := "/bin/sh"
  arguments : List String := []
  bindings : Record String := []
  exported : List String := []
  functions : Record Script := []
  /-- The bindings that come back when the function that is running ends. -/
  hidden : List (String × Option String) := []
  /-- The line that is running. -/
  line : Nat := 1
  /-- Whether a command that fails ends the script. -/
  strict : Bool := false
  /-- Whether a variable that is not set ends the script. -/
  knowing : Bool := false
  /-- Whether the status is being tested, so that a failure ends nothing. -/
  testing : Bool := false
  /-- What is run at the end. -/
  farewell : Option String := none
  directory : Path
  tree : Tree
  input : List UInt8 := []
  buffers : List (List UInt8) := [[], []]
  output : Sink := .buffer 0
  errors : Sink := .buffer 1
  status : Int := 0
  /-- Seconds spent waiting. -/
  waited : Binary64 := .zero
  deriving Inhabited, Repr

namespace Machine

/-- Writes octets into a sink. -/
def emit (m : Machine) (sink : Sink) (bs : List UInt8) : Machine :=
  match sink with
  | .nowhere => m
  | .buffer i => { m with buffers := m.buffers.modify i (· ++ bs) }
  | .file p =>
    let old := match m.tree.at? p with
      | some (.file c) => c.toOctets
      | _ => []
    { m with tree := m.tree.put p (.file (.ofOctets (old ++ bs))) }

/-- Prints octets. -/
def printOctets (m : Machine) (bs : List UInt8) : Machine := m.emit m.output bs

/-- Prints a text. -/
def print (m : Machine) (s : String) : Machine := m.printOctets (Utf8.encode s)

/-- Says something about an error. -/
def complain (m : Machine) (s : String) : Machine := m.emit m.errors (Utf8.encode (s ++ "\n"))

/-- Sets the status. -/
def done (m : Machine) (status : Int := 0) : Machine := { m with status }

/-- Complains and fails. -/
def fail (m : Machine) (s : String) (status : Int := 1) : Machine := (m.complain s).done status

/-- Complains in the name of the shell and fails. -/
def refuse (m : Machine) (s : String) (status : Int := 2) : Machine :=
  m.fail (m.name ++ ": " ++ intText m.line ++ ": " ++ s) status

/-- A path seen from the directory. -/
def path (m : Machine) (s : String) : Path := m.directory.child s

/-- The value of a variable. -/
def get? (m : Machine) (name : String) : Option String := m.bindings.get? name

/-- Sets a variable. -/
def set (m : Machine) (name value : String) : Machine :=
  { m with bindings := m.bindings.put name value }

/-- Takes a variable away. -/
def unset (m : Machine) (name : String) : Machine :=
  { m with bindings := m.bindings.restrict (· != name) }

/-- The characters that separate fields. -/
def separators (m : Machine) : List Char := (m.get? "IFS").getD " \t\n" |>.toList

/-- Takes everything that is left to read. -/
def drain (m : Machine) : List UInt8 × Machine := (m.input, { m with input := [] })

end Machine

/-- The wording of a refused file operation without its path. -/
def reason : FileFault → String
  | .notFound _ => "No such file or directory"
  | .exists _ => "File exists"
  | .notDirectory _ => "Not a directory"
  | .isDirectory _ | .replacesDirectory .. => "Is a directory"
  | .stage _ => "Input/output error"

/-- The lines of octets, each with its line feed; the last one may have none. -/
def octetLines : List UInt8 → List (List UInt8)
  | [] => []
  | b :: bs =>
    if b = 10 then [b] :: octetLines bs
    else match octetLines bs with
      | [] => [[b]]
      | line :: more => (b :: line) :: more

end Shell

end Scaffold
