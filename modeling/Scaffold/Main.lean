import Scaffold.Cli

/-!
# The program

The command line on a real disk: what the work may look at is read into a tree, the command runs on
that, and what has changed in the tree is brought back to the disk.  Links are not followed.  Commands
run in the shell of this library, and no network is used.

A run is a function of the lines that it has been given, so the program starts with none and runs again
with one more line whenever an answer is wanted; only what has not been printed yet is printed.
-/

namespace Scaffold

namespace Main

/-! ## Reading -/

/-- The variables of the environment that settings and keys may come from. -/
def variableNames : List String :=
  let settings := AiSettings.fields.map (AiSettings.start ++ ·.name) ++
    SearchSettings.fields.map (SearchSettings.start ++ ·.name) ++
    LogSettings.fields.map (LogSettings.start ++ ·.name) ++
    ["ai", "resolver", "logging"].map ("KITGEN_" ++ ·)
  ["HOME", "XDG_CONFIG_HOME"] ++ standardKeys.map (·.2) ++ settings.map Text.upper

/-- The variables that are set, among some names. -/
def environmentOf (names : List String) : IO Environment :=
  names.filterMapM fun name => return (← IO.getEnv name).map (name, ·)

/-- Adds what a path leads to on the disk, with all that is below it. -/
partial def readInto (t : Tree) (p : Path) : IO Tree := do
  let place := (← IO.currentDir) / p.toString
  if !(← place.pathExists) then return t
  match (← place.symlinkMetadata).type with
  | .dir =>
    let t := (t.makeDirectories p (p.parts.length + 1)).toOption.getD t
    (← place.readDir).toList.foldlM (fun t e => readInto t (p.child e.fileName)) t
  | .file =>
    let bytes ← IO.FS.readBinFile place
    let t := (t.makeDirectories p.parent (p.parts.length + 1)).toOption.getD t
    return (t.write p (.ofOctets bytes.toList)).toOption.getD t
  | _ => return t

/-! ## Writing -/

/-- Brings the disk from one tree to another. -/
def store (old now : Tree) : IO Unit := do
  let place (p : Place) := return (← IO.currentDir) / ("/" ++ Text.join "/" p)
  for (p, e) in now.lost old do
    match e with
    | .file _ => IO.FS.removeFile (← place p)
    | .directory => IO.FS.removeDir (← place p)
  for (p, e) in now.fresh old do
    match e with
    | .file c => IO.FS.writeBinFile (← place p) ⟨c.toOctets.toArray⟩
    | .directory => IO.FS.createDirAll (← place p)

/-- Prints what an event shows. -/
def display : Event → IO Unit
  | .printed .notices text => IO.eprint text
  | .printed _ text => IO.print text
  | _ => return

/-! ## Running -/

/-- Runs a command line on the lines read so far, and again with another line where one is wanted.
`shown` events have been displayed, and `closed` says that there are no more lines. -/
partial def converse (w : Cli.Workplace) (args : List String) (start : Session) (shown : Nat)
    (closed : Bool) : IO (Except Failure Int × Session) := do
  let (outcome, s) := Run.on (w.main args) start
  let sure := if closed then s.journal else s.journal.takeWhile fun
    | .answered none => false
    | _ => true
  (sure.drop shown).forM display
  if sure.length = s.journal.length then return (outcome, s)
  IO.print " "
  (← IO.getStdout).flush
  let line ← (← IO.getStdin).getLine
  converse w args { start with input := start.input ++ line } sure.length (line == "")

/-- Runs a command line: the exit status. -/
def run (args : List String) : IO UInt32 := do
  let here := Path.ofString (← IO.currentDir).toString
  let environment ← environmentOf variableNames
  let file := (Settings.directory environment).child "config.json"
  let named := match Cli.Command.read args with
    | .ok c => c.paths
    | .error _ => []
  let tree ← (file :: here :: named.map fun p => (here.join p).normal).foldlM readInto .bare
  match Settings.load tree file environment with
  | .error e =>
    IO.eprintln e.message
    return 1
  | .ok settings =>
    let environment := environment ++ (← environmentOf (settings.ai.keyVariable?).toList)
    let work : Cli.Workplace :=
      { directory := here, settings, settingsFile := file, environment, shell := .within environment
        web := fun _ => .error "no network", isTerminal := ← (← IO.getStdin).isTty }
    let (outcome, s) ← converse work args { tree } 0 false
    store tree s.tree
    match outcome with
    | .ok status => return UInt32.ofNat status.toNat
    | .error e =>
      IO.eprintln (e.kind ++ ": " ++ e.message)
      return 1

end Main

end Scaffold

/-- The program. -/
def main (args : List String) : IO UInt32 := Scaffold.Main.run args
