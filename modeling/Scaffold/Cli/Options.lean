import Scaffold.Record
import Scaffold.Text.Search

/-!
# Options of a command line

An option is a flag or takes a value, from behind an equals sign or else from the next argument.  Words
between options stay in order, and so do options that are not known where a command passes them on.
Behind two hyphens alone there are only words.
-/

namespace Scaffold

namespace Cli

/-- Why a command line cannot be read. -/
inductive UsageFault where
  | noCommand (name : String)
  | noOption (name : String)
  | noValue (name : String)
  | idleValue (name : String)
  | badChoice (name value : String)
  | missing (name : String)
  | extra (words : List String)
  deriving DecidableEq, Inhabited, Repr

/-- The wording of a fault. -/
def UsageFault.message : UsageFault → String
  | .noCommand n => "No such command '" ++ n ++ "'."
  | .noOption n => "No such option: " ++ n
  | .noValue n => "Option '" ++ n ++ "' requires an argument."
  | .idleValue n => "Option '" ++ n ++ "' does not take a value."
  | .badChoice n v => "Invalid value for '" ++ n ++ "': '" ++ v ++ "'."
  | .missing n => "Missing argument '" ++ n ++ "'."
  | .extra ws => "Got unexpected extra arguments (" ++ Text.join " " ws ++ ")"

/-- The options that a command knows. -/
structure Grammar where
  flags : List String := []
  valued : List String := []
  /-- Letters that stand for flags. -/
  letters : List (Char × String) := []
  /-- Whether options that are not known count as words. -/
  passesOn : Bool := false
  deriving DecidableEq, Inhabited, Repr

/-- A command line taken apart. -/
structure Taken where
  flags : List String := []
  values : Record String := []
  words : List String := []
  deriving DecidableEq, Inhabited, Repr

namespace Taken

/-- Whether a flag was given. -/
def has (t : Taken) (flag : String) : Bool := t.flags.contains flag

/-- One more word. -/
def addWord (t : Taken) (w : String) : Taken := { t with words := t.words ++ [w] }

/-- One more flag. -/
def addFlag (t : Taken) (f : String) : Taken := { t with flags := t.flags ++ [f] }

/-- One more value; the last one of an option counts. -/
def addValue (t : Taken) (k v : String) : Taken := { t with values := t.values.put k v }

end Taken

namespace Grammar

/-- An option that is not known. -/
def unknown (g : Grammar) (t : Taken) (arg name : String) : Except UsageFault Taken :=
  if g.passesOn then .ok (t.addWord arg) else .error (.noOption name)

/-- Letters behind one hyphen. -/
def short (g : Grammar) (t : Taken) (arg : String) : Except UsageFault Taken :=
  let cs := arg.toList.drop 1
  let known := cs.filterMap fun c => g.letters.lookup c
  let others := cs.filter fun c => (g.letters.lookup c).isNone
  let t := known.foldl Taken.addFlag t
  if others.isEmpty then .ok t
  else g.unknown t ("-" ++ String.ofList others) ("-" ++ String.ofList (others.take 1))

/-- Takes a command line apart. -/
def take (g : Grammar) (t : Taken) : List String → Except UsageFault Taken
  | [] => .ok t
  | arg :: rest =>
    if arg = "--" then .ok { t with words := t.words ++ rest }
    else if Text.startsWith "--" arg then
      let (name, value) := match Text.cut? "=" arg with
        | some (n, v) => (n, some v)
        | none => (arg, none)
      if g.valued.contains name then
        match value, rest with
        | some v, rest => g.take (t.addValue name v) rest
        | none, v :: rest' => g.take (t.addValue name v) rest'
        | none, [] => .error (.noValue name)
      else if g.flags.contains name then
        match value with
        | some _ => .error (.idleValue name)
        | none => g.take (t.addFlag name) rest
      else do
        let t ← g.unknown t arg name
        g.take t rest
    else if Text.startsWith "-" arg && 1 < arg.length then do
      let t ← g.short t arg
      g.take t rest
    else g.take (t.addWord arg) rest
  termination_by args => args.length

end Grammar

end Cli

end Scaffold
