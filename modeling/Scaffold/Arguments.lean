import Scaffold.Recipe.Basic
import Scaffold.Shell.Words
import Scaffold.Value.Written

/-!
# Arguments

The arguments of a command: words by position, and named parameters behind two hyphens.  A parameter
takes its value from behind an equals sign, or else from the next argument unless that is a parameter
too; one without a value is a flag.  Leftover words go to the variables that a recipe declares by
position, where a named parameter wins.
-/

namespace Scaffold

namespace Arguments

/-- Whether an argument starts with two hyphens. -/
def isDashed (arg : String) : Bool := Text.startsWith "--" arg

/-- Whether an argument names a parameter. -/
def isNamed (arg : String) : Bool := isDashed arg && 2 < arg.length

/-- Arguments taken apart. -/
structure Parsed where
  positional : List String := []
  params : Record Value := []
  deriving Inhabited, Repr

namespace Parsed

/-- One more word by position. -/
def addWord (p : Parsed) (s : String) : Parsed := { p with positional := p.positional ++ [s] }

/-- One more parameter; the last value of a name counts. -/
def addParam (p : Parsed) (k : String) (v : Value) : Parsed := { p with params := p.params.put k v }

end Parsed

/-- Takes the arguments behind `p` apart. -/
def parseFrom (p : Parsed) : List String → Parsed
  | [] => p
  | arg :: rest =>
    if isNamed arg then
      let body := Text.drop 2 arg
      match Text.cut? "=" body with
      | some (k, v) => parseFrom (p.addParam k (.str v)) rest
      | none =>
        match rest with
        | next :: rest' =>
          if isDashed next then parseFrom (p.addParam body (.bool true)) (next :: rest')
          else parseFrom (p.addParam body (.str next)) rest'
        | [] => p.addParam body (.bool true)
    else parseFrom (p.addWord arg) rest
  termination_by args => args.length

/-- Takes arguments apart. -/
def parse (args : List String) : Parsed := parseFrom {} args

/-- A parameter as an argument. -/
def flagOf (name : String) (v : Value) : String :=
  match v with
  | .bool true => "--" ++ name
  | v => "--" ++ name ++ "=" ++ v.plain

/-- The arguments without an earlier answers file. -/
def withoutAnswers : List String → List String
  | [] => []
  | arg :: rest =>
    if arg = "--answers" then withoutAnswers (rest.drop 1)
    else if Text.startsWith "--answers=" arg then withoutAnswers rest
    else arg :: withoutAnswers rest
  termination_by args => args.length
  decreasing_by all_goals (simp_wf; try omega)

/-- The command line of some arguments, without an earlier answers file. -/
def commandLine (args : List String) : String :=
  Text.join " " ((withoutAnswers args).map Shell.quote)

/-- Gives leftover words to positional variables in turn, unless a parameter names the variable. -/
def bindPositional (names : List String) (words : List String) (params : Record Value) :
    Record Value :=
  (names.zip words).foldl (fun r (name, word) => r.putNew name (.str word)) params

/-- Gives leftover words to the positional variables of a recipe. -/
def bindTo (r : Recipe) (words : List String) (params : Record Value) : Record Value :=
  bindPositional (r.positional.map (·.1)) words params

end Arguments

end Scaffold
