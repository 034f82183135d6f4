import Scaffold.Shell.Utility.Files
import Scaffold.Shell.Utility.Search
import Scaffold.Shell.Utility.Tests
import Scaffold.Shell.Utility.Texts

/-!
# Utilities of a shell

The programs that a shell script can start, by their names.
-/

namespace Scaffold

namespace Shell

namespace Utility

/-- Waits. -/
def sleep : Utility := fun args m =>
  match Numeral.read? (args.headD "") with
  | some x => { m.done with waited := m.waited.add x }
  | none => m.fail ("sleep: invalid time interval " ++ typeset (args.headD ""))

/-- Compares two files. -/
def cmp : Utility := fun args m =>
  let (letters, files) := options args
  match files with
  | a :: b :: _ =>
    match readArgument m a, readArgument m b with
    | .ok x, .ok y =>
      if x = y then m.done
      else
        let same := ((x.zip y).takeWhile fun (i, j) => i == j).map (·.1)
        let line := (same.filter (· == 10)).length + 1
        let text := if same.length = x.length || same.length = y.length then ""
          else a ++ " " ++ b ++ " differ: byte " ++ countText (same.length + 1) ++ ", line " ++
            countText line ++ "\n"
        (if letters.contains 's' then m else m.print text).done 1
    | .error e, _ => m.fail ("cmp: " ++ a ++ ": " ++ reason e) 2
    | _, .error e => m.fail ("cmp: " ++ b ++ ": " ++ reason e) 2
  | _ => m.fail "cmp: missing operand" 2

/-- The programs by name. -/
def all : List (String × Utility) :=
  [("[", bracketTest), ("basename", basename), ("cat", cat), ("chmod", chmod), ("cmp", cmp), ("cp", transferAll "cp" true),
    ("cut", cut), ("dirname", dirname), ("echo", echo false), ("expr", expr), ("false", fun _ m => m.done 1),
    ("find", find), ("grep", grep), ("head", head), ("ls", ls), ("mkdir", mkdir),
    ("mv", transferAll "mv" false), ("printf", printf), ("pwd", pwd), ("rev", rev), ("rm", rm),
    ("rmdir", rmdir), ("sed", sed), ("seq", seq), ("sleep", sleep), ("sort", sort), ("tac", tac),
    ("tail", tail), ("tee", tee), ("test", test), ("touch", touch), ("tr", tr), ("true", fun _ m => m.done),
    ("uniq", uniq), ("wc", wc)]

/-- The program of a name, with or without the directory of programs. -/
def find? (name : String) : Option Utility :=
  let p := Path.ofString name
  let bare := ["/bin", "/usr/bin"].any fun d => p.parent = Path.ofString d
  if Text.contains "/" name then if bare then all.lookup p.name else none else all.lookup name

end Utility

end Shell

end Scaffold
