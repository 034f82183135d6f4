import Scaffold.Failure
import Scaffold.Recipe.Reader
import Scaffold.Text.Blank
import Scaffold.Yaml.Document

/-!
# Recipes in a tree

A directory holds a recipe if it holds a file with one of the names for recipes.  A recipe file is a
mapping; one that gives no name takes that of its directory, or its own if it is named otherwise.

A directory without a recipe of its own is a group of the recipes below it.  A directory in it that
holds a recipe contributes that recipe alone; one that does not is searched further.  Directories
whose names start with a point are passed over.
-/

namespace Scaffold

namespace Recipe

/-- The names of recipe files, the first of which counts. -/
def fileNames : List String := ["recipe.yml", "recipe.yaml"]

/-- The recipe file in a directory. -/
def fileIn? (t : Tree) (directory : Path) : Option Path :=
  (fileNames.map directory.child).find? t.isFile

/-- Whether a directory below `directory` holds a recipe. -/
def isNestedIn (t : Tree) (directory : Path) : Bool :=
  t.isDirectory directory && fileNames.any fun name =>
    ((Glob.find t directory ("*/**/" ++ name)).toOption.getD []).any t.isFile

/-- The name of a recipe that gives none. -/
def nameOfFile (file : Path) : String :=
  if fileNames.contains file.name then file.parent.name else file.stem

/-- The recipe that a text writes. -/
def parse (text : String) (source : Option Path := none) : Except Failure Recipe := do
  let label := (source.map (·.toString)).getD "<string>"
  let data ← (Yaml.read text).mapError
    (Failure.ofYaml fun what => .recipeUnreadable label ("invalid YAML: " ++ what))
  match data with
  | .dict es =>
    let es := match source with
      | some file =>
        if ((Entries.field? es "name").getD .null).truthy then es
        else Entries.put es (.str "name") (.str (nameOfFile file))
      | none => es
    let place := Value.ofText? (source.map (·.toString))
    let given := (Entries.field? es "name").getD .null
    (Recipe.ofValue (.dict (Entries.put es (.str "source_path") place))).toExcept.mapError
      fun issues => .recipeInvalid (issues.map (·.message)) (if given.truthy then some given.plain else none)
  | _ => throw (.recipeUnreadable label "expected a mapping at the top level")

/-- The text of a file with its line breaks unified. -/
def textOf (t : Tree) (file : Path) : Except Failure String := do
  let content ← (t.read file).mapError fun e => Failure.recipeUnreadable file.toString e.message
  let text ← content.decode.mapError Failure.badOctets
  return Text.withLineFeeds text

/-- The recipe in a file, or in the recipe file of a directory. -/
def load (t : Tree) (path : Path) : Except Failure Recipe := do
  let file ←
    if t.isDirectory path then
      match fileIn? t path with
      | some file => pure file
      | none => throw (.recipeUnreadable path.toString "directory has no recipe.yml")
    else pure path
  parse (← textOf t file) (some file.resolved)

/-! ## Groups -/

/-- The recipe files below a directory, to a depth. -/
def belowTo (t : Tree) (directory : Path) : (depth : Nat) → List Path
  | 0 => []
  | depth + 1 =>
    let names := ((t.directoriesIn directory).toOption.getD []).filter fun n =>
      !Text.startsWith "." n
    names.flatMap fun n =>
      let child : Path := ⟨directory.root, directory.parts ++ [n]⟩
      match fileIn? t child with
      | some file => [file]
      | none => belowTo t child depth

/-- The recipe files of a group, in order. -/
def discover (t : Tree) (directory : Path) : Except FileFault (List Path) := do
  let _ ← t.directoriesIn directory
  return belowTo t directory (t.depth + 1)

end Recipe

end Scaffold
