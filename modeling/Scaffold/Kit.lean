import Scaffold.Recipe.Store

/-!
# Kits and cookbooks

A kit is a directory with a kit file; its cookbooks are found by the kit's patterns, and the recipes
of each by the cookbook's.  A name comes from the file and otherwise from the directory; a cookbook is
also known by the name of its directory, unless a cookbook declares that name.
-/

namespace Scaffold

/-- A cookbook. -/
structure Cookbook where
  name : String
  path : Path
  description : String := ""
  patterns : List String
  /-- The recipe that stands for the cookbook. -/
  default : Value := .null
  deriving Inhabited, Repr

/-- A kit. -/
structure Kit where
  name : String
  path : Path
  description : String := ""
  patterns : List String
  /-- The cookbook that stands for the kit. -/
  default : Value := .null
  deriving Inhabited, Repr

namespace Kit

/-- The name of the file of a kit. -/
def fileName : String := "kit.yml"

/-- Where the cookbooks of a kit are if it does not say. -/
def usualCookbooks : List String := ["./cookbooks/*/cookbook.yml"]

/-- Where the recipes of a cookbook are if it does not say. -/
def usualRecipes : List String := ["./*/recipe.yml"]

/-- The entries of a file, none if it cannot be read as a mapping. -/
def entriesIn (t : Tree) (file : Path) : Except Failure Entries := do
  match t.read file with
  | .error _ => return []
  | .ok content =>
    let text ← content.decode.mapError Failure.badOctets
    match Yaml.read (Text.withLineFeeds text) with
    | .ok (.dict es) => return es
    | .ok _ | .error (.malformed _) => return []
    | .error f => throw (Failure.ofYaml .general f)

/-- The files that patterns find, in order, each once. -/
def filesBy (t : Tree) (base : Path) (patterns : List String) : Except Failure (List Path) :=
  patterns.foldlM
    (fun found pattern => do
      let relative := if Text.startsWith "./" pattern then Text.drop 2 pattern else pattern
      let paths ← (Glob.find t base relative).mapError Failure.ofGlob
      return found ++ (paths.filter fun p => t.isFile p && !found.contains p).eraseDups)
    []

/-- Patterns as they are written: one, or a list of some. -/
def patternsOf (v : Value) (usual : List String) : List String :=
  match v with
  | .str s => [s]
  | .list items => if items.isEmpty then usual else items.map (·.plain)
  | _ => usual

/-- A field as a text, if it says anything. -/
def textField (es : Entries) (name : String) (otherwise : String) : String :=
  let v := (Entries.field? es name).getD .null
  if v.truthy then v.plain else otherwise

/-- A default by its name. -/
def defaultField (es : Entries) (name : String) : Value :=
  match Entries.field? es "defaults" with
  | some (.dict ds) => (Entries.field? ds name).getD .null
  | _ => .null

end Kit

namespace Cookbook

/-- The cookbook of a cookbook file. -/
def load (t : Tree) (file : Path) : Except Failure Cookbook := do
  let es ← Kit.entriesIn t file
  return {
    name := Kit.textField es "name" file.parent.name
    path := file.parent
    description := Kit.textField es "description" ""
    patterns := Kit.patternsOf ((Entries.field? es "recipes").getD .null) Kit.usualRecipes
    default := Kit.defaultField es "recipe" }

/-- The recipe files of a cookbook by the names of their directories. -/
def recipes (t : Tree) (c : Cookbook) : Except Failure (Record Path) := do
  let files ← Kit.filesBy t c.path c.patterns
  return Record.ofList (files.map fun f => (f.parent.name, f))

/-- The recipe file of a name. -/
def recipe? (t : Tree) (c : Cookbook) (name : String) : Except Failure (Option Path) := do
  return (← c.recipes t).get? name

end Cookbook

namespace Kit

/-- The kit in a directory. -/
def load (t : Tree) (directory : Path) : Except Failure Kit := do
  let es ← entriesIn t (directory.child fileName)
  return {
    name := textField es "name" directory.name
    path := directory
    description := textField es "description" ""
    patterns := patternsOf ((Entries.field? es "cookbooks").getD .null) usualCookbooks
    default := defaultField es "cookbook" }

/-- The cookbooks of a kit by their names and those of their directories. -/
def cookbooks (t : Tree) (k : Kit) : Except Failure (Record Cookbook) := do
  let files ← filesBy t k.path k.patterns
  files.foldlM
    (fun found file => do
      let c ← Cookbook.load t file
      return (found.put c.name c).putNew file.parent.name c)
    []

/-- The cookbook of a name. -/
def cookbook? (t : Tree) (k : Kit) (name : String) : Except Failure (Option Cookbook) := do
  return (← k.cookbooks t).get? name

/-- What a value that names something finds: only a text names anything, and a collection cannot be
asked for. -/
def named {α : Type} (v : Value) (find : String → Except Failure (Option α)) :
    Except Failure (Option α) :=
  match v with
  | .str s => find s
  | .list _ => .error (.badType "unhashable type: 'list'")
  | .dict _ => .error (.badType "unhashable type: 'dict'")
  | _ => .ok none

/-- The kits in some directories by name; the first of a name counts. -/
def discover (t : Tree) (directories : List Path) : Except Failure (Record Kit) :=
  directories.foldlM
    (fun found directory => do
      let names := (t.directoriesIn directory).toOption.getD []
      names.foldlM
        (fun (found : Record Kit) name => do
          let kitDirectory := directory.child name
          if t.isFile (kitDirectory.child fileName) then
            let k ← load t kitDirectory
            return found.putNew k.name k
          else return found)
        found)
    []

/-- The names of the recipes of each cookbook that can be run, each cookbook once. -/
def listing (t : Tree) (k : Kit) : Except Failure (Record (List String)) := do
  let all ← k.cookbooks t
  let each := all.foldl
    (fun (kept : List Cookbook) c => if kept.any (·.path == c.2.path) then kept else kept ++ [c.2]) []
  each.foldlM
    (fun (found : Record (List String)) c => do
      let recipes ← c.recipes t
      let runnable := recipes.filter fun r => (Recipe.fileIn? t r.2.parent).isSome
      return found.put c.name (Tree.sorted (runnable.map (·.1))))
    []

end Kit

end Scaffold
