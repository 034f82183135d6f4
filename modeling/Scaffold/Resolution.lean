import Scaffold.Kit

/-!
# From words to recipes

Finds the recipe or group that the first words of a command name; the words behind it are left over.
A word that looks like a path names a file or directory.  Otherwise the words name a kit, a cookbook
and a recipe, where declared defaults may stand for the latter two; or else directories inside the
search directories.  The longest run of words that names a recipe wins, and a group counts only where
no recipe does.  A single word with slashes is taken apart and tried once more.
-/

namespace Scaffold

/-- What words name. -/
structure Resolved where
  isGroup : Bool
  path : Path
  consumed : List String
  remaining : List String
  kit : Option String := none
  cookbook : Option String := none
  recipe : Option String := none
  deriving DecidableEq, Inhabited, Repr

/-- What words name, as data. -/
def Resolved.report (r : Resolved) : Record Value :=
  [("kind", .str (if r.isGroup then "group" else "recipe")), ("is_group", .bool r.isGroup),
    ("full_path", .str r.path.toString), ("consumed", .texts r.consumed),
    ("remaining", .texts r.remaining), ("kit", .ofText? r.kit), ("cookbook", .ofText? r.cookbook),
    ("recipe", .ofText? r.recipe)]

/-- Where recipes are looked for. -/
structure Resolver where
  kits : Record Kit := []
  /-- Directories, seen from `here` unless they are absolute. -/
  searchDirectories : List Path := []
  here : Path
  deriving Inhabited, Repr

namespace Resolver

/-- Whether a word looks like a path. -/
def looksLikePath (token : String) : Bool :=
  (["./", "../", "/", ".\\", "..\\"].any fun p => Text.startsWith p token)
    || [".yml", ".yaml"].any fun e => Text.endsWith e token

/-- A word that is the name of a directory and nothing more. -/
def isPlain (token : String) : Bool :=
  token != "" && token != "." && token != ".." && !Text.contains "/" token
    && !Text.contains "\\" token

/-- The directories that are searched. -/
def directories (r : Resolver) : List Path := r.searchDirectories.map r.here.join

/-- The places that were searched, for a message. -/
def attempted (r : Resolver) : List String :=
  (Tree.sorted r.kits.keys).map ("kit:" ++ ·) ++ r.directories.map (·.toString)

/-! ## Walking into directories -/

/-- A recipe or group some words deep inside a directory. -/
structure Walk where
  isGroup : Bool
  path : Path
  depth : Nat
  deriving DecidableEq, Inhabited, Repr

/-- A directory some words below another. -/
def descend (base : Path) (words : List String) : Path := words.foldl Path.child base

/-- The numbers of words that name a directory, the greatest first. -/
def depths (words : List String) : List Nat :=
  ((List.range (words.takeWhile isPlain).length).map (· + 1)).reverse

/-- The deepest recipe that words lead to, or else the deepest group. -/
def walk? (t : Tree) (base : Path) (words : List String) : Option Walk :=
  let recipe := (depths words).findSome? fun d =>
    (Recipe.fileIn? t (descend base (words.take d))).map fun file => (⟨false, file, d⟩ : Walk)
  let group := (depths words).findSome? fun d =>
    let directory := descend base (words.take d)
    if Recipe.isNestedIn t directory then some (⟨true, directory, d⟩ : Walk) else none
  recipe.or group

/-- Whether a walk is better than another: a recipe before a group, then the deeper one. -/
def better (a b : Walk) : Bool :=
  if a.isGroup = b.isGroup then b.depth < a.depth else !a.isGroup

/-! ## The ways of resolving -/

/-- The first word as a path. -/
def direct? (t : Tree) (r : Resolver) (token : String) (rest : List String) : Option Resolved :=
  let path := r.here.child token
  if t.isFile path then
    some ⟨false, path, [token], rest, none, none, some (Recipe.nameOfFile path)⟩
  else
    match Recipe.fileIn? t path with
    | some file => some ⟨false, file, [token], rest, none, none, some path.name⟩
    | none =>
      if Recipe.isNestedIn t path then some ⟨true, path, [token], rest, none, none, none⟩ else none

/-- Words inside a cookbook, behind those consumed. -/
def inCookbook (t : Tree) (k : Kit) (c : Cookbook) (consumed rest : List String) :
    Except Failure (Option Resolved) := do
  let found := walk? t c.path rest
  match found with
  | some ⟨false, file, depth⟩ =>
    return some ⟨false, file, consumed ++ rest.take depth, rest.drop depth, k.name, c.name,
      some file.parent.name⟩
  | _ =>
    let declared ← match rest with
      | [] => pure none
      | token :: _ => pure ((← c.recipe? t token).map fun file =>
        (⟨false, file, consumed ++ rest.take 1, rest.drop 1, k.name, c.name, some token⟩ : Resolved))
    if declared.isSome then return declared
    let byDefault ← if c.default.truthy then Kit.named c.default (c.recipe? t) else pure none
    if let some file := byDefault then
      return some ⟨false, file, consumed, rest, k.name, c.name, some c.default.plain⟩
    match found with
    | some w =>
      return some ⟨true, w.path, consumed ++ rest.take w.depth, rest.drop w.depth, k.name, c.name,
        none⟩
    | none =>
      let recipes ← c.recipes t
      if !recipes.isEmpty || Recipe.isNestedIn t c.path then
        return some ⟨true, c.path, consumed, rest, k.name, c.name, none⟩
      return none

/-- Words behind the name of a kit. -/
def inKit (t : Tree) (k : Kit) (token : String) (rest : List String) :
    Except Failure (Option Resolved) := do
  let second ← match rest with
    | [] => pure none
    | word :: _ => k.cookbook? t word
  if let some c := second then
    return ← inCookbook t k c (token :: rest.take 1) (rest.drop 1)
  if let some w := (if rest.isEmpty then none else walk? t k.path rest) then
    return some ⟨w.isGroup, w.path, token :: rest.take w.depth, rest.drop w.depth, k.name, none, none⟩
  let byDefault ← if k.default.truthy then Kit.named k.default (k.cookbook? t) else pure none
  if let some c := byDefault then
    return ← inCookbook t k c [token] rest
  if rest.isEmpty && Recipe.isNestedIn t k.path then
    return some ⟨true, k.path, [token], [], k.name, none, none⟩
  return none

/-- The best walk in the search directories; of equally good ones the first. -/
def bestWalk? (t : Tree) (directories : List Path) (tokens : List String) : Option Walk :=
  (directories.filter t.isDirectory).foldl
    (fun best d => match best, walk? t d tokens with
      | none, w => w
      | some b, none => some b
      | some b, some w => some (if better w b then w else b))
    none

/-- Words inside the search directories. -/
def inDirectories? (t : Tree) (r : Resolver) (tokens : List String) : Option Resolved :=
  (bestWalk? t r.directories tokens).map fun w =>
    ⟨w.isGroup, w.path, tokens.take w.depth, tokens.drop w.depth, none, none,
      if w.isGroup then none else some w.path.parent.name⟩

/-- Words that are no path: in a kit, or else in the search directories. -/
def byName (t : Tree) (r : Resolver) (token : String) (rest : List String) :
    Except Failure (Option Resolved) := do
  let kit ← match r.kits.get? token with
    | some k => inKit t k token rest
    | none => pure none
  return kit.or (r.inDirectories? t (token :: rest))

/-- What words name, without taking a word apart. -/
def resolveOnce (t : Tree) (r : Resolver) : List String → Except Failure (Option Resolved)
  | [] => return none
  | token :: rest =>
    if looksLikePath token then return r.direct? t token rest else r.byName t token rest

/-- The parts of a word between slashes, if there are several. -/
def parts? : List String → Option (List String)
  | [token] =>
    let parts := (Text.split "/" token).filter (· != "")
    if 1 < parts.length && !looksLikePath token then some parts else none
  | _ => none

/-- What words name. -/
def resolve (t : Tree) (r : Resolver) (tokens : List String) : Except Failure (Option Resolved) := do
  match (← r.resolveOnce t tokens) with
  | some found => return some found
  | none =>
    match parts? tokens with
    | some parts => r.resolveOnce t parts
    | none => return none

end Resolver

end Scaffold
