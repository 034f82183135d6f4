import Scaffold.Shell.Utility.Basic
import Scaffold.Tree.Glob

/-!
# Utilities for files

Making, copying, moving, removing and listing files and directories, and taking paths apart.
-/

namespace Scaffold

namespace Shell

namespace Utility

/-- Prints the directory. -/
def pwd : Utility := fun _ m => (m.print (m.directory.toString ++ "\n")).done

/-- Prints the last component of a path, without an ending. -/
def basename : Utility := fun args m =>
  let p := Path.ofString (args.headD "")
  let name := if p.parts.isEmpty then p.toString else p.name
  let ending := (args.drop 1).headD ""
  let kept := if ending != "" && ending != name && Text.endsWith ending name then
    Text.take (name.length - ending.length) name else name
  (m.print (kept ++ "\n")).done

/-- Prints a path without its last component. -/
def dirname : Utility := fun args m =>
  (m.print ((Path.ofString (args.headD "")).parent.toString ++ "\n")).done

/-- Applies a file operation to each argument and complains where it is refused. -/
def eachFile (complaint : String → FileFault → String) (f : Tree → Path → Except FileFault Tree)
    (files : List String) (m : Machine) : Machine :=
  files.foldl (fun m a => match f m.tree (m.path a) with
    | .ok tree => { m with tree }
    | .error e => m.fail (complaint a e)) m.done

/-- Makes directories. -/
def mkdir : Utility := fun args m =>
  let (letters, files) := options args
  eachFile (fun a e => "mkdir: cannot create directory " ++ typeset a ++ ": " ++ reason e)
    (fun t p => if letters.contains 'p' then t.makeDirectories p (p.parts.length + 1)
      else t.makeDirectory p) files m

/-- The tree without a place and everything below it. -/
def without (t : Tree) (p : Place) : Tree := ⟨t.entries.filter fun e => !p.isPrefixOf e.1⟩

/-- Removes files, or with the option whole directories. -/
def rm : Utility := fun args m =>
  let (letters, files) := options args
  let forced := letters.contains 'f'
  let deep := letters.contains 'r' || letters.contains 'R'
  eachFile (fun a e => "rm: cannot remove " ++ quoted a ++ ": " ++ reason e)
    (fun t p => do
      match t.look p with
      | .error e => if forced then return t else throw e
      | .ok (.file _) => return t.remove (← t.locate p)
      | .ok .directory => if deep then return without t (← t.locate p) else throw (.isDirectory p))
    files m

/-- Removes empty directories. -/
def rmdir : Utility := fun args m =>
  args.foldl (fun m a =>
    match m.tree.look (m.path a), m.tree.locate (m.path a) with
    | .ok .directory, .ok place =>
      if (m.tree.children place).isEmpty then { m with tree := m.tree.remove place }
      else m.fail ("rmdir: failed to remove " ++ quoted a ++ ": Directory not empty")
    | .ok (.file _), _ => m.fail ("rmdir: failed to remove " ++ quoted a ++ ": Not a directory")
    | .error e, _ | _, .error e => m.fail ("rmdir: failed to remove " ++ quoted a ++ ": " ++ reason e))
    m.done

/-- Makes files that are missing. -/
def touch : Utility := fun args m =>
  eachFile (fun a e => "touch: cannot touch " ++ quoted a ++ ": " ++ reason e)
    (fun t p => do
      let place ← t.locate p
      if (t.at? place).isSome then return t else return t.put place (.file (.text "")))
    (options args).2 m

/-- Where a file goes: into a directory under its name, or to the place itself. -/
def targetOf (t : Tree) (source target : Path) : Path :=
  if t.isDirectory target then target.join ⟨"", [source.name]⟩ else target

/-- The entries at a place and below it, moved to another. -/
def moved (t : Tree) (source target : Place) : List (Place × Entry) :=
  t.entries.filterMap fun (p, e) =>
    if source.isPrefixOf p then some (target ++ p.drop source.length, e) else none

/-- Copies or moves one file. -/
def transfer (name : String) (keep deep : Bool) (source target : String) (m : Machine) : Machine :=
  let a := m.path source
  let b := targetOf m.tree a (m.path target)
  match m.tree.look a, m.tree.locate a, m.tree.locate b with
  | .error e, _, _ | _, .error e, _ =>
    m.fail (name ++ ": cannot stat " ++ quoted source ++ ": " ++ reason e)
  | _, _, .error e =>
    m.fail (name ++ ": cannot create regular file " ++ quoted target ++ ": " ++ reason e)
  | .ok entry, .ok here, .ok there =>
    if entry = .directory && keep && !deep then
      m.fail (name ++ ": -r not specified; omitting directory " ++ quoted source)
    else
      let copies := moved m.tree here there
      let t := if keep then m.tree else without m.tree here
      { m with tree := copies.foldl (fun t (p, e) => t.put p e) t }

/-- Copies or moves files to the last argument. -/
def transferAll (name : String) (keep : Bool) : Utility := fun args m =>
  let (letters, files) := options args
  let deep := letters.any fun c => c == 'r' || c == 'R' || c == 'a'
  match files.getLast? with
  | none => m.fail (name ++ ": missing file operand")
  | some target => files.dropLast.foldl (fun m f => transfer name keep deep f target m) m.done

/-- The names in a directory as they are listed. -/
def listed (m : Machine) (letters : List Char) (place : Place) : List String :=
  let has (c : Char) := letters.contains c
  let children := (m.tree.children place).filter fun e => has 'a' || has 'A' || !Text.startsWith "." e.1
  let mark (e : Entry) : String := if (has 'p' || has 'F') && e = .directory then "/" else ""
  let special := if has 'a' then ["." ++ mark .directory, ".." ++ mark .directory] else []
  special ++ (children.mergeSort fun a b => decide (a.1 ≤ b.1)).map fun e => e.1 ++ mark e.2

/-- Lists files, and what is in directories. -/
def ls : Utility := fun args m =>
  let (letters, files) := options args
  let files := Tree.sorted (if files.isEmpty then ["."] else files)
  let m := files.foldl (fun (m : Machine) f => match m.tree.look (m.path f) with
    | .error e => m.fail ("ls: cannot access " ++ quoted f ++ ": " ++ reason e) 2
    | .ok _ => m) m.done
  let isList (f : String) : Bool := m.tree.isDirectory (m.path f) && !letters.contains 'd'
  let plain := files.filter fun f => m.tree.present (m.path f) && !isList f
  let directories := files.filter isList
  let m := m.printOctets (unlines plain)
  (directories.zip (List.range directories.length)).foldl (fun (m : Machine) (f, i) =>
    let place := (m.tree.locate (m.path f)).toOption.getD []
    let gap := if i = 0 && plain.isEmpty then "" else "\n"
    let title := if files.length ≤ 1 then "" else gap ++ f ++ ":\n"
    (m.print title).printOctets (unlines (listed m letters place))) m

/-- What is asked of found files: a name, a kind, and how deep they are. -/
structure Wanted where
  name : Option String := none
  kind : Option String := none
  deepest : Option Nat := none
  highest : Nat := 0

/-- The conditions behind the directories of a search; those that are not known count as none. -/
def Wanted.read (w : Wanted) : List String → Wanted
  | "-name" :: n :: rest => read { w with name := some n } rest
  | "-type" :: k :: rest => read { w with kind := some k } rest
  | "-maxdepth" :: n :: rest => read { w with deepest := some (digitsAt n.toList).1 } rest
  | "-mindepth" :: n :: rest => read { w with highest := (digitsAt n.toList).1 } rest
  | _ :: rest => read w rest
  | [] => w

/-- Whether a file, some levels below where the search began, is wanted. -/
def Wanted.holds (w : Wanted) (depth : Nat) (name : String) (e : Entry) : Bool :=
  (w.name.all fun p => Glob.fits (Glob.partsFrom 0 p.toList) name.toList) &&
    (w.kind.all fun k => (k = "d") == (e = .directory)) &&
    (w.deepest.all fun n => depth ≤ n) && w.highest ≤ depth

/-- Prints the paths of files in directories and below them. -/
def find : Utility := fun args m =>
  let roots := args.takeWhile fun a => !Text.startsWith "-" a && a != "!" && a != "("
  let w := ({} : Wanted).read (args.drop roots.length)
  (if roots.isEmpty then ["."] else roots).foldl (fun (m : Machine) f =>
    match m.tree.look (m.path f), m.tree.locate (m.path f) with
    | .ok e, .ok place =>
      let below := (m.tree.entries.filter fun x => place.isPrefixOf x.1 && x.1 != place).mergeSort
        fun a b => Path.namesLe a.1 b.1
      let here := if w.holds 0 (Path.ofString f).name e then [f] else []
      m.printOctets <| unlines <| here ++ below.filterMap fun (p, e) =>
        if w.holds (p.length - place.length) (p.getLastD "") e then
          some (f ++ "/" ++ Text.join "/" (p.drop place.length)) else none
    | .error e, _ | _, .error e =>
      m.fail ("find: " ++ typeset f ++ ": " ++ reason e)) m.done

/-- Says nothing about the modes of files, which a tree does not keep. -/
def chmod : Utility := fun args m =>
  ((options args).2.drop 1).foldl (fun (m : Machine) f => match m.tree.look (m.path f) with
    | .ok _ => m
    | .error e => m.fail ("chmod: cannot access " ++ quoted f ++ ": " ++ reason e)) m.done

end Utility

end Shell

end Scaffold
