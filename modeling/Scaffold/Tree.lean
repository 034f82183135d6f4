import Scaffold.Path
import Scaffold.Text.Utf8
import Scaffold.Value.Written

/-!
# Trees of files

A tree is a finite list of places with what is there: a file with its content, or a directory.  A
place is the list of names that leads to it from the root, which is a directory that is always there.
A tree holds no links, so a double point in a path leads back to the directory before it; that
directory has to be there all the same.

The operations are those of a file system, with its refusals.  A file is replaced in one move: the
text goes into a new file beside it, which then takes its name; the move may be made to fail at any of
its stages, and whatever happens no new file stays behind.
-/

namespace Scaffold

/-- The content of a file: text, or octets that are no text. -/
inductive Content where
  | text (s : String)
  | octets (bs : List UInt8)
  deriving DecidableEq, Inhabited, Repr

namespace Content

/-- The content that octets make. -/
def ofOctets (bs : List UInt8) : Content :=
  match Utf8.decode bs with
  | .ok s => .text s
  | .error _ => .octets bs

/-- The octets of a content. -/
def toOctets : Content → List UInt8
  | .text s => Utf8.encode s
  | .octets bs => bs

/-- The text of a content. -/
def decode : Content → Except Octets.Fault String
  | .text s => .ok s
  | .octets bs => Utf8.decode bs

end Content

/-- What a place holds. -/
inductive Entry where
  | file (content : Content)
  | directory
  deriving DecidableEq, Inhabited, Repr

/-- The names that lead from the root to a place. -/
abbrev Place := List String

/-- A tree of files. -/
structure Tree where
  entries : List (Place × Entry)
  deriving Inhabited, Repr

/-- Why a file operation is refused. -/
inductive FileFault where
  | notFound (path : Path)
  | exists (path : Path)
  | notDirectory (path : Path)
  | isDirectory (path : Path)
  | replacesDirectory (source target : Path)
  | stage (path : Path)
  deriving DecidableEq, Inhabited, Repr

namespace FileFault

/-- The wording of a refusal. -/
def message : FileFault → String
  | .notFound p => "[Errno 2] No such file or directory: " ++ quoted p.toString
  | .exists p => "[Errno 17] File exists: " ++ quoted p.toString
  | .notDirectory p => "[Errno 20] Not a directory: " ++ quoted p.toString
  | .isDirectory p => "[Errno 21] Is a directory: " ++ quoted p.toString
  | .replacesDirectory a b =>
    "[Errno 21] Is a directory: " ++ quoted a.toString ++ " -> " ++ quoted b.toString
  | .stage p => "[Errno 5] Input/output error: " ++ quoted p.toString

/-- The same refusal for a file under another name. -/
def renamed (p : Path) : FileFault → FileFault
  | .notFound _ => .notFound p
  | .exists _ => .exists p
  | .notDirectory _ => .notDirectory p
  | .isDirectory _ => .isDirectory p
  | .replacesDirectory _ b => .replacesDirectory p b
  | .stage _ => .stage p

end FileFault

namespace Tree

/-! ## Looking -/

/-- The tree with nothing below its root. -/
def bare : Tree := ⟨[]⟩

/-- What a place holds. -/
def at? (t : Tree) (p : Place) : Option Entry :=
  if p.isEmpty then some .directory else (t.entries.find? (·.1 == p)).map (·.2)

/-- A step along a path: into the directory above, or to the place under a name. -/
def step (t : Tree) (here : Place) (name : String) : Except (Path → FileFault) Place :=
  match t.at? here with
  | none => .error .notFound
  | some (.file _) => .error .notDirectory
  | some .directory => .ok (if name = ".." then here.dropLast else here ++ [name])

/-- The place that names lead to from `here`; it need not hold anything, all before it must be
directories. -/
def walk (t : Tree) (here : Place) : List String → Except (Path → FileFault) Place
  | [] => .ok here
  | name :: rest =>
    match t.step here name with
    | .error e => .error e
    | .ok next => walk t next rest

/-- The place of an absolute path. -/
def locate (t : Tree) (p : Path) : Except FileFault Place :=
  (t.walk [] p.parts).mapError fun e => e p

/-- What a path leads to. -/
def look (t : Tree) (p : Path) : Except FileFault Entry := do
  let place ← t.locate p
  match t.at? place with
  | some e => return e
  | none => throw (.notFound p)

/-- Whether a path leads anywhere. -/
def present (t : Tree) (p : Path) : Bool := (t.look p).toOption.isSome

/-- Whether a path leads to a file. -/
def isFile (t : Tree) (p : Path) : Bool :=
  match t.look p with
  | .ok (.file _) => true
  | _ => false

/-- Whether a path leads to a directory. -/
def isDirectory (t : Tree) (p : Path) : Bool :=
  match t.look p with
  | .ok .directory => true
  | _ => false

/-- The content of a file. -/
def read (t : Tree) (p : Path) : Except FileFault Content := do
  match (← t.look p) with
  | .file c => return c
  | .directory => throw (.isDirectory p)

/-- The names in a directory with what they hold. -/
def children (t : Tree) (here : Place) : List (String × Entry) :=
  t.entries.filterMap fun (p, e) =>
    if p.dropLast = here && !p.isEmpty then p.getLast?.map (·, e) else none

/-- Names in order of their code points. -/
def sorted (names : List String) : List String := names.mergeSort fun a b => decide (a ≤ b)

/-- The names of the directories in a directory, in order. -/
def directoriesIn (t : Tree) (p : Path) : Except FileFault (List String) := do
  let place ← t.locate p
  match t.at? place with
  | none => throw (.notFound p)
  | some (.file _) => throw (.notDirectory p)
  | some .directory =>
    return sorted <| (t.children place).filterMap fun (n, e) =>
      if e = .directory then some n else none

/-- The depth of the deepest place. -/
def depth (t : Tree) : Nat := t.entries.foldl (fun d e => max d e.1.length) 0

/-! ## Changing -/

/-- Puts an entry at a place. -/
def put (t : Tree) (p : Place) (e : Entry) : Tree :=
  if t.entries.any (·.1 == p) then
    ⟨t.entries.map fun x => if x.1 == p then (p, e) else x⟩
  else ⟨t.entries ++ [(p, e)]⟩

/-- Takes the entry at a place away. -/
def remove (t : Tree) (p : Place) : Tree := ⟨t.entries.filter (·.1 != p)⟩

/-- Makes one directory. -/
def makeDirectory (t : Tree) (p : Path) : Except FileFault Tree := do
  let place ← t.locate p
  match t.at? place with
  | some _ => throw (.exists p)
  | none => return t.put place .directory

/-- Makes a directory and the missing ones above it; one that is there already is fine.  `fuel`
bounds how far up to go. -/
def makeDirectories (t : Tree) (p : Path) : (fuel : Nat) → Except FileFault Tree
  | 0 => throw (.notFound p)
  | fuel + 1 =>
    match t.makeDirectory p with
    | .ok t' => .ok t'
    | .error (.notFound _) =>
      if p.parts.isEmpty then .error (.notFound p)
      else
        match t.makeDirectories p.parent fuel with
        | .error e => .error e
        | .ok t' =>
          match t'.makeDirectory p with
          | .ok t'' => .ok t''
          | .error e => if t'.isDirectory p then .ok t' else .error e
    | .error e => if t.isDirectory p then .ok t else .error e

/-- A stage of replacing a file. -/
inductive Stage where
  | create
  | write
  | flush
  | sync
  | rename
  deriving DecidableEq, Inhabited, Repr

/-- The path of the `n`-th new file that may stand beside `p`. -/
def nthBeside (p : Path) (n : Nat) : Path :=
  let folder := p.parent.normal
  ⟨folder.root, folder.parts ++ ["." ++ p.name ++ ".tmp." ++ Moment.pad 8 n]⟩

/-- The path of the new file beside `p`: the first one that is not there yet. -/
def besides (t : Tree) (p : Path) : Path :=
  let free (n : Nat) : Bool := (t.at? (nthBeside p n).parts).isNone
  nthBeside p (((List.range (t.entries.length + 1)).find? free).getD 0)

/-- Gives the new file the name of the old one. -/
def moveOver (t : Tree) (source target : Path) : Except FileFault Tree := do
  let a ← t.locate source
  let b ← t.locate target
  match t.at? a, t.at? b with
  | none, _ => throw (.notFound source)
  | some _, some .directory => throw (.replacesDirectory source target)
  | some e, _ => return (t.remove a).put b e

/-- Replaces a file by a text in one move, making the directories above it.  `failing` is a stage
that fails.  The outcome comes with the tree as it is left. -/
def replace (t : Tree) (p : Path) (text : String) (failing : Option Stage := none) :
    Except FileFault Unit × Tree :=
  match t.makeDirectories p.parent (p.parent.parts.length + 1) with
  | .error e => (.error e, t)
  | .ok t₁ =>
    let source := t₁.besides p
    match t₁.locate source with
    | .error e => (.error e, t₁)
    | .ok place =>
      if failing = some .create then (.error (.stage source), t₁)
      else if failing = some .write || failing = some .flush || failing = some .sync then
        (.error (.stage source), (t₁.put place (.file (.text ""))).remove place)
      else
        let t₂ := t₁.put place (.file (.text text))
        if failing = some .rename then (.error (.stage source), t₂.remove place)
        else
          match t₂.moveOver source p with
          | .ok t₃ => (.ok (), t₃)
          | .error e => (.error e, t₂.remove place)

/-- Puts a content into a file that is there or whose directory is. -/
def write (t : Tree) (p : Path) (c : Content) : Except FileFault Tree := do
  let place ← t.locate p
  match t.at? place with
  | some .directory => throw (.isDirectory p)
  | _ => return t.put place (.file c)

/-! ## What changed

Two lists lead from one tree to another: the places to clear, the deepest first, and the places to
fill, the highest first.  In this order every directory is empty when it is cleared and there when
something is put into it.
-/

/-- Entries in order of their depth. -/
def byDepth (es : List (Place × Entry)) : List (Place × Entry) :=
  es.mergeSort fun a b => decide (a.1.length ≤ b.1.length)

/-- Whether two entries are both files or both directories. -/
def alike : Entry → Entry → Bool
  | .file _, .file _ | .directory, .directory => true
  | _, _ => false

/-- The entries of `old` whose places hold nothing now, or nothing alike. -/
def lost (now old : Tree) : List (Place × Entry) :=
  (byDepth <| old.entries.filter fun e => !(now.at? e.1).any (alike e.2)).reverse

/-- The entries that are not what they were in `old`. -/
def fresh (now old : Tree) : List (Place × Entry) :=
  byDepth <| now.entries.filter fun e => old.at? e.1 != some e.2

end Tree

end Scaffold
