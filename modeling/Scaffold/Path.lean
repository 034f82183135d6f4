import Scaffold.Text.Search

/-!
# Paths

Names of files: a root, which is empty for a relative path, and the components below it.  Empty
components and single points are dropped when a path is read; double points stay, since they mean
something only in a tree.
-/

namespace Scaffold

/-- A path: its root (none, one slash, or exactly two) and its components. -/
structure Path where
  root : String
  parts : List String
  deriving DecidableEq, Inhabited, Repr

namespace Path

/-- The components of a text between its slashes. -/
def partsOf (s : String) : List String := (Text.split "/" s).filter fun p => p != "" && p != "."

/-- The path that a text writes. -/
def ofString (s : String) : Path :=
  let slashes := (s.toList.takeWhile (· == '/')).length
  ⟨if slashes = 0 then "" else if slashes = 2 then "//" else "/", partsOf s⟩

/-- Whether a path starts at a root. -/
def isAbsolute (p : Path) : Bool := p.root != ""

/-- The text of a path; the empty path is a point. -/
def toString (p : Path) : String :=
  if p.root = "" && p.parts.isEmpty then "." else p.root ++ Text.join "/" p.parts

instance : ToString Path := ⟨toString⟩

/-- The path `b` seen from `a`: `b` itself if it is absolute, and below `a` otherwise. -/
def join (a b : Path) : Path := if b.isAbsolute then b else ⟨a.root, a.parts ++ b.parts⟩

/-- A path given as a text, seen from `a`. -/
def child (a : Path) (s : String) : Path := a.join (ofString s)

/-- The path without its last component. -/
def parent (p : Path) : Path := ⟨p.root, p.parts.dropLast⟩

/-- The last component, or nothing. -/
def name (p : Path) : String := p.parts.getLast?.getD ""

/-- A name cut at its last point, unless that is its first or last character. -/
def splitName (name : String) : String × String :=
  let cs := name.toList
  let ext := cs.reverse.takeWhile (· != '.')
  let base := cs.take (cs.length - ext.length - 1)
  if ext.length = cs.length || ext.isEmpty || base.isEmpty then (name, "")
  else (String.ofList base, String.ofList ('.' :: ext.reverse))

/-- The last component without its extension. -/
def stem (p : Path) : String := (splitName p.name).1

/-- The extension of the last component, with its point. -/
def extension (p : Path) : String := (splitName p.name).2

/-- The path below `base`, if its components start with those of `base`. -/
def below? (p base : Path) : Option Path :=
  if p.root = base.root && base.parts.isPrefixOf p.parts then
    some ⟨"", p.parts.drop base.parts.length⟩
  else none

/-- Components with every double point taken back, in a tree without links. -/
def collapse (parts : List String) : List String :=
  (parts.foldl (fun acc p => if p = ".." then acc.drop 1 else p :: acc) []).reverse

/-- The path with double points taken back. -/
def normal (p : Path) : Path := ⟨p.root, collapse p.parts⟩

/-- The path from the one root that leads to the same place, in a tree without links.  A path that
starts at no root is taken from there. -/
def resolved (p : Path) : Path := ⟨"/", collapse p.parts⟩

/-- The order of lists of names: name by name, by code point. -/
def namesLe (a b : List String) : Bool := !List.lex b a fun x y => !decide (y ≤ x)

/-- The order of paths: component by component. -/
def le (a b : Path) : Bool := namesLe a.parts b.parts

end Path

end Scaffold
