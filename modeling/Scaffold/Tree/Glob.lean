import Scaffold.Tree

/-!
# Finding files by pattern

Patterns over paths: a component may hold stars, question marks and sets of characters, and a
component of two stars stands for any number of directories.  A pattern is relative; the paths it
finds lie below the directory it is applied to, each once.
-/

namespace Scaffold

namespace Glob

/-- Why a pattern is refused. -/
inductive Fault where
  | empty
  | notRelative
  | noComponent
  | onlySlash
  | badStars
  deriving DecidableEq, Inhabited, Repr

/-- The wording of a refusal. -/
def Fault.message : Fault → String
  | .empty => "Unacceptable pattern: ''"
  | .notRelative => "Non-relative patterns are unsupported"
  | .noComponent => "tuple index out of range"
  | .onlySlash => "nothing stands in front of the slash"
  | .badStars => "Invalid pattern: '**' can only be an entire path component"

/-! ## Names -/

/-- A part of the pattern of a name. -/
inductive Part where
  | star
  | any
  | set (negated : Bool) (ranges : List (Char × Char))
  | char (c : Char)
  deriving DecidableEq, Inhabited, Repr

/-- The ranges of a set written between brackets. -/
def rangesOf : List Char → List (Char × Char)
  | a :: '-' :: b :: s => (a, b) :: rangesOf s
  | a :: s => (a, a) :: rangesOf s
  | [] => []

/-- The members of a set behind its opening bracket, and the number of characters up to its
closing one; a bracket in the first place is a member. -/
def setBody? (s : List Char) : Option (List Char) :=
  let (lead, rest) := match s with
    | '!' :: ']' :: r => (['!', ']'], r)
    | '!' :: r => (['!'], r)
    | ']' :: r => ([']'], r)
    | r => ([], r)
  if rest.contains ']' then some (lead ++ rest.takeWhile (· != ']')) else none

/-- The parts of the pattern of a name; `skip` characters are still to be passed over. -/
def partsFrom : (skip : Nat) → List Char → List Part
  | _, [] => []
  | skip + 1, _ :: s => partsFrom skip s
  | 0, c :: s =>
    if c = '*' then .star :: partsFrom 0 s
    else if c = '?' then .any :: partsFrom 0 s
    else if c = '[' then
      match setBody? s with
      | some body =>
        let part := match body with
          | '!' :: r => Part.set true (rangesOf r)
          | r => Part.set false (rangesOf r)
        part :: partsFrom (body.length + 1) s
      | none => .char '[' :: partsFrom 0 s
    else .char c :: partsFrom 0 s

/-- Some tail of a name satisfies `p`. -/
def someTail (p : List Char → Bool) : List Char → Bool
  | [] => p []
  | c :: s => p (c :: s) || someTail p s

/-- Whether a name fits the parts of a pattern. -/
def fits : List Part → List Char → Bool
  | [], s => s.isEmpty
  | .star :: ps, s => someTail (fits ps) s
  | .any :: ps, s =>
    match s with
    | [] => false
    | _ :: r => fits ps r
  | .set negated ranges :: ps, s =>
    match s with
    | [] => false
    | c :: r => (ranges.any (fun x => x.1 ≤ c && c ≤ x.2) != negated) && fits ps r
  | .char d :: ps, s =>
    match s with
    | [] => false
    | c :: r => c == d && fits ps r

/-! ## Paths -/

/-- A component of a pattern. -/
inductive Component where
  | descend
  | name (s : String)
  | wild (parts : List Part)
  /-- The end of a pattern that finds directories only. -/
  | slash
  deriving DecidableEq, Inhabited, Repr

/-- Whether a component holds a sign of its own. -/
def isWild (s : String) : Bool := s.toList.any fun c => c == '*' || c == '?' || c == '['

/-- The component that a text writes. -/
def component (s : String) : Except Fault Component :=
  if s = "**" then .ok .descend
  else if Text.contains "**" s then .error .badStars
  else if isWild s then .ok (.wild (partsFrom 0 s.toList))
  else .ok (.name s)

/-- The components of a pattern. -/
def components (pattern : String) : Except Fault (List Component) := do
  if pattern = "" then throw .empty
  let p := Path.ofString pattern
  if p.isAbsolute then throw .notRelative
  let cs ← p.parts.mapM component
  match Text.endsWith "/" pattern, cs with
  | false, [] => throw .noComponent
  | true, [] => throw .onlySlash
  | false, cs => return cs
  | true, cs => return cs ++ [.slash]

/-- A directory and all directories below it, `fuel` levels deep. -/
def directoriesFrom (t : Tree) (p : Path) : (fuel : Nat) → List Path
  | 0 => [p]
  | fuel + 1 =>
    let names := (t.directoriesIn p).toOption.getD []
    p :: names.flatMap fun n => directoriesFrom t ⟨p.root, p.parts ++ [n]⟩ fuel

/-- The names in a directory. -/
def namesIn (t : Tree) (p : Path) : List (String × Entry) :=
  match t.locate p with
  | .ok place => t.children place
  | .error _ => []

/-- The paths that components find from a directory. -/
def select (t : Tree) : List Component → Path → List Path
  | [], p => [p]
  | .slash :: _, p => [p]
  | .descend :: rest, p => ((directoriesFrom t p t.depth).flatMap (select t rest)).eraseDups
  | .name s :: rest, p =>
    let q : Path := ⟨p.root, p.parts ++ [s]⟩
    if (if rest.isEmpty then t.present q else t.isDirectory q) then select t rest q else []
  | .wild parts :: rest, p =>
    (namesIn t p).flatMap fun (n, e) =>
      if (rest.isEmpty || e = .directory) && fits parts n.toList then
        select t rest ⟨p.root, p.parts ++ [n]⟩
      else []

/-- The paths that a pattern finds below a directory, in order. -/
def find (t : Tree) (base : Path) (pattern : String) : Except Fault (List Path) := do
  let cs ← components pattern
  if t.isDirectory base then return (select t cs base).mergeSort Path.le else return []

end Glob

end Scaffold
