import Scaffold.Budget
import Scaffold.Failure
import Scaffold.Json.Writer
import Scaffold.Prompt
import Scaffold.Text.Blank

/-!
# Context

What a prompt is given to know about the project: well-known configuration files, the output of
earlier steps, listed files, and files that patterns find, in this order.  Sections
are packed into a budget of tokens; where one does not fit, the step's policy says whether it is cut,
left out, or a failure.  Nothing is looked at behind a section that was cut.
-/

namespace Scaffold

/-- Sections, and what became of those that did not fit. -/
structure Context where
  sections : List String := []
  tokens : Nat := 0
  truncated : List String := []
  skipped : List String := []
  deriving DecidableEq, Inhabited, Repr

namespace Context

/-- The files that say how a project is configured. -/
def configFiles : List String :=
  ["package.json", "pyproject.toml", "tsconfig.json", "kitgen.config.json"]

/-- What stands at the end of a section that was cut. -/
def cutMark : String := "\n... (truncated)"

/-- Where context comes from. -/
structure Scene where
  tree : Tree
  project : Path
  /-- What earlier steps put out. -/
  outputs : Record Value := []
  values : Record Value := []
  deriving Inhabited, Repr

/-- A content with what it is the content of. -/
structure Candidate where
  label : String
  content : String
  deriving DecidableEq, Inhabited, Repr

/-- A section: a heading and the fenced content. -/
def sectionOf (c : Candidate) : String :=
  let language := Text.drop 1 (Path.ofString c.label).extension
  Prompt.block ["#### " ++ c.label, Prompt.fence ++ language,
    String.ofList (Text.trimRight c.content.toList), Prompt.fence]

/-! ## Packing -/

/-- The state of packing; `full` says that nothing more is looked at. -/
structure Packing where
  context : Context := {}
  full : Bool := false
  deriving DecidableEq, Inhabited, Repr

/-- Adds what fits of a candidate whose section does not fit. -/
def packCut (limit : Nat) (k : Context) (c : Candidate) : Packing :=
  let room := (limit - k.tokens) * 4
  let overhead := cutMark.length + c.label.length + 20
  if overhead < room then
    let cut := sectionOf { c with content := Text.take (room - overhead) c.content ++ cutMark }
    ⟨{ k with sections := k.sections ++ [cut], tokens := limit
              truncated := k.truncated ++ [c.label] }, true⟩
  else ⟨{ k with skipped := k.skipped ++ [c.label] }, true⟩

/-- The complaint that a section does not fit. -/
def tooLarge (limit : Nat) (k : Context) (c : Candidate) (cost : Nat) : Failure :=
  .budget ("Context '" ++ c.label ++ "' needs ~" ++ toString cost ++ " tokens but only " ++
    toString (limit - k.tokens) ++ " of " ++ toString limit ++ " remain")

/-- Adds a candidate. -/
def pack (limit : Nat) (policy : Overflow) (p : Packing) (c : Candidate) : Except Failure Packing :=
  let text := sectionOf c
  let cost := estimateTokens text
  let k := p.context
  if p.full then .ok p
  else if k.tokens + cost ≤ limit then
    .ok ⟨{ k with sections := k.sections ++ [text], tokens := k.tokens + cost }, false⟩
  else
    match policy with
    | .error => .error (tooLarge limit k c cost)
    | .skip => .ok ⟨{ k with skipped := k.skipped ++ [c.label] }, false⟩
    | .truncate => .ok (packCut limit k c)

/-! ## Sources -/

/-- A file as a text; none where it cannot be read as one. -/
def read? (t : Tree) (p : Path) : Option String :=
  ((t.read p).toOption.bind fun c => c.decode.toOption).map Text.withLineFeeds

/-- How a file is called: by its place in the project, or by its whole path outside. -/
def labelOf (s : Scene) (p : Path) : String := ((p.below? s.project.resolved).getD p).toString

/-- The candidate of a file, if there is such a file and it is a text. -/
def ofFile? (s : Scene) (p : Path) : Option Candidate :=
  if s.tree.isFile p then (read? s.tree p).map fun text => ⟨labelOf s p, text⟩ else none

/-- The output of a step as a text, where a point in time that is no key is written as its text. -/
def outputText? : Value → Except Failure (Option String)
  | .null => .ok none
  | .str text => .ok (some text)
  | v =>
    match v.unwritable.find? (·.isKey) with
    | some cause => .error (.badType cause.message)
    | none => .ok (some (Json.indented v))

/-- A place that candidates come from. -/
inductive Source where
  | config (name : String)
  | output (step : String)
  | file (pattern : String)
  | files (pattern : String)
  deriving DecidableEq, Inhabited, Repr

/-- The sources of a specification in order. -/
def sources (spec : ContextSpec) : List Source :=
  (if spec.projectConfig then configFiles.map .config else []) ++ spec.fromSteps.map .output ++
    spec.files.map .file ++ spec.globs.map .files

/-- A text with its placeholders filled in. -/
def filledIn (s : Scene) (text : String) : Except Failure String :=
  (Template.render text s.values).mapError Failure.ofTemplate

/-- The candidates of a source, and the files seen after it.  A configuration file counts as seen
only where it is listed or found as well. -/
def candidates (s : Scene) (seen : List Path) : Source → Except Failure (List Candidate × List Path)
  | .config name =>
    let p := s.project.child name
    let text := if s.tree.isFile p then read? s.tree p else none
    .ok ((text.map (Candidate.mk name)).toList, seen)
  | .output step => do
    let text ← outputText? ((s.outputs.get? step).getD .null)
    .ok ((text.map (Candidate.mk ("output of step " ++ step))).toList, seen)
  | .file pattern => do
    let p := (s.project.child (← filledIn s pattern)).resolved
    if seen.contains p then return ([], seen)
    return ((ofFile? s p).toList, p :: seen)
  | .files pattern => do
    let found ← (Glob.find s.tree s.project (← filledIn s pattern)).mapError Failure.ofGlob
    let fresh := (((found.filter s.tree.isFile).map (·.resolved)).eraseDups).filter (!seen.contains ·)
    return (fresh.filterMap (ofFile? s), fresh ++ seen)

/-- Packs the candidates of a source. -/
def packSource (s : Scene) (limit : Nat) (policy : Overflow) (acc : Packing × List Path)
    (source : Source) : Except Failure (Packing × List Path) := do
  if acc.1.full then return acc
  let (found, seen) ← candidates s acc.2 source
  return (← found.foldlM (pack limit policy) acc.1, seen)

/-- The context that a specification asks for. -/
def gather (spec : ContextSpec) (s : Scene) : Except Failure Context := do
  let (p, _) ← (sources spec).foldlM (packSource s spec.maxTokens.toNat spec.overflow) ({}, [])
  return p.context

end Context

end Scaffold
