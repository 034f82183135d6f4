import Scaffold.Yaml.Token

/-!
# Nodes of a document

The tree that tokens make: scalars, sequences and mappings, each with its tag if it has one.  An
alias stands for the node that was anchored before.  An empty place where a node could be is a plain
scalar without text.  A fault behind the tokens counts only where all of them are read and one more is
needed.
-/

namespace Scaffold

namespace Yaml

/-- A node; a scalar also says whether its form may give it a meaning, as that of a plain one does. -/
inductive Node where
  | scalar (tag : Option String) (implicit : Bool) (text : String)
  | sequence (tag : Option String) (items : List Node)
  | mapping (tag : Option String) (entries : List (Node × Node))
  deriving Inhabited, Repr

namespace Node

/-- The node of an empty place. -/
def empty : Node := .scalar none true ""

/-- The state of reading nodes. -/
structure Source where
  rest : List Token
  /-- The fault behind the tokens. -/
  fault : Option Fault := none
  /-- The nodes anchored so far; one whose node is still being read has none. -/
  anchors : List (String × Option Node) := []
  handles : List (String × String) := []
  deriving Inhabited, Repr

/-- Reads nodes. -/
abbrev Builds := StateT Source (Except Fault)

/-- Refuses the document. -/
def refuse {α : Type} (what : String) : Builds α := throw (.malformed what)

/-- The token here. -/
def token : Builds Token := do
  let s ← get
  match s.rest, s.fault with
  | t :: _, _ => return t
  | [], some f => throw f
  | [], none => return .streamEnd

/-- Moves on by one token. -/
def skip : Builds Unit := modify fun s => { s with rest := s.rest.drop 1 }

/-- Whether the token here is one of some. -/
def sees (ts : List Token) : Builds Bool := return ts.contains (← token)

/-- Moves on if the token here is `t`. -/
def accept (t : Token) : Builds Bool := do
  if (← token) == t then
    skip
    return true
  return false

/-- The anchor here, if there is one. -/
def anchor? : Builds (Option String) := do
  match (← token) with
  | .anchor name => skip; return some name
  | _ => return none

/-- The tag here, if there is one, with its handle written out. -/
def tag? : Builds (Option String) := do
  match (← token) with
  | .tag none suffix => skip; return some suffix
  | .tag (some handle) suffix =>
    skip
    match (← get).handles.lookup handle with
    | some start => return some (start ++ suffix)
    | none => refuse "found undefined tag handle"
  | _ => return none

/-- An anchor and a tag in either order. -/
def properties : Builds (Option String × Option String) := do
  match (← anchor?) with
  | some a => return (some a, ← tag?)
  | none =>
    match (← tag?) with
    | some t => return (← anchor?, some t)
    | none => return (none, none)

/-- Opens an anchor, which must be a new one. -/
def openAnchor : Option String → Builds Unit
  | none => return
  | some name => do
    if ((← get).anchors.lookup name).isSome then refuse "found duplicate anchor"
    modify fun s => { s with anchors := (name, none) :: s.anchors }

/-- Gives an anchor its node. -/
def closeAnchor (name : Option String) (n : Node) : Builds Node := do
  if let some a := name then
    modify fun s => { s with anchors := s.anchors.map fun x => if x.1 == a then (a, some n) else x }
  return n

/-- A tag that says something: a lone exclamation mark says nothing. -/
def realTag (tag : Option String) : Option String := tag.filter (· != "!")

/-- The scalar of a token. -/
def ofScalar (tag : Option String) (text : String) (plain : Bool) : Node :=
  .scalar (realTag tag) ((plain && tag.isNone) || tag == some "!") text

mutual

/-- A node; `inBlock` allows block collections, `bare` a sequence at the indentation of its key. -/
def read : (fuel : Nat) → (inBlock bare : Bool) → Builds Node
  | 0, _, _ => refuse "the document is nested too deeply"
  | fuel + 1, inBlock, bare => do
    if let .alias name := (← token) then
      skip
      match (← get).anchors.lookup name with
      | some (some n) => return n
      | _ => refuse "found undefined alias"
    else
      let (anchor, tag) ← properties
      let t ← token
      let named := anchor.isSome || tag.isSome
      let content : Option (Builds Node) :=
        match t with
        | .blockEntry =>
          if bare then some (return .sequence (realTag tag) (← bareItems fuel)) else none
        | .scalar text plain => some (do skip; return ofScalar tag text plain)
        | .flowSequenceStart => some (do skip; return .sequence (realTag tag) (← flowItems fuel true))
        | .flowMappingStart => some (do skip; return .mapping (realTag tag) (← flowEntries fuel true))
        | .blockSequenceStart =>
          if inBlock then some (do skip; return .sequence (realTag tag) (← blockItems fuel)) else none
        | .blockMappingStart =>
          if inBlock then some (do skip; return .mapping (realTag tag) (← blockEntries fuel)) else none
        | _ => none
      match content with
      | some r => do
        openAnchor anchor
        let n ← r
        closeAnchor anchor n
      | none => do
        if !named then refuse "expected the node content"
        openAnchor anchor
        closeAnchor anchor (.scalar (realTag tag) (realTag tag).isNone "")

/-- A node, or an empty place in front of one of some tokens. -/
def readBefore : (fuel : Nat) → (ends : List Token) → (inBlock bare : Bool) → Builds Node
  | 0, _, _, _ => refuse "the document is nested too deeply"
  | fuel + 1, ends, inBlock, bare => do
    if (← sees ends) then return empty
    read fuel inBlock bare

/-- The items of a block sequence. -/
def blockItems : (fuel : Nat) → Builds (List Node)
  | 0 => refuse "the document is nested too deeply"
  | fuel + 1 => do
    if (← accept .blockEntry) then
      let n ← readBefore fuel [.blockEntry, .blockEnd] true false
      return n :: (← blockItems fuel)
    if !(← accept .blockEnd) then refuse "expected <block end>"
    return []

/-- The items of a sequence at the indentation of its key. -/
def bareItems : (fuel : Nat) → Builds (List Node)
  | 0 => refuse "the document is nested too deeply"
  | fuel + 1 => do
    if !(← accept .blockEntry) then return []
    let n ← readBefore fuel [.blockEntry, .key, .value, .blockEnd] true false
    return n :: (← bareItems fuel)

/-- The entries of a block mapping. -/
def blockEntries : (fuel : Nat) → Builds (List (Node × Node))
  | 0 => refuse "the document is nested too deeply"
  | fuel + 1 => do
    let ends : List Token := [.key, .value, .blockEnd]
    if (← accept .key) then
      let k ← readBefore fuel ends true true
      let v ← if (← accept .value) then readBefore fuel ends true true else pure empty
      return (k, v) :: (← blockEntries fuel)
    if !(← accept .blockEnd) then refuse "expected <block end>"
    return []

/-- The items of a flow sequence, each of which may be an entry that stands for a mapping. -/
def flowItems : (fuel : Nat) → (first : Bool) → Builds (List Node)
  | 0, _ => refuse "the document is nested too deeply"
  | fuel + 1, first => do
    if (← accept .flowSequenceEnd) then return []
    if !first then
      if !(← accept .flowEntry) then refuse "expected ',' or ']'"
    if (← accept .key) then
      let k ← readBefore fuel [.value, .flowEntry, .flowSequenceEnd] false false
      let v ←
        if (← accept .value) then readBefore fuel [.flowEntry, .flowSequenceEnd] false false
        else pure empty
      return .mapping none [(k, v)] :: (← flowItems fuel false)
    if (← accept .flowSequenceEnd) then return []
    let n ← read fuel false false
    return n :: (← flowItems fuel false)

/-- The entries of a flow mapping. -/
def flowEntries : (fuel : Nat) → (first : Bool) → Builds (List (Node × Node))
  | 0, _ => refuse "the document is nested too deeply"
  | fuel + 1, first => do
    if (← accept .flowMappingEnd) then return []
    if !first then
      if !(← accept .flowEntry) then refuse "expected ',' or a closing brace"
    if (← accept .key) then
      let k ← readBefore fuel [.value, .flowEntry, .flowMappingEnd] false false
      let v ←
        if (← accept .value) then readBefore fuel [.flowEntry, .flowMappingEnd] false false
        else pure empty
      return (k, v) :: (← flowEntries fuel false)
    if (← accept .flowMappingEnd) then return []
    let k ← read fuel false false
    return (k, empty) :: (← flowEntries fuel false)

end

/-! ## Documents -/

/-- The handles that every document has. -/
def commonHandles : List (String × String) := [("!", "!"), ("!!", "tag:yaml.org,2002:")]

/-- The directives in front of a document. -/
def directives : (fuel : Nat) → (versioned : Bool) → (handles : List (String × String)) →
    Builds (List (String × String))
  | 0, _, handles => return handles
  | fuel + 1, versioned, handles => do
    match (← token) with
    | .directive (.version major _) =>
      skip
      if versioned then refuse "found duplicate YAML directive"
      if major != 1 then refuse "found incompatible YAML document (version 1.* is required)"
      directives fuel true handles
    | .directive (.tag handle start) =>
      skip
      if (handles.lookup handle).isSome then refuse "duplicate tag handle"
      directives fuel versioned (handles ++ [(handle, start)])
    | .directive .other => skip; directives fuel versioned handles
    | _ => return handles

/-- Passes over the ends of documents. -/
def skipEnds : (fuel : Nat) → Builds Unit
  | 0 => return
  | fuel + 1 => do if (← accept .documentEnd) then skipEnds fuel

/-- The content of a document behind its first line. -/
def content (fuel : Nat) : Builds Node := do
  match (← token) with
  | .directive _ | .documentStart | .documentEnd | .streamEnd => return empty
  | _ => read fuel true false

/-- The one document there is, or none. -/
def document : Builds (Option Node) := do
  let fuel := 4 * ((← get).rest.length + 1)
  let explicit ← match (← token) with
    | .directive _ | .documentStart | .streamEnd => pure true
    | _ => pure false
  let node ←
    if explicit then do
      skipEnds fuel
      if (← token) == .streamEnd then pure none
      else
        let handles ← directives fuel false []
        if !(← accept .documentStart) then refuse "expected '<document start>'"
        modify fun s => { s with handles := handles ++ commonHandles }
        pure (some (← content fuel))
    else do
      modify fun s => { s with handles := commonHandles }
      pure (some (← read fuel true false))
  if node.isSome then
    let _ ← accept .documentEnd
    skipEnds fuel
    if (← token) != .streamEnd then
      let _ ← directives fuel false []
      refuse "expected a single document in the stream"
  return node

/-- The node of a document. -/
def ofTokens (ts : Tokens) : Except Fault (Option Node) :=
  (document.run { rest := ts.read, fault := ts.fault }).map (·.1)

end Node

end Yaml

end Scaffold
