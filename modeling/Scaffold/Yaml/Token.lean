import Scaffold.Yaml.Scalar

/-!
# Tokens of a document

The signs and scalars that a document is made of.  Indentation becomes tokens of its own that open
and close block collections.

A mapping key need not be marked: whether something is a key shows only at the colon behind it.  So
every place where a key may start is kept, one for each level of flow collections; when the colon
comes, the token that marks the key goes in at that place.  Such a place is given up at the end of
its line, or after 1024 characters.  In a block, what stands at the indentation of a mapping must turn
out to be a key.
-/

namespace Scaffold

namespace Yaml

/-- A directive in front of a document. -/
inductive Directive where
  | version (major minor : Nat)
  | tag (handle start : String)
  | other
  deriving DecidableEq, Inhabited, Repr

/-- A token. -/
inductive Token where
  | directive (d : Directive)
  | documentStart
  | documentEnd
  | streamEnd
  | blockSequenceStart
  | blockMappingStart
  | blockEnd
  | flowSequenceStart
  | flowSequenceEnd
  | flowMappingStart
  | flowMappingEnd
  | flowEntry
  | blockEntry
  | key
  | value
  | alias (name : String)
  | anchor (name : String)
  | tag (handle : Option String) (suffix : String)
  | scalar (text : String) (plain : Bool)
  deriving DecidableEq, Inhabited, Repr

/-- A place where a key may have started. -/
structure KeyPlace where
  /-- The number of the token there. -/
  token : Nat
  required : Bool
  index : Nat
  line : Nat
  column : Nat
  deriving DecidableEq, Inhabited, Repr

/-- The state of reading tokens. -/
structure Scan where
  cursor : Cursor
  tokens : Array Token := #[]
  /-- How many flow collections are open. -/
  depth : Nat := 0
  indent : Int := -1
  indents : List Int := []
  keyAllowed : Bool := true
  /-- The places where keys may have started, by the number of open flow collections. -/
  keys : List (Nat × KeyPlace) := []
  deriving Inhabited, Repr

/-- Reads tokens. -/
abbrev Scans := StateT Scan (Except Fault)

namespace Scan

/-- Refuses the document. -/
def refuse {α : Type} (what : String) : Scans α := throw (.malformed what)

/-- Reads with the cursor alone. -/
def reads {α : Type} (r : Reads α) : Scans α := do
  let s ← get
  match r.run s.cursor with
  | .ok (a, c) => set { s with cursor := c }; return a
  | .error e => throw e

/-- Adds a token. -/
def push (t : Token) : Scans Unit := modify fun s => { s with tokens := s.tokens.push t }

/-- Moves on and adds a token. -/
def mark (width : Nat) (t : Token) : Scans Unit := do
  reads (advance width)
  push t

/-- Says whether a key may start behind what was read. -/
def allowKey (b : Bool) : Scans Unit := modify fun s => { s with keyAllowed := b }

/-! ## Places of keys -/

/-- Whether a place is too far back to be that of a key. -/
def isStale (c : Cursor) (k : KeyPlace) : Bool := k.line != c.line || 1024 < c.index - k.index

/-- Gives up places that are too far back. -/
def dropStale : Scans Unit := do
  let s ← get
  if s.keys.any fun k => isStale s.cursor k.2 && k.2.required then refuse "could not find expected ':'"
  set { s with keys := s.keys.filter fun k => !isStale s.cursor k.2 }

/-- Gives up the place at the present level. -/
def dropKey : Scans Unit := do
  let s ← get
  if (s.keys.lookup s.depth).any (·.required) then refuse "could not find expected ':'"
  set { s with keys := s.keys.filter (·.1 != s.depth) }

/-- Keeps this place, if a key may start here. -/
def keepKey : Scans Unit := do
  let s ← get
  if s.keyAllowed then
    dropKey
    let c := s.cursor
    let place : KeyPlace :=
      ⟨s.tokens.size, s.depth == 0 && s.indent == (c.column : Int), c.index, c.line, c.column⟩
    modify fun s => { s with keys := s.keys ++ [(s.depth, place)] }

/-! ## Indentation -/

/-- Closes the block collections that are indented further than `column`. -/
def unwind (column : Int) : Scans Unit := do
  let s ← get
  if s.depth == 0 then
    let rec close (indent : Int) (closed : Nat) : List Int → Int × List Int × Nat
      | [] => (indent, [], closed)
      | i :: is => if indent > column then close i (closed + 1) is else (indent, i :: is, closed)
    let (indent, indents, closed) := close s.indent 0 s.indents
    set { s with indent, indents, tokens := s.tokens ++ (List.replicate closed Token.blockEnd).toArray }

/-- Opens a block collection at `column`, unless one that is indented as far is open. -/
def indentTo (column : Nat) : Scans Bool := do
  let s ← get
  if s.indent < (column : Int) then
    set { s with indents := s.indent :: s.indents, indent := (column : Int) }
    return true
  return false

/-- Opens a block collection here. -/
def openBlock (t : Token) (complaint : String) : Scans Unit := do
  let s ← get
  if s.depth == 0 then
    if !s.keyAllowed then refuse complaint
    if (← indentTo s.cursor.column) then push t

/-! ## Names, tags and directives -/

/-- The name of an anchor or alias, behind its sign. -/
def anchorName : Reads String := do
  advance 1
  let name ← takeWhile isNameChar
  if name.isEmpty then Yaml.refuse "expected alphabetic or numeric character"
  let after ← peek
  if !(separates after || after.any fun c => "?:,]%@".toList.contains c || c == '}' || c.toNat == 96)
  then Yaml.refuse "expected alphabetic or numeric character"
  return String.ofList name

/-- A character that may stand in a tag as it is. -/
def isTagChar (c : Char) : Bool :=
  (isNameChar c) || "-;/?:@&=+$,_.!~*'()[]".toList.contains c

/-- The octets of a run of percent escapes. -/
def percentOctets : (fuel : Nat) → Reads (List UInt8)
  | 0 => return []
  | fuel + 1 => do
    if (← peek) != some '%' then return []
    advance 1
    match (← get).rest with
    | a :: b :: _ =>
      match Text.hexValue? a, Text.hexValue? b with
      | some x, some y =>
        advance 2
        return UInt8.ofNat (x * 16 + y) :: (← percentOctets fuel)
      | _, _ => Yaml.refuse "expected URI escape sequence of 2 hexadecimal numbers"
    | _ => Yaml.refuse "expected URI escape sequence of 2 hexadecimal numbers"

/-- The text of a tag. -/
def tagText : (fuel : Nat) → Reads (List Char)
  | 0 => return []
  | fuel + 1 => do
    let run ← takeWhile isTagChar
    if (← peek) == some '%' then
      let octets ← percentOctets ((← get).rest.length + 1)
      match String.fromUTF8? (ByteArray.mk octets.toArray) with
      | some s => return run ++ s.toList ++ (← tagText fuel)
      | none => Yaml.refuse "expected the octets of a text"
    else return run

/-- The text of a tag, which must not be empty. -/
def tagSuffix : Reads String := do
  let s ← tagText ((← get).rest.length + 1)
  if s.isEmpty then Yaml.refuse "expected URI"
  return String.ofList s

/-- A handle between exclamation marks, or a single one. -/
def tagHandle : Reads String := do
  let rest := (← get).rest.drop 1
  if (← peek) != some '!' then Yaml.refuse "expected '!'"
  if rest.head? == some ' ' then
    advance 1
    return "!"
  let name := rest.takeWhile isNameChar
  if rest[name.length]? != some '!' then Yaml.refuse "expected '!'"
  advance (name.length + 2)
  return String.ofList ('!' :: name ++ ['!'])

/-- Whether a tag names a handle: a further exclamation mark stands in it. -/
def namesHandle (rest : List Char) : Bool :=
  (rest.takeWhile fun c => !(isBreak c || c == ' ')).contains '!'

/-- A tag. -/
def readTag : Reads Token := do
  let rest := (← get).rest.drop 1
  let (handle, suffix) ←
    match rest.head? with
    | some '<' => do
      advance 2
      let s ← tagSuffix
      if (← peek) != some '>' then Yaml.refuse "expected '>'"
      advance 1
      pure (none, s)
    | c => do
      if separates c then
        advance 1
        pure (none, "!")
      else
        let handle ← if namesHandle rest then tagHandle else (do advance 1; pure "!")
        let s ← tagSuffix
        pure (some handle, s)
  if !endsLineOrSpace (← peek) then Yaml.refuse "expected ' '"
  return .tag handle suffix

/-- A number of a version. -/
def versionNumber : Reads Nat := do
  let ds ← takeWhile Text.isAsciiDigit
  if ds.isEmpty then Yaml.refuse "expected a digit"
  return Numeral.natOfDigits ds

/-- A directive. -/
def readDirective : Reads Directive := do
  advance 1
  let name ← takeWhile isNameChar
  if name.isEmpty || !endsLineOrSpace (← peek) then
    Yaml.refuse "expected alphabetic or numeric character"
  let d ←
    match String.ofList name with
    | "YAML" => do
      let _ ← takeWhile (· == ' ')
      let major ← versionNumber
      if (← peek) != some '.' then Yaml.refuse "expected a digit or '.'"
      advance 1
      let minor ← versionNumber
      if !endsLineOrSpace (← peek) then Yaml.refuse "expected a digit or ' '"
      pure (Directive.version major minor)
    | "TAG" => do
      let _ ← takeWhile (· == ' ')
      let handle ← tagHandle
      if (← peek) != some ' ' then Yaml.refuse "expected ' '"
      let _ ← takeWhile (· == ' ')
      let start ← tagSuffix
      if !endsLineOrSpace (← peek) then Yaml.refuse "expected ' '"
      pure (Directive.tag handle start)
    | _ => do
      let _ ← takeWhile fun c => !isBreak c
      pure Directive.other
  restOfLine
  return d

/-! ## Tokens -/

/-- Passes over spaces, comments and breaks; a key may start on a new line of a block. -/
def toNextToken : (fuel : Nat) → Scans Unit
  | 0 => return
  | fuel + 1 => do
    reads do
      let _ ← takeWhile (· == ' ')
      if (← peek) == some '#' then
        let _ ← takeWhile fun c => !isBreak c
    let b ← reads lineBreak
    if !b.isEmpty then
      modify fun s => { s with keyAllowed := s.keyAllowed || s.depth == 0 }
      toNextToken fuel

/-- The line that starts or ends a document. -/
def documentLine (t : Token) : Scans Unit := do
  unwind (-1)
  dropKey
  allowKey false
  mark 3 t

/-- The start of a flow collection, which may itself start a key. -/
def openFlow (t : Token) : Scans Unit := do
  keepKey
  modify fun s => { s with depth := s.depth + 1 }
  allowKey true
  mark 1 t

/-- The end of a flow collection. -/
def closeFlow (t : Token) : Scans Unit := do
  dropKey
  if (← get).depth == 0 then refuse "found the end of a flow collection that is not open"
  modify fun s => { s with depth := s.depth - 1 }
  allowKey false
  mark 1 t

/-- The sign of a key. -/
def keySign : Scans Unit := do
  openBlock .blockMappingStart "mapping keys are not allowed here"
  allowKey ((← get).depth == 0)
  dropKey
  mark 1 .key

/-- The sign of a value: a key that started before it is marked now. -/
def valueSign : Scans Unit := do
  let s ← get
  match s.keys.lookup s.depth with
  | some k =>
    set { s with
      keys := s.keys.filter (·.1 != s.depth)
      tokens := s.tokens.insertIdxIfInBounds k.token .key }
    if s.depth == 0 then
      if (← indentTo k.column) then
        modify fun s => { s with tokens := s.tokens.insertIdxIfInBounds k.token .blockMappingStart }
    allowKey false
  | none =>
    openBlock .blockMappingStart "mapping values are not allowed here"
    allowKey ((← get).depth == 0)
    dropKey
  mark 1 .value

/-- A token that may be a key by itself. -/
def node (r : Reads Token) : Scans Unit := do
  keepKey
  allowKey false
  push (← reads r)

/-- A block scalar. -/
def block (folded : Bool) : Scans Unit := do
  allowKey true
  dropKey
  let outer := (← get).indent
  push (.scalar (← reads (blockScalar folded outer)) false)

/-- A plain scalar. -/
def plainScalar : Scans Unit := do
  keepKey
  allowKey false
  let s ← get
  let (text, broken) ← reads (plain (s.depth != 0) s.indent)
  allowKey broken
  push (.scalar text true)

/-- Whether a plain scalar may start with `c` in front of `after`. -/
def startsPlain (inFlow : Bool) (c : Char) (after : Option Char) : Bool :=
  let sign := isBreak c || isSpace c || isFlowSign c || c.toNat == 96 ||
    "-?:#&*!|>'\"%@".toList.contains c
  !sign || (!separates after && (c == '-' || (!inFlow && (c == '?' || c == ':'))))

/-- Reads one more token; whether the document goes on. -/
def step : Scans Bool := do
  toNextToken ((← get).cursor.rest.length + 1)
  dropStale
  unwind (← get).cursor.column
  let s ← get
  let inFlow := s.depth != 0
  let c := s.cursor
  match c.rest with
  | [] =>
    unwind (-1)
    dropKey
    push .streamEnd
    return false
  | ch :: rest =>
    let after := rest.head?
    let alone := separates after
    if ch == '%' && c.column == 0 then
      unwind (-1)
      dropKey
      allowKey false
      push (.directive (← reads readDirective))
    else if c.column == 0 && c.atSeparator then
      documentLine (if ch == '-' then .documentStart else .documentEnd)
    else if ch == '[' then openFlow .flowSequenceStart
    else if ch == '{' then openFlow .flowMappingStart
    else if ch == ']' then closeFlow .flowSequenceEnd
    else if ch == '}' then closeFlow .flowMappingEnd
    else if ch == ',' then
      allowKey true
      dropKey
      mark 1 .flowEntry
    else if ch == '-' && alone then
      openBlock .blockSequenceStart "sequence entries are not allowed here"
      allowKey true
      dropKey
      mark 1 .blockEntry
    else if ch == '?' && (inFlow || alone) then keySign
    else if ch == ':' && (inFlow || alone) then valueSign
    else if ch == '*' then node (return .alias (← anchorName))
    else if ch == '&' then node (return .anchor (← anchorName))
    else if ch == '!' then node readTag
    else if ch == '|' && !inFlow then block false
    else if ch == '>' && !inFlow then block true
    else if ch == '\'' || ch == '"' then node (return .scalar (← quotedScalar ch) false)
    else if startsPlain inFlow ch after then plainScalar
    else refuse "found character that cannot start any token"
    return true

/-- The tokens in front of the first that may still turn out to be a key. -/
def settled (s : Scan) : List Token :=
  let places := (s.keys.filter fun k => !isStale s.cursor k.2).map (·.2.token)
  s.tokens.toList.take (places.foldl min s.tokens.size)

end Scan

/-- The tokens of a document, and the fault behind them if the document cannot be read to its end. -/
structure Tokens where
  read : List Token
  fault : Option Fault := none
  deriving Inhabited, Repr

/-- Reads tokens to the end, or up to a fault; only settled tokens stand in front of that. -/
def Scan.all : (fuel : Nat) → Scan → Tokens
  | 0, s => ⟨s.settled, some (.malformed "the document is too long")⟩
  | fuel + 1, s =>
    match step.run s with
    | .ok (true, s') => all fuel s'
    | .ok (false, s') => ⟨s'.tokens.toList, none⟩
    | .error f => ⟨s.settled, some f⟩

/-- The tokens of a document. -/
def tokens (s : List Char) : Tokens :=
  if !s.all isAllowed then ⟨[], some (.malformed "special characters are not allowed")⟩
  else
    let start : Cursor := { rest := s }
    Scan.all (s.length + 2) { cursor := if s.head? == some orderMark then start.next else start }

end Yaml

end Scaffold
