import Scaffold.Pattern.Search

/-!
# Reading patterns

From the text of a pattern to its form.  The text is cut into tokens first: a character, or a
backslash together with the character behind it.  A reader then descends through alternatives,
sequences and groups.  It keeps the number of groups, their names and widths, the options set at the
start, and where a condition that looks behind began, since such a condition may only refer to
groups from before it.

There is one outcome for every ill-formed pattern, `none`: what exactly is wrong with it is not told.
The functions that descend carry a fuel that the number of tokens bounds.
-/

namespace Scaffold

namespace Pattern

/-- A character, or a character behind a backslash. -/
inductive Token where
  | plain (c : Char)
  | escaped (c : Char)
  deriving DecidableEq, Inhabited, Repr

/-- The tokens of a pattern; none if it ends in a lone backslash. -/
def tokens? : List Char → Option (List Token)
  | [] => some []
  | ['\\'] => none
  | '\\' :: c :: s => (tokens? s).map (.escaped c :: ·)
  | c :: s => (tokens? s).map (.plain c :: ·)

/-- Least and greatest number of characters; no greatest if it is unbounded. -/
structure Width where
  low : Nat
  high : Option Nat
  deriving DecidableEq, Inhabited, Repr

namespace Width

/-- The width of two parts one behind the other. -/
def plus (a b : Width) : Width :=
  ⟨a.low + b.low, do let x ← a.high; let y ← b.high; some (x + y)⟩

/-- The width of either of two parts. -/
def either (a b : Width) : Width :=
  ⟨min a.low b.low, do let x ← a.high; let y ← b.high; some (max x y)⟩

/-- The width of a repetition. -/
def times (a : Width) (low : Nat) (high : Option Nat) : Width :=
  ⟨a.low * low,
    match high, a.high with
    | _, some 0 => some 0
    | some h, some x => some (h * x)
    | _, _ => none⟩

end Width

/-- The state of the reader. -/
structure Cursor where
  rest : List Token
  options : Options
  verbose : Bool := false
  groups : Nat := 1
  widths : List (Nat × Width) := []
  names : List (String × Nat) := []
  behindFrom : Option Nat := none
  conditions : List Nat := []

/-- A reading step. -/
abbrev Reads := StateT Cursor Option

/-- The width of a node, given the widths of the groups. -/
def Node.width (widths : List (Nat × Width)) : Node → Width
  | .empty | .anchor _ | .lookAhead .. | .lookBehind .. => ⟨0, some 0⟩
  | .any | .set .. => ⟨1, some 1⟩
  | .seq a b => (a.width widths).plus (b.width widths)
  | .either a b => (a.width widths).either (b.width widths)
  | .repeated _ low high body => (body.width widths).times low high
  | .group _ body | .scoped _ body | .atomic body => body.width widths
  | .reference i => ((widths.find? (·.1 == i)).map (·.2)).getD ⟨0, none⟩
  | .ifGroup _ yes no => (yes.width widths).either (no.width widths)

/-- Fails. -/
def refuse {α : Type} : Reads α := fun _ => none

/-- The next token, which stays unread. -/
def peek : Reads (Option Token) := return (← get).rest.head?

/-- Reads the next token, if there is one. -/
def take : Reads (Option Token) := do
  let c ← get
  match c.rest with
  | [] => return none
  | t :: r => set { c with rest := r }; return some t

/-- Reads a given character if it comes next. -/
def accept (ch : Char) : Reads Bool := do
  if (← peek) == some (.plain ch) then
    let _ ← take
    return true
  else return false

/-- Reads up to `n` plain characters that satisfy `p`. -/
def takeSome (p : Char → Bool) : Nat → Reads (List Char)
  | 0 => return []
  | n + 1 => do
    match (← peek) with
    | some (.plain c) =>
      if p c then
        let _ ← take
        return c :: (← takeSome p n)
      else return []
    | _ => return []

/-- Reads all plain characters that satisfy `p`. -/
def takeWhilePlain (p : Char → Bool) : Reads (List Char) := do
  takeSome p (← get).rest.length

/-- Reads a name up to a closing character; tokens with a backslash make it ill-formed. -/
def takeName (close : Char) : Reads (List Char) := do
  let name ← takeWhilePlain (· != close)
  if name.isEmpty || !(← accept close) then refuse else return name

/-! ## Escapes -/

/-- An octal digit. -/
def isOctal (c : Char) : Bool := '0' ≤ c && c ≤ '7'

/-- The number that digits write in a base. -/
def inBase (base : Nat) (ds : List Char) : Nat :=
  ds.foldl (fun n c => base * n + (Text.hexValue? c).getD 0) 0

/-- An escape of exactly `n` hexadecimal digits. -/
def hexEscape (n : Nat) : Reads Nat := do
  let ds ← takeSome (fun c => (Text.hexValue? c).isSome) n
  let code := inBase 16 ds
  if ds.length = n && code ≤ 0x10ffff then return code else refuse

/-- The code point of a control escape. -/
def controlEscape? (c : Char) : Option Nat :=
  match c with
  | 'a' => some 7
  | 'b' => some 8
  | 'f' => some 12
  | 'n' => some 10
  | 'r' => some 13
  | 't' => some 9
  | 'v' => some 11
  | '\\' => some 92
  | _ => none

/-- The class of a class escape. -/
def classEscape? (c : Char) : Option Member :=
  match c with
  | 'd' => some (.named .digit false)
  | 'D' => some (.named .digit true)
  | 's' => some (.named .blank false)
  | 'S' => some (.named .blank true)
  | 'w' => some (.named .word false)
  | 'W' => some (.named .word true)
  | _ => none

/-- The anchor of an anchor escape. -/
def anchorEscape? (c : Char) : Option Anchor :=
  match c with
  | 'A' => some .textStart
  | 'b' => some .wordEdge
  | 'B' => some .noWordEdge
  | 'Z' => some .textEnd
  | _ => none

/-- Whether an ASCII letter. -/
def isAsciiLetter (c : Char) : Bool := Text.isCapital c || Text.isSmall c

/-- A member of a set written as an escape. -/
def memberEscape (c : Char) : Reads Member := do
  if let some n := controlEscape? c then return .code n
  if let some m := classEscape? c then return m
  if c == 'x' then return .code (← hexEscape 2)
  if c == 'u' then return .code (← hexEscape 4)
  if c == 'U' then return .code (← hexEscape 8)
  if isOctal c then
    let ds ← takeSome isOctal 2
    let n := inBase 8 (c :: ds)
    if n > 255 then refuse else return .code n
  if Text.isAsciiDigit c || isAsciiLetter c then refuse
  return .code c.toNat

/-- Checks that a group may be referred to here. -/
def checkReference (i : Nat) (mayBeOpen : Bool) : Reads Unit := do
  let c ← get
  let closed := c.widths.any (·.1 == i)
  if !closed && !mayBeOpen then refuse
  match c.behindFrom with
  | some first => if !closed || i ≥ first then refuse else return
  | none => return

/-- A reference to a group that is closed. -/
def referTo (i : Nat) : Reads Node := do
  if i ≥ (← get).groups then refuse
  checkReference i false
  return .reference i

/-- A node written as an escape. -/
def nodeEscape (c : Char) : Reads Node := do
  if let some a := anchorEscape? c then return .anchor a
  if let some m := classEscape? c then return .set false [m]
  if let some n := controlEscape? c then return .char n
  if c == 'x' then return .char (← hexEscape 2)
  if c == 'u' then return .char (← hexEscape 4)
  if c == 'U' then return .char (← hexEscape 8)
  if c == '0' then
    let ds ← takeSome isOctal 2
    return .char (inBase 8 ds)
  if Text.isAsciiDigit c then
    let second ← takeSome Text.isAsciiDigit 1
    match second with
    | [d] =>
      if isOctal c && isOctal d then
        match (← takeSome isOctal 1) with
        | [e] =>
          let n := inBase 8 [c, d, e]
          if n > 255 then refuse else return .char n
        | _ => referTo (inBase 10 [c, d])
      else referTo (inBase 10 [c, d])
    | _ => referTo (inBase 10 [c])
  else if isAsciiLetter c then refuse
  else return .char c.toNat

/-! ## Sets -/

/-- One end of a range, or a class. -/
def readMember (t : Token) : Reads Member :=
  match t with
  | .escaped c => memberEscape c
  | .plain c => return .code c.toNat

/-- The members of a set up to its closing bracket. -/
def readMembers : (fuel : Nat) → (acc : List Member) → Reads (List Member)
  | 0, _ => refuse
  | fuel + 1, acc => do
    match (← take) with
    | none => refuse
    | some t =>
      if t == .plain ']' && !acc.isEmpty then return acc.reverse
      else
        let low ← readMember t
        if (← accept '-') then
          match (← take) with
          | none => refuse
          | some (.plain ']') => return (Member.code '-'.toNat :: low :: acc).reverse
          | some t' =>
            match low, (← readMember t') with
            | .code a, .code b => if b < a then refuse else readMembers fuel (.range a b :: acc)
            | _, _ => refuse
        else readMembers fuel (low :: acc)

/-- A set behind its opening bracket. -/
def readSet : Reads Node := do
  let negated ← accept '^'
  return .set negated (← readMembers ((← get).rest.length + 1) [])

/-! ## Options -/

/-- The letters of options. -/
def isOptionLetter (c : Char) : Bool := "iLmsxatu".toList.contains c

/-- Letters of options with the character that ends them. -/
def takeOptions (stops : List Char) : (fuel : Nat) → Char → Reads (List Char × Char)
  | 0, _ => refuse
  | fuel + 1, c => do
    if !isOptionLetter c then refuse
    match (← take) with
    | some (.plain d) =>
      if stops.contains d then return ([c], d)
      else
        let (cs, stop) ← takeOptions stops fuel d
        return (c :: cs, stop)
    | _ => refuse

/-- The change of options that letters ask for. -/
def changeOf (on off : List Char) : Change :=
  let pick (c : Char) : Option Bool :=
    if off.contains c then some false else if on.contains c then some true else none
  let ascii := if on.contains 'a' then some true else if on.contains 'u' then some false else none
  ⟨pick 'i', pick 'm', pick 's', ascii⟩

/-- Whether letters may be switched on together. -/
def compatible (on : List Char) : Bool :=
  !on.contains 'L' && !(on.contains 'a' && on.contains 'u')

/-- Option letters behind `(?`, the first of them already read: for the whole pattern (no stop), or
for a group with its letters on and off. -/
def readOptions (first : Char) : Reads (List Char × Option (List Char)) := do
  let fuel := (← get).rest.length + 1
  let (on, stop) ← if first == '-' then pure ([], '-') else takeOptions [')', '-', ':'] fuel first
  if !compatible on then refuse
  if stop == ')' then return (on, none)
  if on.contains 't' then refuse
  if stop == ':' then return (on, some [])
  match (← take) with
  | some (.plain c) =>
    let (off, _) ← takeOptions [':'] fuel c
    if off.any (fun c => c == 'a' || c == 'u' || c == 'L' || c == 't') then refuse
    if on.any off.contains then refuse
    return (on, some off)
  | _ => refuse

/-! ## Repetitions -/

/-- The bounds of a counted repetition behind its opening brace, if the text there is one. -/
def readBounds? : Reads (Option (Nat × Option Nat)) := do
  let saved ← get
  if (← peek) == some (.plain '}') then return none
  let low ← takeWhilePlain Text.isAsciiDigit
  let comma ← accept ','
  let high ← if comma then takeWhilePlain Text.isAsciiDigit else pure low
  if (← accept '}') then
    let a := inBase 10 low
    if high.isEmpty then return some (a, none)
    else
      let b := inBase 10 high
      if b < a then refuse else return some (a, some b)
  else
    set saved
    return none

/-- Whether a repetition sign may stand behind a node. -/
def Node.repeatable : Node → Bool
  | .anchor _ | .repeated .. => false
  | _ => true

/-- Puts a repetition around the last node read. -/
def repeatLast (acc : List Node) (low : Nat) (high : Option Nat) : Reads (List Node) := do
  match acc with
  | [] => refuse
  | n :: r =>
    if !n.repeatable then refuse
    if (← accept '?') then return .repeated .fewest low high n :: r
    else if (← accept '+') then return .repeated .possessive low high n :: r
    else return .repeated .most low high n :: r

/-! ## Groups and sequences -/

/-- White space that the verbose form skips. -/
def isVerboseBlank (c : Char) : Bool := c == ' ' || (9 ≤ c.toNat && c.toNat ≤ 13)

/-- Skips a comment up to the end of its line. -/
def skipLine : (fuel : Nat) → Reads Unit
  | 0 => return
  | fuel + 1 => do
    match (← take) with
    | none => return
    | some t => if t == .plain '\n' then return else skipLine fuel

/-- Skips a comment up to its closing parenthesis. -/
def skipComment : (fuel : Nat) → Reads Unit
  | 0 => refuse
  | fuel + 1 => do
    match (← take) with
    | none => refuse
    | some t => if t == .plain ')' then return else skipComment fuel

/-- Whether a name can name a group. -/
def isGroupName (s : List Char) : Bool :=
  match s with
  | [] => false
  | c :: _ => s.all Text.isWord && !Text.isDigit c

/-- Opens a new group. -/
def openGroup (name : Option String) : Reads Nat := do
  let c ← get
  match name with
  | some n => if c.names.any (·.1 == n) then refuse else set { c with groups := c.groups + 1, names := (n, c.groups) :: c.names }
  | none => set { c with groups := c.groups + 1 }
  return c.groups

/-- Closes a group. -/
def closeGroup (i : Nat) (body : Node) : Reads Unit :=
  modify fun c => { c with widths := (i, body.width c.widths) :: c.widths }

/-- Reads a closing parenthesis. -/
def expectClose : Reads Unit := do
  if !(← accept ')') then refuse

/-- The nodes one behind the other. -/
def sequence : List Node → Node
  | [] => .empty
  | [a] => a
  | a :: b :: r => .seq a (sequence (b :: r))

/-- A condition that looks behind; its body has one fixed width. -/
def lookBehindOf (negated : Bool) (body : Node) : Reads Node := do
  let w := body.width (← get).widths
  if w.high == some w.low then return .lookBehind negated w.low body else refuse

/-- The number of the group that a conditional names. -/
def conditionIndex (name : List Char) : Reads Nat := do
  if isGroupName name then
    match (← get).names.find? (·.1 == String.ofList name) with
    | some (_, i) => return i
    | none => refuse
  else if name.all Text.isAsciiDigit then
    let i := inBase 10 name
    if i = 0 then refuse
    modify fun c => { c with conditions := i :: c.conditions }
    return i
  else refuse

mutual

/-- Alternatives.  `top` says that they are the whole pattern. -/
def readEither : (fuel : Nat) → (verbose top : Bool) → Reads Node
  | 0, _, _ => refuse
  | fuel + 1, verbose, top => do
    let a ← readSequence fuel verbose top []
    readMore fuel verbose top a

/-- Further alternatives behind the first. -/
def readMore : (fuel : Nat) → (verbose top : Bool) → Node → Reads Node
  | 0, _, _, _ => refuse
  | fuel + 1, verbose, top, a => do
    if (← accept '|') then
      let here ← get
      let verbose := if top then here.verbose else verbose
      let b ← readSequence fuel verbose false []
      let rest ← readMore fuel verbose top b
      return .either a rest
    else return a

/-- A sequence, its nodes so far last first.  `start` says that options for the whole pattern may
stand here if nothing was read yet. -/
def readSequence : (fuel : Nat) → (verbose start : Bool) → (acc : List Node) → Reads Node
  | 0, _, _, _ => refuse
  | fuel + 1, verbose, start, acc => do
    match (← peek) with
    | none | some (.plain '|') | some (.plain ')') => return sequence acc.reverse
    | some t =>
      let _ ← take
      match t with
      | .escaped c =>
        let n ← nodeEscape c
        readSequence fuel verbose start (n :: acc)
      | .plain c =>
        if verbose && isVerboseBlank c then readSequence fuel verbose start acc
        else if verbose && c == '#' then
          let here ← get
          skipLine here.rest.length
          readSequence fuel verbose start acc
        else if c == '[' then readSequence fuel verbose start ((← readSet) :: acc)
        else if c == '?' then readSequence fuel verbose start (← repeatLast acc 0 (some 1))
        else if c == '*' then readSequence fuel verbose start (← repeatLast acc 0 none)
        else if c == '+' then readSequence fuel verbose start (← repeatLast acc 1 none)
        else if c == '{' then
          match (← readBounds?) with
          | some (low, high) => readSequence fuel verbose start (← repeatLast acc low high)
          | none => readSequence fuel verbose start (.char c.toNat :: acc)
        else if c == '.' then readSequence fuel verbose start (.any :: acc)
        else if c == '^' then readSequence fuel verbose start (.anchor .lineStart :: acc)
        else if c == '$' then readSequence fuel verbose start (.anchor .lineEnd :: acc)
        else if c == '(' then
          match (← readGroup fuel verbose (start && acc.isEmpty)) with
          | some n => readSequence fuel verbose start (n :: acc)
          | none =>
            let c ← get
            readSequence fuel (if start && acc.isEmpty then verbose || c.verbose else verbose) start acc
        else readSequence fuel verbose start (.char c.toNat :: acc)

/-- What stands in parentheses behind the opening one; nothing for comments and options. -/
def readGroup : (fuel : Nat) → (verbose start : Bool) → Reads (Option Node)
  | 0, _, _ => refuse
  | fuel + 1, verbose, start => do
    if !(← accept '?') then return some (← readBody fuel verbose none)
    match (← take) with
    | some (.plain 'P') =>
      if (← accept '<') then
        let name ← takeName '>'
        if !isGroupName name then refuse
        return some (← readBody fuel verbose (some (String.ofList name)))
      else if (← accept '=') then
        let name ← takeName ')'
        match (← get).names.find? (·.1 == String.ofList name) with
        | some (_, i) => return some (← referTo i)
        | none => refuse
      else refuse
    | some (.plain ':') =>
      let body ← readEither fuel verbose false
      expectClose
      return some (.scoped {} body)
    | some (.plain '#') =>
      skipComment ((← get).rest.length + 1)
      return none
    | some (.plain '=') =>
      let body ← readEither fuel verbose false
      expectClose
      return some (.lookAhead false body)
    | some (.plain '!') =>
      let body ← readEither fuel verbose false
      expectClose
      return some (.lookAhead true body)
    | some (.plain '<') =>
      let negated ← match (← take) with
        | some (.plain '=') => pure false
        | some (.plain '!') => pure true
        | _ => refuse
      let saved := (← get).behindFrom
      modify fun c => { c with behindFrom := some (saved.getD c.groups) }
      let body ← readEither fuel verbose false
      modify fun c => { c with behindFrom := saved }
      expectClose
      return some (← lookBehindOf negated body)
    | some (.plain '(') =>
      let i ← conditionIndex (← takeName ')')
      checkReference i true
      let yes ← readSequence fuel verbose false []
      let no ← if (← accept '|') then readSequence fuel verbose false [] else pure .empty
      expectClose
      return some (.ifGroup i yes no)
    | some (.plain '>') =>
      let body ← readEither fuel verbose false
      expectClose
      return some (.atomic body)
    | some (.plain c) =>
      if isOptionLetter c || c == '-' then
        let (on, off?) ← readOptions c
        match off? with
        | none =>
          if !start then refuse
          modify fun cur =>
            { cur with options := cur.options.apply (changeOf on []), verbose := cur.verbose || on.contains 'x' }
          return none
        | some off =>
          let inner := (verbose || on.contains 'x') && !off.contains 'x'
          let body ← readEither fuel inner false
          expectClose
          return some (.scoped (changeOf on off) body)
      else refuse
    | _ => refuse

/-- A numbered group behind its opening parenthesis. -/
def readBody : (fuel : Nat) → (verbose : Bool) → (name : Option String) → Reads Node
  | 0, _, _ => refuse
  | fuel + 1, verbose, name => do
    let i ← openGroup name
    let body ← readEither fuel verbose false
    expectClose
    closeGroup i body
    return .group i body

end

/-- The pattern that a text writes, with the options it starts with; none if it is ill-formed. -/
def compile? (text : String) (options : Options) : Option Compiled := do
  let ts ← tokens? text.toList
  let (node, c) ← readEither (4 * ts.length + 4) false true |>.run { rest := ts, options := options }
  if !c.rest.isEmpty || c.conditions.any (· ≥ c.groups) then none
  else some ⟨node, c.options⟩

/-- The pattern that matches exactly a text. -/
def verbatim (text : String) : Node := sequence (text.toList.map fun c => .char c.toNat)

end Pattern

end Scaffold
