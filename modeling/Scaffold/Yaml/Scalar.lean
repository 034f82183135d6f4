import Scaffold.Yaml.Cursor
import Scaffold.Number.Reader

/-!
# Scalars

How the text of a scalar is read in each of its styles.  Inside a scalar that runs over several lines
a single break is a space and further breaks are kept, except in a literal block, where all are.
-/

namespace Scaffold

namespace Yaml

/-! ## Plain scalars -/

/-- A sign of flow collections. -/
def isFlowSign (c : Char) : Bool := c == ',' || c == '[' || c == ']' || c == '{' || c == '}'

/-- The characters of a plain scalar up to the next space or sign. -/
def plainRun (inFlow : Bool) : List Char → List Char
  | [] => []
  | c :: s =>
    let colon := c == ':' && (separates s.head? || (inFlow && s.head?.any isFlowSign))
    if isBreak c || isSpace c || colon || (inFlow && (isFlowSign c || c == '?')) then []
    else c :: plainRun inFlow s

/-- A break and those behind it, as they read inside a scalar. -/
def foldBreaks (first more : List Char) : List Char :=
  (if first != ['\n'] then first else if more.isEmpty then [' '] else []) ++ more

/-- Breaks and spaces behind the first break of a plain scalar; none at a separator. -/
def plainBreaks : (fuel : Nat) → Reads (Option (List Char))
  | 0 => return some []
  | fuel + 1 => do
    match (← peek) with
    | some ' ' => advance 1; plainBreaks fuel
    | c =>
      if !c.any isBreak then return some []
      let b ← lineBreak
      if (← get).atSeparator then return none
      return (← plainBreaks fuel).map (b ++ ·)

/-- What stands between two runs of a plain scalar, and whether that breaks the line. -/
def plainGap : Reads (List Char × Bool) := do
  let spaces ← takeWhile (· == ' ')
  if !(← peek).any isBreak then return (spaces, false)
  let first ← lineBreak
  if (← get).atSeparator then return ([], true)
  match (← plainBreaks ((← get).rest.length + 1)) with
  | none => return ([], true)
  | some more => return (foldBreaks first more, true)

/-- The runs of a plain scalar behind `acc` and a gap; the text, and whether a line was broken
behind it. -/
def plainRuns (inFlow : Bool) (indent : Int) :
    (fuel : Nat) → (acc gap : List Char) → (broken : Bool) → Reads (List Char × Bool)
  | 0, acc, _, broken => return (acc, broken)
  | fuel + 1, acc, gap, broken => do
    if (← peek) == some '#' then return (acc, broken)
    let run := plainRun inFlow (← get).rest
    if run.isEmpty then return (acc, broken)
    advance run.length
    let acc := acc ++ gap ++ run
    let (gap, broken) ← plainGap
    let here ← get
    if gap.isEmpty || here.rest.head? == some '#' || (!inFlow && here.column < indent) then
      return (acc, broken)
    plainRuns inFlow indent fuel acc gap broken

/-- A plain scalar, and whether a line was broken behind it. -/
def plain (inFlow : Bool) (indent : Int) : Reads (String × Bool) := do
  let (s, broken) ← plainRuns inFlow (indent + 1) ((← get).rest.length + 1) [] [] false
  return (String.ofList s, broken)

/-! ## Quoted scalars -/

/-- The breaks behind the first one in a quoted scalar. -/
def quotedBreaks : (fuel : Nat) → Reads (List Char)
  | 0 => return []
  | fuel + 1 => do
    if (← get).atSeparator then refuse "found unexpected document separator"
    let _ ← takeWhile isSpace
    if !(← peek).any isBreak then return []
    let b ← lineBreak
    return b ++ (← quotedBreaks fuel)

/-- Spaces or breaks in a quoted scalar. -/
def quotedGap : Reads (List Char) := do
  let spaces ← takeWhile isSpace
  match (← peek) with
  | none => refuse "found unexpected end of stream"
  | some c =>
    if !isBreak c then return spaces
    let first ← lineBreak
    let more ← quotedBreaks ((← get).rest.length + 1)
    return foldBreaks first more

/-- The character of an escape of one letter. -/
def shortEscape? (c : Char) : Option Char :=
  [('0', 0), ('a', 7), ('b', 8), ('t', 9), ('\t', 9), ('n', 10), ('v', 11), ('f', 12), ('r', 13),
    ('e', 27), (' ', 32), ('"', 34), ('\\', 92), ('/', 47), ('N', 0x85), ('_', 0xa0), ('L', 0x2028),
    ('P', 0x2029)].lookup c |>.map Char.ofNat

/-- The number of digits of an escape by code. -/
def codeEscape? (c : Char) : Option Nat := [('x', 2), ('u', 4), ('U', 8)].lookup c

/-- A character by `n` hexadecimal digits. -/
def codeChar (n : Nat) : Reads Char := do
  let digits := (← get).rest.take n
  match digits.mapM Text.hexValue? with
  | none => refuse "expected escape sequence of hexadecimal numbers"
  | some ds =>
    if ds.length < n then refuse "expected escape sequence of hexadecimal numbers"
    let code := ds.foldl (fun a d => a * 16 + d) 0
    if 0x7fffffff < code then throw (.tooLarge "Python int too large to convert to C int")
    if 0x10ffff < code then throw (.badValue "chr() arg not in range(0x110000)")
    advance n
    return if Nat.isValidChar code then Char.ofNat code else Char.ofNat 0xfffd

/-- An escape, behind its backslash. -/
def escape : Reads (List Char) := do
  match (← peek) with
  | none => refuse "found unknown escape character"
  | some c =>
    match shortEscape? c, codeEscape? c with
    | some d, _ => advance 1; return [d]
    | none, some n => advance 1; return [← codeChar n]
    | none, none =>
      if !isBreak c then refuse "found unknown escape character"
      let _ ← lineBreak
      quotedBreaks ((← get).rest.length + 1)

/-- The text of a quoted scalar up to its closing quote. -/
def quotedText (quote : Char) : (fuel : Nat) → (acc : List Char) → Reads (List Char)
  | 0, acc => return acc
  | fuel + 1, acc => do
    match (← get).rest with
    | [] => refuse "found unexpected end of stream"
    | c :: rest =>
      if c == quote then
        if quote == '\'' && rest.head? == some '\'' then
          advance 2
          quotedText quote fuel (acc ++ ['\''])
        else
          advance 1
          return acc
      else if c == '\\' && quote == '"' then
        advance 1
        let s ← escape
        quotedText quote fuel (acc ++ s)
      else if isSpace c || isBreak c then
        let s ← quotedGap
        quotedText quote fuel (acc ++ s)
      else
        let run := (c :: rest).takeWhile fun c =>
          !(c == '\'' || c == '"' || c == '\\' || isSpace c || isBreak c)
        let n := max 1 run.length
        advance n
        quotedText quote fuel (acc ++ (c :: rest).take n)

/-- A scalar in quotes. -/
def quotedScalar (quote : Char) : Reads String := do
  advance 1
  return String.ofList (← quotedText quote ((← get).rest.length + 2) [])

/-! ## Block scalars -/

/-- What becomes of the breaks at the end of a block. -/
inductive Chomping where
  | clip
  | strip
  | keep
  deriving DecidableEq, Inhabited, Repr

/-- The sign for chomping here, if there is one. -/
def chompingSign : Reads (Option Chomping) := do
  match (← peek) with
  | some '+' => advance 1; return some .keep
  | some '-' => advance 1; return some .strip
  | _ => return none

/-- The digit for indentation here, if there is one. -/
def indentDigit : Reads (Option Nat) := do
  match (← peek) with
  | some c =>
    if !Text.isAsciiDigit c then return none
    if c == '0' then refuse "expected indentation indicator in the range 1-9, but found 0"
    advance 1
    return some (c.toNat - 48)
  | none => return none

/-- The signs of a block scalar: chomping and indentation in either order. -/
def blockSigns : Reads (Chomping × Option Nat) := do
  let first ← chompingSign
  let digit ← indentDigit
  let second ← if first.isNone && digit.isSome then chompingSign else pure none
  if !endsLineOrSpace (← peek) then refuse "expected chomping or indentation indicators"
  return ((first.or second).getD .clip, digit)

/-- The breaks in front of a block that sets its own indentation, and the widest line of spaces. -/
def blockLead : (fuel : Nat) → (widest : Nat) → Reads (List Char × Nat)
  | 0, widest => return ([], widest)
  | fuel + 1, widest => do
    match (← peek) with
    | some ' ' =>
      advance 1
      blockLead fuel (max widest (← get).column)
    | c =>
      if !c.any isBreak then return ([], widest)
      let b ← lineBreak
      let (more, w) ← blockLead fuel widest
      return (b ++ more, w)

/-- The indentation of a line, as far as it reaches. -/
def blockIndent (indent : Nat) : Reads Unit := do
  let here ← get
  advance ((here.rest.take (indent - here.column)).takeWhile (· == ' ')).length

/-- The breaks between two lines of a block. -/
def blockBreaks (indent : Nat) : (fuel : Nat) → Reads (List Char)
  | 0 => return []
  | fuel + 1 => do
    blockIndent indent
    if !(← peek).any isBreak then return []
    let b ← lineBreak
    return b ++ (← blockBreaks indent fuel)

/-- The lines of a block behind `acc` and some breaks: the text, the last break and the breaks behind
it. -/
def blockLines (folded : Bool) (indent : Nat) :
    (fuel : Nat) → (acc breaks : List Char) → Reads (List Char × List Char × List Char)
  | 0, acc, breaks => return (acc, [], breaks)
  | fuel + 1, acc, breaks => do
    let startsFull := !(← peek).any isSpace
    let line ← takeWhile fun c => !isBreak c
    let acc := acc ++ breaks ++ line
    let b ← lineBreak
    let breaks ← blockBreaks indent ((← get).rest.length + 1)
    let here ← get
    if here.column != indent || here.rest.isEmpty then return (acc, b, breaks)
    let joined :=
      if folded && b == ['\n'] && startsFull && !here.rest.head?.any isSpace then
        if breaks.isEmpty then [' '] else []
      else b
    blockLines folded indent fuel (acc ++ joined) breaks

/-- A block scalar inside an indentation. -/
def blockScalar (folded : Bool) (outer : Int) : Reads String := do
  advance 1
  let (chomping, digit) ← blockSigns
  restOfLine
  let least := (max (outer + 1) 1).toNat
  let fuel := (← get).rest.length + 1
  let (indent, breaks) ←
    match digit with
    | some d => do
      let indent := least + d - 1
      let breaks ← blockBreaks indent fuel
      pure (indent, breaks)
    | none => do
      let (breaks, widest) ← blockLead fuel 0
      pure (max least widest, breaks)
  let here ← get
  let (text, last, more) ←
    if here.column = indent && !here.rest.isEmpty then blockLines folded indent fuel [] breaks
    else pure ([], [], breaks)
  return String.ofList <| match chomping with
    | .strip => text
    | .clip => text ++ last
    | .keep => text ++ last ++ more

end Yaml

end Scaffold
