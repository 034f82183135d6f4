import Scaffold.Shell.Words

/-!
# Shell scripts

The form of a shell script and its reader.  A word is made of pieces: literal text, parameters, the
output of scripts, and sums; each piece knows whether it stood between double quotes.  What stands
inside an expansion is kept as it is written and read when the expansion is made.

Read are lists, pipes, conditions, loops, selections, groups, functions, redirections and documents
that stand in the script.  A job in the background is read as one that is waited for.

A script is read line by line, so that what stands before a line that cannot be read is still a script.
-/

namespace Scaffold

namespace Shell

/-! ## Form -/

/-- What is made of the value of a parameter; `orEmpty` says that empty counts as unset. -/
inductive Use where
  | value
  | length
  | otherwise (orEmpty : Bool) (word : List Char)
  | assign (orEmpty : Bool) (word : List Char)
  | instead (orEmpty : Bool) (word : List Char)
  | required (orEmpty : Bool) (word : List Char)
  | cutFront (longest : Bool) (pattern : List Char)
  | cutBack (longest : Bool) (pattern : List Char)
  deriving DecidableEq, Inhabited, Repr

/-- A piece of a word. -/
inductive Piece where
  | text (quoted : Bool) (s : List Char)
  | parameter (quoted : Bool) (name : String) (use : Use)
  | output (quoted : Bool) (script : List Char)
  | sum (quoted : Bool) (expression : List Char)
  deriving DecidableEq, Inhabited, Repr

/-- A word. -/
abbrev Word := List Piece

/-- A redirection of a descriptor. -/
structure Redirect where
  descriptor : Nat
  /-- The sign: `<`, `>`, `>>`, `<&`, `>&`, or `<<` for a document. -/
  sign : String
  /-- The target, or the text of the document. -/
  target : Word
  deriving DecidableEq, Inhabited, Repr

/-- A script. -/
inductive Script where
  | nothing
  | simple (line : Nat) (assigns : List (String × Word)) (words : List Word) (redirects : List Redirect)
  | seq (first second : Script)
  | both (first second : Script)
  | either (first second : Script)
  | negated (body : Script)
  | pipe (first second : Script)
  | subshell (body : Script)
  | redirected (body : Script) (redirects : List Redirect)
  | branch (condition present absent : Script)
  | loop (sense : Bool) (condition body : Script)
  | each (name : String) (words : Option (List Word)) (body : Script)
  /-- The body if the subject fits a pattern, and the rest of the selection otherwise. -/
  | choose (subject : Word) (patterns : List Word) (body rest : Script)
  | define (name : String) (body : Script)
  deriving DecidableEq, Inhabited, Repr

/-- Why a script cannot be read. -/
inductive ScriptFault where
  | openQuote
  | openExpansion
  | badExpansion
  | unexpected (what : String) (wanted : Option String)
  deriving DecidableEq, Inhabited, Repr

/-- A fault and the line where it was found. -/
structure Flaw where
  line : Nat
  fault : ScriptFault
  deriving DecidableEq, Inhabited, Repr

/-- The wording of a fault. -/
def ScriptFault.message : ScriptFault → String
  | .openQuote => "Syntax error: Unterminated quoted string"
  | .openExpansion => "Syntax error: Missing '\x7d'"
  | .badExpansion => "Bad substitution"
  | .unexpected what wanted =>
    "Syntax error: " ++ what ++ " unexpected" ++
      match wanted with
      | some w => " (expecting \"" ++ w ++ "\")"
      | none => ""

/-! ## Words -/

/-- The sign before and behind a script whose output is taken, in the old way of writing. -/
def backquote : Char := Char.ofNat 96

/-- A character that ends a word. -/
def endsPlain (c : Char) : Bool := " \t\n;&|<>()".toList.contains c

/-- A character of a parameter's name. -/
def isNameChar (c : Char) : Bool := Text.isCapital c || Text.isSmall c || Text.isAsciiDigit c || c == '_'

/-- A parameter that is named by one sign. -/
def isSpecial (c : Char) : Bool := Text.isAsciiDigit c || "?#$!@*-".toList.contains c

/-- What stands up to the bracket that closes `depth` open ones, and the rest.  Brackets between
quotes do not count. -/
def enclosed (opening closing : Char) : Mode → (depth : Nat) → List Char →
    Option (List Char × List Char)
  | _, _, [] => none
  | mode, depth, c :: s =>
    let go (mode : Mode) (depth : Nat) :=
      (enclosed opening closing mode depth s).map fun (a, b) => (c :: a, b)
    match mode with
    | .single => go (if c == '\'' then .between else .single) depth
    | .double => go (if c == '"' then .between else if c == '\\' then .doubleEscape else .double) depth
    | .escape => go .between depth
    | .doubleEscape => go .double depth
    | .between | .word =>
      if c == '\'' then go .single depth
      else if c == '"' then go .double depth
      else if c == '\\' then go .escape depth
      else if c == opening then go .between (depth + 1)
      else if c == closing then if depth = 0 then some ([], s) else go .between (depth - 1)
      else go .between depth

/-- What stands up to the next backquote, where a backslash takes one away, and the rest. -/
def upToBackquote : List Char → Option (List Char × List Char)
  | [] => none
  | '\\' :: c :: s =>
    let kept := if c == backquote || c == '\\' || c == '$' then [c] else ['\\', c]
    (upToBackquote s).map fun (a, b) => (kept ++ a, b)
  | c :: s => if c == backquote then some ([], s) else (upToBackquote s).map fun (a, b) => (c :: a, b)

/-- What is made of a parameter, as written behind its name. -/
def useOf? : List Char → Option Use
  | [] => some .value
  | ':' :: '-' :: w => some (.otherwise true w)
  | ':' :: '=' :: w => some (.assign true w)
  | ':' :: '+' :: w => some (.instead true w)
  | ':' :: '?' :: w => some (.required true w)
  | '-' :: w => some (.otherwise false w)
  | '=' :: w => some (.assign false w)
  | '+' :: w => some (.instead false w)
  | '?' :: w => some (.required false w)
  | '#' :: '#' :: w => some (.cutFront true w)
  | '#' :: w => some (.cutFront false w)
  | '%' :: '%' :: w => some (.cutBack true w)
  | '%' :: w => some (.cutBack false w)
  | _ => none

/-- The name at the front of a text, and the rest. -/
def nameAt (s : List Char) : List Char × List Char :=
  match s with
  | [] => ([], [])
  | c :: r =>
    if isSpecial c then ([c], r) else (s.takeWhile isNameChar, s.dropWhile isNameChar)

/-- The parameter between braces. -/
def braced (quoted : Bool) (inside : List Char) : Except ScriptFault Piece :=
  let plain (s : List Char) : Except ScriptFault Piece :=
    let (name, rest) := nameAt s
    match name.isEmpty, useOf? rest with
    | false, some use => .ok (.parameter quoted (String.ofList name) use)
    | _, _ => .error .badExpansion
  match inside with
  | '#' :: c :: rest =>
    let (name, behind) := nameAt (c :: rest)
    if !name.isEmpty && behind.isEmpty then .ok (.parameter quoted (String.ofList name) .length)
    else plain inside
  | _ => plain inside

/-- The piece that a dollar sign begins, given what stands behind it, and the rest. -/
def expansion (quoted : Bool) (s : List Char) : Except ScriptFault (Piece × List Char) :=
  match s with
  | '(' :: r =>
    match enclosed '(' ')' .between 0 r with
    | none => .error (.unexpected "end of file" (some ")"))
    | some (inside, rest) =>
      match inside with
      | '(' :: e =>
        if e.getLast? == some ')' then .ok (.sum quoted e.dropLast, rest)
        else .ok (.output quoted inside, rest)
      | _ => .ok (.output quoted inside, rest)
  | '{' :: r =>
    match enclosed '{' '}' .between 0 r with
    | none => .error .openExpansion
    | some (inside, rest) => (braced quoted inside).map (·, rest)
  | _ =>
    let (name, rest) := nameAt s
    if name.isEmpty then .ok (.text quoted ['$'], s)
    else .ok (.parameter quoted (String.ofList name) .value, rest)

/-- The output of the script behind a backquote, and the rest. -/
def oldOutput (quoted : Bool) (s : List Char) : Except ScriptFault (Piece × List Char) :=
  match upToBackquote s with
  | some (inside, rest) => .ok (.output quoted inside, rest)
  | none => .error (.unexpected "end of file" none)

/-- Literal text before pieces. -/
def consText (quoted : Bool) (s : List Char) : Word → Word
  | .text q t :: w => if q = quoted then .text q (s ++ t) :: w else .text quoted s :: .text q t :: w
  | w => .text quoted s :: w

/-- The pieces up to the double quote that closes, and the rest.  In a document double quotes are
text, and it ends where the text does.  `fuel` bounds the pieces. -/
def quotedWord (inDocument : Bool) : (fuel : Nat) → List Char → Except ScriptFault (Word × List Char)
  | 0, _ => .error .openQuote
  | fuel + 1, s =>
    let go (kept r : List Char) :=
      (quotedWord inDocument fuel r).map fun (w, rest) => (consText true kept w, rest)
    match s with
    | [] => if inDocument then .ok ([], []) else .error .openQuote
    | '\\' :: '\n' :: r => quotedWord inDocument fuel r
    | '\\' :: c :: r =>
      let loses := (c == '"' && !inDocument) || c == '\\' || c == '$' || c == backquote
      go (if loses then [c] else ['\\', c]) r
    | '$' :: r => do
      let (p, r) ← expansion true r
      return (← quotedWord inDocument fuel r).map (p :: ·) id
    | c :: r =>
      if c == '"' && !inDocument then .ok ([], r)
      else if c == backquote then do
        let (p, r) ← oldOutput true r
        return (← quotedWord inDocument fuel r).map (p :: ·) id
      else go [c] r

/-- The word at the front of a text, up to a character that satisfies `ends`, and the rest. -/
def wordAt (ends : Char → Bool) : (fuel : Nat) → List Char → Except ScriptFault (Word × List Char)
  | 0, s => .ok ([], s)
  | fuel + 1, s =>
    match s with
    | [] => .ok ([], [])
    | '\'' :: r =>
      let inside := r.takeWhile (· != '\'')
      match r.drop inside.length with
      | [] => .error .openQuote
      | _ :: rest => (wordAt ends fuel rest).map fun (w, rest) => (.text true inside :: w, rest)
    | '"' :: r => do
      let (inside, r) ← quotedWord false (r.length + 1) r
      let (w, rest) ← wordAt ends fuel r
      return (.text true [] :: inside ++ w, rest)
    | '\\' :: '\n' :: r => wordAt ends fuel r
    | '\\' :: c :: r => (wordAt ends fuel r).map fun (w, rest) => (.text true [c] :: w, rest)
    | '$' :: r => do
      let (p, r) ← expansion false r
      return (← wordAt ends fuel r).map (p :: ·) id
    | c :: r =>
      if ends c then .ok ([], s)
      else if c == backquote then do
        let (p, r) ← oldOutput false r
        return (← wordAt ends fuel r).map (p :: ·) id
      else (wordAt ends fuel r).map fun (w, rest) => (consText false [c] w, rest)

/-- A whole text as a word. -/
def wordOf (s : List Char) : Except ScriptFault Word :=
  (wordAt (fun _ => false) (s.length + 1) s).map (·.1)

/-- A whole text as it stands between double quotes. -/
def quotedWordOf (s : List Char) : Except ScriptFault Word :=
  (quotedWord true (s.length + 1) s).map (·.1)

/-! ## Tokens -/

/-- A token. -/
inductive Token where
  | word (w : Word)
  | redirect (descriptor : Option Nat) (sign : String)
  | sign (s : String)
  /-- The place from which on the text cannot be read. -/
  | flaw (f : ScriptFault)
  deriving DecidableEq, Inhabited, Repr

/-- A token and the line where it begins. -/
structure Placed where
  line : Nat
  token : Token
  deriving DecidableEq, Inhabited, Repr

/-- A document that is to come behind the line. -/
structure Awaited where
  /-- The line that ends it. -/
  ending : List Char
  /-- Whether its text is taken as it is. -/
  literal : Bool
  /-- Whether tabs in front of its lines are dropped. -/
  dropsTabs : Bool
  deriving DecidableEq, Inhabited, Repr

/-- The signs between words, the longer before the shorter. -/
def signs : List String := ["&&", "||", ";;", ";", "&", "|", "(", ")", "\n"]

/-- The signs of redirections, the longer before the shorter. -/
def redirectSigns : List String := ["<<-", "<<", ">>", ">&", "<&", ">|", ">", "<"]

/-- The sign among `all` at the front of a text, and the rest. -/
def signAt? (all : List String) (s : List Char) : Option (String × List Char) :=
  all.findSome? fun sign => (Text.afterStart? sign.toList s).map (sign, ·)

/-- The descriptor and sign of a redirection at the front of a text, and the rest. -/
def redirectAt? (s : List Char) : Option (Option Nat × String × List Char) :=
  let digits := s.takeWhile Text.isAsciiDigit
  let descriptor := if digits.isEmpty then none
    else some (digits.foldl (fun n d => n * 10 + (d.toNat - 48)) 0)
  (signAt? redirectSigns (s.drop digits.length)).map fun (sign, rest) =>
    (descriptor, if sign = ">|" then ">" else sign, rest)

/-- The text of a piece that a document's ending is written with. -/
def Piece.literalText : Piece → List Char
  | .text _ s => s
  | _ => []

/-- The document that a word announces. -/
def Awaited.ofWord (dropsTabs : Bool) (w : Word) : Awaited where
  ending := w.flatMap Piece.literalText
  literal := w.any fun
    | .text quoted _ => quoted
    | _ => false
  dropsTabs

/-- The lines of a document up to its ending, and the rest.  One that does not end goes on to the end of
the text.  `fuel` bounds the lines. -/
def documentAt (d : Awaited) : (fuel : Nat) → List Char → List Char × List Char
  | 0, s => ([], s)
  | fuel + 1, s =>
    if s.isEmpty then ([], [])
    else
      let line := s.takeWhile (· != '\n')
      let (feed, rest) := (s.drop line.length).splitAt 1
      let line := if d.dropsTabs then line.dropWhile (· == '\t') else line
      if line = d.ending then ([], rest)
      else
        let (more, rest) := documentAt d fuel rest
        (line ++ feed ++ more, rest)

/-- The word that stands for the text of a document. -/
def Awaited.word (d : Awaited) (text : List Char) : Except ScriptFault Word :=
  if d.literal then .ok [.text true text] else quotedWordOf text

/-- The number of line feeds. -/
def lineFeeds (s : List Char) : Nat := (s.filter (· == '\n')).length

/-- The documents that are awaited, and the rest. -/
def documentsAt (s : List Char) : List Awaited → Except ScriptFault (List Word × List Char)
  | [] => .ok ([], s)
  | d :: ds => do
    let (text, rest) := documentAt d (s.length + 1) s
    let w ← d.word text
    let (ws, rest) ← documentsAt rest ds
    return (w :: ws, rest)

/-- The tokens of a text and its documents, in order.  `fuel` bounds their number. -/
def tokens : (fuel line : Nat) → List Awaited → List Char → List Placed × List Word
  | 0, _, _, _ => ([], [])
  | fuel + 1, line, awaited, s =>
    let flawed (f : ScriptFault) : List Placed × List Word := ([⟨line, .flaw f⟩], [])
    match s.dropWhile fun c => c == ' ' || c == '\t' with
    | [] => ([], [])
    | '#' :: r => tokens fuel line awaited (r.dropWhile (· != '\n'))
    | '\\' :: '\n' :: r => tokens fuel (line + 1) awaited r
    | '\n' :: r =>
      match documentsAt r awaited with
      | .error f => flawed f
      | .ok (found, rest) =>
        let (ts, ds) := tokens fuel (line + 1 + lineFeeds (r.take (r.length - rest.length))) [] rest
        (⟨line, .sign "\n"⟩ :: ts, found ++ ds)
    | s =>
      match redirectAt? s, signAt? signs s with
      | some (descriptor, sign, rest), _ =>
        if sign = "<<" || sign = "<<-" then
          let rest := rest.dropWhile fun c => c == ' ' || c == '\t'
          match wordAt endsPlain (rest.length + 1) rest with
          | .error f => flawed f
          | .ok (w, rest) =>
            let (ts, ds) := tokens fuel line (awaited ++ [.ofWord (sign = "<<-") w]) rest
            (⟨line, .redirect descriptor "<<"⟩ :: ts, ds)
        else
          let (ts, ds) := tokens fuel line awaited rest
          (⟨line, .redirect descriptor sign⟩ :: ts, ds)
      | none, some (sign, rest) =>
        let (ts, ds) := tokens fuel line awaited rest
        (⟨line, .sign sign⟩ :: ts, ds)
      | none, none =>
        match wordAt endsPlain (s.length + 1) s with
        | .error f => ([⟨line + lineFeeds s, .flaw f⟩], [])
        | .ok (w, rest) =>
          let (ts, ds) := tokens fuel (line + lineFeeds (s.take (s.length - rest.length))) awaited rest
          (⟨line, .word w⟩ :: ts, ds)

/-! ## Scripts -/

/-- What is left to read: tokens, the documents of the redirections among them, and the number of the
last line. -/
structure Reading where
  rest : List Placed
  documents : List Word
  lastLine : Nat
  deriving Inhabited, Repr

/-- A reader of tokens. -/
abbrev Reads (α : Type) := StateT Reading (Except Flaw) α

/-- The words that mean something where a command begins. -/
def reserved : List String :=
  ["if", "then", "else", "elif", "fi", "while", "until", "for", "do", "done", "case", "esac", "\x7b",
    "\x7d", "!"]

/-- The text of a token that is a plain word. -/
def Token.plain? : Token → Option String
  | .word [.text false s] => some (String.ofList s)
  | _ => none

/-- The reserved word that a token is. -/
def Token.reserved? (t : Token) : Option String := t.plain?.filter reserved.contains

/-- A token as a message names it. -/
def Token.shown (t : Token) : String :=
  match t with
  | .sign "\n" => "newline"
  | .sign s => "\"" ++ s ++ "\""
  | .redirect .. => "redirection"
  | .flaw _ => "end of file"
  | .word _ => match t.reserved? with
    | some w => "\"" ++ w ++ "\""
    | none => "word"

/-- The line of the next token. -/
def nextLine : Reads Nat := do
  let r ← get
  return (r.rest.head?.map (·.line)).getD r.lastLine

/-- Fails at the next token. -/
def unexpected {α : Type} (wanted : Option String := none) : Reads α := do
  let shown := ((← get).rest.head?.map (·.token.shown)).getD "end of file"
  throw ⟨← nextLine, .unexpected shown wanted⟩

/-- The next token, which stays unread. -/
def peek : Reads (Option Token) := do
  match (← get).rest.head? with
  | some ⟨line, .flaw f⟩ => throw ⟨line, f⟩
  | some t => return some t.token
  | none => return none

/-- Reads tokens. -/
def advance (count : Nat := 1) : Reads Unit := modify fun r => { r with rest := r.rest.drop count }

/-- How many tokens are left. -/
def leftover : Reads Nat := return (← get).rest.length

/-- Reads a sign if it comes next. -/
def accept (s : String) : Reads Bool := do
  if (← peek) == some (.sign s) then
    advance
    return true
  return false

/-- Reads one of some signs if it comes next. -/
def acceptAny (all : List String) : Reads Bool := do
  match (← peek) with
  | some (.sign s) =>
    if all.contains s then
      advance
      return true
    return false
  | _ => return false

/-- Reads line breaks. -/
def skipBreaks : Reads Unit :=
  modify fun r => { r with rest := r.rest.dropWhile (·.token == Token.sign "\n") }

/-- Reads a reserved word that has to come next. -/
def expect (w : String) : Reads Unit := do
  match (← peek).bind (·.reserved?) with
  | some w' => if w' = w then advance else unexpected (some w)
  | none => unexpected (some w)

/-- A word that has to come next. -/
def takeWord : Reads Word := do
  match (← peek) with
  | some (.word w) =>
    advance
    return w
  | _ => unexpected

/-- The words that come next. -/
def takeWords : Reads (List Word) := do
  let ws := (← get).rest.map fun t => match t.token with | .word w => some w | _ => none
  let found := (ws.takeWhile (·.isSome)).filterMap id
  advance found.length
  return found

/-- The text of the next document. -/
def takeDocument : Reads Word := do
  let r ← get
  set { r with documents := r.documents.drop 1 }
  return r.documents.headD []

/-- The redirections that come next.  `fuel` bounds their number. -/
def takeRedirects : (fuel : Nat) → Reads (List Redirect)
  | 0 => return []
  | fuel + 1 => do
    match (← peek) with
    | some (.redirect d sign) =>
      advance
      let target ← if sign = "<<" then takeDocument else takeWord
      let usual := if Text.startsWith "<" sign then 0 else 1
      return ⟨d.getD usual, sign, target⟩ :: (← takeRedirects fuel)
    | _ => return []

/-- The assignment that a word is. -/
def assignment? : Word → Option (String × Word)
  | .text false s :: w =>
    let name := s.takeWhile isNameChar
    match name, s.drop name.length with
    | c :: _, '=' :: value =>
      if Text.isAsciiDigit c then none
      else some (String.ofList name, if value.isEmpty then w else .text false value :: w)
    | _, _ => none
  | _ => none

/-- A simple command, of which `a`, `ws` and `rs` were read. -/
def simpleFrom (line : Nat) (a : List (String × Word)) (ws : List Word) (rs : List Redirect) :
    (fuel : Nat) → Reads Script
  | 0 => return .simple line a ws rs
  | fuel + 1 => do
    match (← peek) with
    | some (.word w) =>
      advance
      match ws.isEmpty, assignment? w with
      | true, some e => simpleFrom line (a ++ [e]) ws rs fuel
      | _, _ => simpleFrom line a (ws ++ [w]) rs fuel
    | some (.redirect ..) =>
      let r ← takeRedirects 1
      simpleFrom line a ws (rs ++ r) fuel
    | some (.sign "(") => unexpected
    | _ =>
      if a.isEmpty && ws.isEmpty && rs.isEmpty then unexpected
      return .simple line a ws rs

/-- Whether a token ends a list of commands. -/
def endsList : Option Token → Bool
  | none | some (.sign ")") | some (.sign ";;") => true
  | some t => (t.reserved?.map ["then", "else", "elif", "fi", "do", "done", "esac", "\x7d"].contains).getD
      false

/-- The patterns of a selection, between bars. -/
def takePatterns : (fuel : Nat) → Reads (List Word)
  | 0 => return []
  | fuel + 1 => do
    let w ← takeWord
    if (← accept "|") then return w :: (← takePatterns fuel)
    if (← accept ")") then return [w]
    unexpected (some ")")

/-- The name of the function that is defined here. -/
def definedHere? : Reads (Option String) := do
  match (← get).rest with
  | name :: ⟨_, .sign "("⟩ :: ⟨_, .sign ")"⟩ :: _ => return name.token.plain?
  | _ => return none

mutual

/-- Commands up to a token that ends them. -/
def takeList : (fuel : Nat) → Reads Script
  | 0 => unexpected
  | fuel + 1 => do
    skipBreaks
    if endsList (← peek) then return .nothing
    let first ← takeChain fuel
    let more ← acceptAny [";", "&", "\n"]
    if !more && !endsList (← peek) then unexpected
    skipBreaks
    if endsList (← peek) then return first
    return .seq first (← takeList fuel)

/-- Pipes between signs of conjunction and alternative. -/
def takeChain : (fuel : Nat) → Reads Script
  | 0 => unexpected
  | fuel + 1 => do
    let first ← takePipe fuel
    takeChainFrom fuel first

/-- The chain behind its beginning. -/
def takeChainFrom : (fuel : Nat) → Script → Reads Script
  | 0, s => return s
  | fuel + 1, s => do
    if (← accept "&&") then
      skipBreaks
      let next ← takePipe fuel
      takeChainFrom fuel (.both s next)
    else if (← accept "||") then
      skipBreaks
      let next ← takePipe fuel
      takeChainFrom fuel (.either s next)
    else return s

/-- Commands between bars. -/
def takePipe : (fuel : Nat) → Reads Script
  | 0 => unexpected
  | fuel + 1 => do
    if (← peek).bind (·.reserved?) == some "!" then
      advance
      return .negated (← takePipe fuel)
    let first ← takeCommand fuel
    if (← accept "|") then
      skipBreaks
      return .pipe first (← takePipe fuel)
    return first

/-- One command. -/
def takeCommand : (fuel : Nat) → Reads Script
  | 0 => unexpected
  | fuel + 1 => do
    let body ← match (← peek) with
      | some (.sign "(") => do
        advance
        let body ← takeList fuel
        if !(← accept ")") then unexpected (some ")")
        pure (some (Script.subshell body))
      | t =>
        match t.bind (·.reserved?) with
        | some "\x7b" => do
          advance
          let body ← takeList fuel
          expect "\x7d"
          pure (some body)
        | some "if" => do
          advance
          pure (some (← takeBranch fuel))
        | some "while" => do
          advance
          pure (some (← takeLoop fuel true))
        | some "until" => do
          advance
          pure (some (← takeLoop fuel false))
        | some "for" => do
          advance
          pure (some (← takeEach fuel))
        | some "case" => do
          advance
          let subject ← takeWord
          skipBreaks
          if (← peek).bind (·.plain?) != some "in" then unexpected (some "in")
          advance
          pure (some (← takeArms fuel subject))
        | some _ => unexpected
        | none => do
          match ← definedHere? with
          | none => pure none
          | some name => do
            advance 3
            skipBreaks
            pure (some (Script.define name (← takeCommand fuel)))
    match body with
    | none => simpleFrom (← nextLine) [] [] [] (← leftover)
    | some body =>
      let rs ← takeRedirects (← leftover)
      return if rs.isEmpty then body else .redirected body rs

/-- A condition behind its first word. -/
def takeBranch : (fuel : Nat) → Reads Script
  | 0 => unexpected
  | fuel + 1 => do
    let condition ← takeList fuel
    expect "then"
    let present ← takeList fuel
    match (← peek).bind (·.reserved?) with
    | some "elif" =>
      advance
      return .branch condition present (← takeBranch fuel)
    | some "else" =>
      advance
      let absent ← takeList fuel
      expect "fi"
      return .branch condition present absent
    | _ =>
      expect "fi"
      return .branch condition present .nothing

/-- A loop behind its first word. -/
def takeLoop : (fuel : Nat) → Bool → Reads Script
  | 0, _ => unexpected
  | fuel + 1, sense => do
    let condition ← takeList fuel
    expect "do"
    let body ← takeList fuel
    expect "done"
    return .loop sense condition body

/-- A loop over words behind its first word. -/
def takeEach : (fuel : Nat) → Reads Script
  | 0 => unexpected
  | fuel + 1 => do
    let some name := (← peek).bind (·.plain?) | unexpected
    advance
    skipBreaks
    let words ← if (← peek).bind (·.plain?) == some "in" then do
        advance
        pure (some (← takeWords))
      else pure none
    let _ ← accept ";"
    skipBreaks
    expect "do"
    let body ← takeList fuel
    expect "done"
    return .each name words body

/-- The arms of a selection. -/
def takeArms : (fuel : Nat) → Word → Reads Script
  | 0, _ => unexpected
  | fuel + 1, subject => do
    skipBreaks
    if (← peek).bind (·.reserved?) == some "esac" then
      advance
      return .nothing
    let _ ← accept "("
    let patterns ← takePatterns (← leftover)
    let body ← takeList fuel
    if (← accept ";;") then return .choose subject patterns body (← takeArms fuel subject)
    if (← peek).bind (·.reserved?) != some "esac" then unexpected (some ";;")
    advance
    return .choose subject patterns body .nothing

end

/-- The commands up to the end of a line.  `fuel` bounds their number. -/
def takeLine : (fuel : Nat) → Reads Script
  | 0 => unexpected
  | fuel + 1 => do
    let first ← takeChain (4 * (← leftover) + 8)
    let more ← acceptAny [";", "&"]
    match more, (← peek) with
    | _, none => return first
    | _, some (.sign "\n") =>
      advance
      return first
    | true, some _ => return .seq first (← takeLine fuel)
    | false, some _ => unexpected

/-- The scripts of the lines of a text up to the first that cannot be read, and why that is.  `fuel`
bounds their number. -/
def takeLines : (fuel : Nat) → Reading → List Script × Option Flaw
  | 0, _ => ([], none)
  | fuel + 1, r =>
    let r := { r with rest := r.rest.dropWhile (·.token == Token.sign "\n") }
    if r.rest.isEmpty then ([], none)
    else
      match (takeLine (r.rest.length + 1)).run r with
      | .error f => ([], some f)
      | .ok (script, r) =>
        let (more, f) := takeLines fuel r
        (script :: more, f)

/-- The scripts of the lines of a text that begins at a line, up to the first that cannot be read, and
why that is. -/
def Script.read (line : Nat) (s : List Char) : List Script × Option Flaw :=
  let (ts, ds) := tokens (s.length + 1) line [] s
  takeLines (ts.length + 1) ⟨ts, ds, line + lineFeeds s⟩

end Shell

end Scaffold
