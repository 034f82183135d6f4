import Scaffold.Check.Tokens
import Scaffold.Text.Blank

/-!
# Statements of Python source

A recogniser for source texts: it says whether the tokens of a text make up statements.  It covers
the statements and expressions that generated code is made of, with these limits: how operators bind
is not told apart, patterns of `match` statements are not known, and an assignment is refused only
where its target plainly cannot be assigned to.
-/

namespace Scaffold

namespace Check

namespace Statements

/-- A recognising step on the tokens that are left. -/
abbrev Reads := StateT (List Token) Option

/-- Whether an expression can be assigned to. -/
abbrev Assignable := Bool

/-- The next token, which stays. -/
def peek : Reads (Option Token) := return (← get).head?

/-- Passes over the next token if it is `t`. -/
def accept (t : Token) : Reads Bool := fun ts =>
  match ts with
  | u :: rest => if u = t then some (true, rest) else some (false, ts)
  | [] => some (false, [])

/-- Passes over the token `t`, which must come. -/
def expect (t : Token) : Reads Unit := do
  if (← accept t) then return else failure

/-- Passes over the next token if it is one of `ts`. -/
def acceptAny (ts : List Token) : Reads Bool := do
  match (← peek) with
  | some t => if ts.contains t then accept t else return false
  | none => return false

/-- The token of a word. -/
def word (s : String) : Token := .name s

/-- The token of an operator or mark. -/
def mark (s : String) : Token := .op s

/-- The words that are no names. -/
def keywords : List String :=
  ["False", "None", "True", "and", "as", "assert", "async", "await", "break", "class", "continue",
    "def", "del", "elif", "else", "except", "finally", "for", "from", "global", "if", "import", "in",
    "is", "lambda", "nonlocal", "not", "or", "pass", "raise", "return", "try", "while", "with", "yield"]

/-- Passes over a name, which must come. -/
def name : Reads Unit := do
  match (← peek) with
  | some (.name s) => if keywords.contains s then failure else expect (.name s)
  | _ => failure

/-- Passes over an operator that stands between operands. -/
def betweenOperands : Reads Bool := do
  if (← acceptAny ((["+", "-", "*", "/", "//", "%", "@", "**", "&", "|", "^", "<<", ">>", "<", ">",
      "<=", ">=", "==", "!="].map mark) ++ ["and", "or", "in"].map word)) then return true
  if (← accept (word "is")) then
    let _ ← accept (word "not")
    return true
  match (← get) with
  | .name "not" :: .name "in" :: rest =>
    set rest
    return true
  | _ => return false

/-- Whether an expression can start here. -/
def startsExpression : Reads Bool := do
  match (← peek) with
  | some (.name s) =>
    return !keywords.contains s || ["False", "None", "True", "await", "lambda", "not", "yield"].contains s
  | some .literal => return true
  | some (.op o) => return ["(", "[", "\x7b", "-", "+", "~", "...", "*", "**"].contains o
  | _ => return false

/-- Passes over dotted names. -/
def dotted : (fuel : Nat) → Reads Unit
  | 0 => failure
  | fuel + 1 => do
    name
    if (← accept (mark ".")) then dotted fuel

/-! ## Expressions -/

mutual

/-- An expression, a conditional one or a function without a name included. -/
def expression : (fuel : Nat) → Reads Assignable
  | 0 => failure
  | fuel + 1 => do
    if (← accept (word "lambda")) then
      if !(← accept (mark ":")) then
        parameters fuel false
        expect (mark ":")
      let _ ← expression fuel
      return false
    if (← accept (word "yield")) then
      if (← accept (word "from")) then
        let _ ← expression fuel
      else if (← startsExpression) then
        let _ ← items fuel
      return false
    let single ← operands fuel
    if (← accept (word "if")) then
      let _ ← operands fuel
      expect (word "else")
      let _ ← expression fuel
      return false
    if (← accept (mark ":=")) then
      if !single then failure
      let _ ← expression fuel
      return false
    return single

/-- Operands with operators between them. -/
def operands : (fuel : Nat) → Reads Assignable
  | 0 => failure
  | fuel + 1 => do
    let first ← operand fuel
    if (← betweenOperands) then
      let _ ← operands fuel
      return false
    return first

/-- An operand: what follows signs, with its trailers. -/
def operand : (fuel : Nat) → Reads Assignable
  | 0 => failure
  | fuel + 1 => do
    if (← acceptAny ((["-", "+", "~"].map mark) ++ ["not", "await"].map word)) then
      let _ ← operand fuel
      return false
    let a ← atom fuel
    trailers fuel a

/-- Calls, subscripts and attributes behind an operand. -/
def trailers : (fuel : Nat) → Assignable → Reads Assignable
  | 0, _ => failure
  | fuel + 1, a => do
    if (← accept (mark "(")) then
      arguments fuel
      trailers fuel false
    else if (← accept (mark "[")) then
      subscripts fuel
      trailers fuel true
    else if (← accept (mark ".")) then
      name
      trailers fuel true
    else return a

/-- A name, a literal, or something in brackets. -/
def atom : (fuel : Nat) → Reads Assignable
  | 0 => failure
  | fuel + 1 => do
    if (← accept (mark "(")) then
      if (← accept (mark ")")) then return true
      let a ← items fuel
      comprehension fuel
      expect (mark ")")
      return a
    else if (← accept (mark "[")) then
      if (← accept (mark "]")) then return true
      let a ← items fuel
      comprehension fuel
      expect (mark "]")
      return a
    else if (← accept (mark "\x7b")) then
      entries fuel
      return false
    else if (← accept .literal) then
      literals fuel
      return false
    else if (← accept (mark "...")) then return false
    else if (← acceptAny (["None", "True", "False"].map word)) then return false
    else
      name
      return true

/-- Literals behind a literal, which they go on. -/
def literals : (fuel : Nat) → Reads Unit
  | 0 => failure
  | fuel + 1 => do
    if (← accept .literal) then literals fuel

/-- Expressions with commas between them, some of them starred. -/
def items : (fuel : Nat) → Reads Assignable
  | 0 => failure
  | fuel + 1 => do
    let a ← if (← accept (mark "*")) then operands fuel else expression fuel
    if (← accept (mark ",")) then
      if (← startsExpression) then
        let b ← items fuel
        return a && b
      else return a
    return a

/-- The clauses of a comprehension, if there are any. -/
def comprehension : (fuel : Nat) → Reads Unit
  | 0 => failure
  | fuel + 1 => do
    let _ ← accept (word "async")
    if (← accept (word "for")) then
      targets fuel
      expect (word "in")
      let _ ← operands fuel
      conditions fuel
      comprehension fuel

/-- The conditions of a clause. -/
def conditions : (fuel : Nat) → Reads Unit
  | 0 => failure
  | fuel + 1 => do
    if (← accept (word "if")) then
      let _ ← operands fuel
      conditions fuel

/-- The targets of a loop. -/
def targets : (fuel : Nat) → Reads Unit
  | 0 => failure
  | fuel + 1 => do
    let _ ← accept (mark "*")
    let a ← atom fuel
    let a ← trailers fuel a
    if !a then failure
    if (← accept (mark ",")) then
      match (← peek) with
      | some (.name "in") => return
      | _ => targets fuel

/-- The arguments of a call, and the closing bracket. -/
def arguments : (fuel : Nat) → Reads Unit
  | 0 => failure
  | fuel + 1 => do
    if (← accept (mark ")")) then return
    if !(← acceptAny [mark "*", mark "**"]) then
      match (← get) with
      | .name _ :: .op "=" :: rest =>
        name
        set rest
      | _ => pure ()
    let _ ← expression fuel
    comprehension fuel
    if (← accept (mark ",")) then arguments fuel else expect (mark ")")

/-- What stands between square brackets behind an operand, and the closing one. -/
def subscripts : (fuel : Nat) → Reads Unit
  | 0 => failure
  | fuel + 1 => do
    let here ← get
    if (← startsExpression) then
      let _ ← accept (mark "*")
      let _ ← expression fuel
    if (← accept (mark ":")) then
      if (← startsExpression) then
        let _ ← expression fuel
      if (← accept (mark ":")) then
        if (← startsExpression) then
          let _ ← expression fuel
    if (← get).length = here.length then failure
    if (← accept (mark ",")) then
      if !(← accept (mark "]")) then subscripts fuel
    else expect (mark "]")

/-- What stands between curly brackets, and the closing one. -/
def entries : (fuel : Nat) → Reads Unit
  | 0 => failure
  | fuel + 1 => do
    if (← accept (mark "\x7d")) then return
    if (← acceptAny [mark "*", mark "**"]) then
      let _ ← operands fuel
    else
      let _ ← expression fuel
      if (← accept (mark ":")) then
        let _ ← expression fuel
    comprehension fuel
    if (← accept (mark ",")) then entries fuel else expect (mark "\x7d")

/-- Parameters with commas between them; `typed` says that types may be given. -/
def parameters : (fuel : Nat) → (typed : Bool) → Reads Unit
  | 0, _ => failure
  | fuel + 1, typed => do
    if !(← accept (mark "/")) then
      let starred ← acceptAny [mark "*", mark "**"]
      let bare ← if starred then pure ((← peek) == some (mark ",")) else pure false
      if !bare then
        name
        if typed then
          if (← accept (mark ":")) then
            let _ ← expression fuel
        if (← accept (mark "=")) then
          let _ ← expression fuel
    if (← accept (mark ",")) then
      match (← peek) with
      | some (.op ")") | some (.op ":") => return
      | _ => parameters fuel typed

end

/-! ## Statements -/

/-- The operators that change a target. -/
def changes : List Token :=
  ["+=", "-=", "*=", "/=", "//=", "%=", "@=", "&=", "|=", "^=", ">>=", "<<=", "**="].map mark

/-- Further targets and the value behind an assignable expression. -/
def assigned : (fuel : Nat) → Assignable → Reads Unit
  | 0, _ => failure
  | fuel + 1, a => do
    if (← accept (mark "=")) then
      if !a then failure
      let b ← items fuel
      assigned fuel b

/-- Names with commas between them, each perhaps given another name. -/
def aliases : (fuel : Nat) → (path : Bool) → Reads Unit
  | 0, _ => failure
  | fuel + 1, path => do
    if path then dotted fuel else name
    if (← accept (word "as")) then name
    if (← accept (mark ",")) then
      if (← peek) == some (mark ")") then return else aliases fuel path

/-- Dots in front of the name of a module. -/
def dots : (fuel : Nat) → Reads Bool
  | 0 => failure
  | fuel + 1 => do
    if (← acceptAny [mark ".", mark "..."]) then
      let _ ← dots fuel
      return true
    return false

/-- Imports of names from a module. -/
def importedFrom (fuel : Nat) : Reads Unit := do
  let relative ← dots fuel
  if !(relative && (← peek) == some (word "import")) then dotted fuel
  expect (word "import")
  if (← accept (mark "*")) then return
  if (← accept (mark "(")) then
    aliases fuel false
    expect (mark ")")
  else aliases fuel false

/-- A statement that fits on a part of a line. -/
def small (fuel : Nat) : Reads Unit := do
  if (← acceptAny (["pass", "break", "continue"].map word)) then return
  if (← accept (word "return")) then
    if (← startsExpression) then
      let _ ← items fuel
    return
  if (← accept (word "raise")) then
    if (← startsExpression) then
      let _ ← expression fuel
      if (← accept (word "from")) then
        let _ ← expression fuel
    return
  if (← acceptAny (["global", "nonlocal"].map word)) then
    aliases fuel false
    return
  if (← accept (word "del")) then
    if !(← items fuel) then failure
    return
  if (← accept (word "assert")) then
    let _ ← expression fuel
    if (← accept (mark ",")) then
      let _ ← expression fuel
    return
  if (← accept (word "import")) then
    aliases fuel true
    return
  if (← accept (word "from")) then
    importedFrom fuel
    return
  let a ← items fuel
  if (← acceptAny changes) then
    if !a then failure
    let _ ← items fuel
  else if (← accept (mark ":")) then
    if !a then failure
    let _ ← expression fuel
    if (← accept (mark "=")) then
      let _ ← items fuel
  else assigned fuel a

/-- Small statements with semicolons between them, to the end of the line. -/
def simple : (fuel : Nat) → Reads Unit
  | 0 => failure
  | fuel + 1 => do
    small fuel
    if (← accept (mark ";")) then
      if !(← accept .lineEnd) then simple fuel
    else expect .lineEnd

/-- The parts of a `with` statement. -/
def managers : (fuel : Nat) → Reads Unit
  | 0 => failure
  | fuel + 1 => do
    let _ ← expression fuel
    if (← accept (word "as")) then
      let a ← atom fuel
      let _ ← trailers fuel a
    if (← accept (mark ",")) then managers fuel

mutual

/-- A statement. -/
def statement : (fuel : Nat) → Reads Unit
  | 0 => failure
  | fuel + 1 => do
    let isAsync ← accept (word "async")
    if (← accept (word "def")) then
      name
      expect (mark "(")
      if !(← accept (mark ")")) then
        parameters fuel true
        expect (mark ")")
      if (← accept (mark "->")) then
        let _ ← expression fuel
      block fuel
    else if (← accept (word "for")) then
      targets fuel
      expect (word "in")
      let _ ← items fuel
      block fuel
      otherwise fuel
    else if (← accept (word "with")) then
      managers fuel
      block fuel
    else if isAsync then failure
    else if (← accept (word "if")) then branches fuel
    else if (← accept (word "while")) then
      let _ ← expression fuel
      block fuel
      otherwise fuel
    else if (← accept (word "try")) then
      block fuel
      let caught ← handlers fuel
      if caught then otherwise fuel
      if (← accept (word "finally")) then block fuel
      else if !caught then failure
    else if (← accept (word "class")) then
      name
      if (← accept (mark "(")) then arguments fuel
      block fuel
    else if (← accept (mark "@")) then
      let _ ← expression fuel
      expect .lineEnd
      match (← peek) with
      | some (.name "def") | some (.name "class") | some (.name "async") | some (.op "@") =>
        statement fuel
      | _ => failure
    else simple fuel

/-- The condition and block of a branch, and the branches behind it. -/
def branches : (fuel : Nat) → Reads Unit
  | 0 => failure
  | fuel + 1 => do
    let _ ← expression fuel
    block fuel
    if (← accept (word "elif")) then branches fuel else otherwise fuel

/-- The block for all other cases, if there is one. -/
def otherwise : (fuel : Nat) → Reads Unit
  | 0 => failure
  | fuel + 1 => do
    if (← accept (word "else")) then block fuel

/-- Blocks that handle failures; whether there are any. -/
def handlers : (fuel : Nat) → Reads Bool
  | 0 => failure
  | fuel + 1 => do
    if (← accept (word "except")) then
      let _ ← accept (mark "*")
      if (← startsExpression) then
        let _ ← items fuel
        if (← accept (word "as")) then name
      block fuel
      let _ ← handlers fuel
      return true
    return false

/-- A colon and what it governs: the rest of the line, or indented lines. -/
def block : (fuel : Nat) → Reads Unit
  | 0 => failure
  | fuel + 1 => do
    expect (mark ":")
    if (← accept .lineEnd) then
      expect .indent
      indented fuel
    else simple fuel

/-- The statements of an indented block, and its end. -/
def indented : (fuel : Nat) → Reads Unit
  | 0 => failure
  | fuel + 1 => do
    statement fuel
    if !(← accept .dedent) then indented fuel

end

/-- Statements up to the end. -/
def all : (fuel : Nat) → Reads Unit
  | 0 => failure
  | fuel + 1 => do
    if (← get).isEmpty then return
    statement fuel
    all fuel

/-- Whether a text is made up of statements. -/
def recognises (text : String) : Bool :=
  match Token.ofText? (Text.withLineFeeds text).toList with
  | none => false
  | some tokens => ((all (12 * tokens.length + 24)).run tokens).isSome

end Statements

end Check

end Scaffold
