import Scaffold.Shell.Sum
import Scaffold.Shell.Utilities

/-!
# Execution of shell scripts

Words are expanded into fields: expansions outside quotes are split at blanks, and fields with signs of
a file pattern become the files they find.  Commands run on a machine one after the other; what runs
on the left of a pipe, between parentheses, or for its output works on a copy of the bindings and
directory, and shares the tree.

The fuel bounds the number of nested and repeated commands; a script that uses it up counts as one that
never ends.
-/

namespace Scaffold

namespace Shell

/-- Why a script stops here. -/
inductive Stop where
  | leave
  /-- The function or file that is running ends. -/
  | back
  | stopLoop (levels : Nat)
  | nextRound (levels : Nat)
  | spent
  deriving DecidableEq, Inhabited, Repr

/-- An execution on a machine, which may stop. -/
abbrev Exec := ExceptT Stop (StateM Machine)

/-! ## Fields -/

/-- A part of an expanded word. -/
inductive Fragment where
  /-- Characters; those of an expansion outside quotes are split. -/
  | chars (quoted splits : Bool) (s : List Char)
  | cut
  deriving DecidableEq, Inhabited, Repr

/-- Characters, each with whether it was quoted. -/
abbrev Field := List (Char × Bool)

/-- The fields so far, and the one begun. -/
abbrev Fields := List Field × Option Field

/-- Ends the field begun. -/
def endField (fs : Fields) : Fields :=
  match fs.2 with
  | some f => (fs.1 ++ [f], none)
  | none => fs

/-- Adds a character that separates fields: a blank ends a field, and another sign ends one even if it
is empty. -/
def separate (fs : Fields) (c : Char) : Fields :=
  if c == ' ' || c == '\t' || c == '\n' then endField fs else (fs.1 ++ [fs.2.getD []], none)

/-- Adds a fragment. -/
def addFragment (separators : List Char) (fs : Fields) : Fragment → Fields
  | .cut => endField fs
  | .chars quoted false s =>
    if s.isEmpty && !quoted then fs else (fs.1, some (fs.2.getD [] ++ s.map (·, quoted)))
  | .chars quoted true s =>
    s.foldl (fun fs c => if separators.contains c then separate fs c
      else (fs.1, some (fs.2.getD [] ++ [(c, quoted)]))) fs

/-- The fields of fragments. -/
def fieldsOf (separators : List Char) (fragments : List Fragment) : List Field :=
  (endField (fragments.foldl (addFragment separators) ([], none))).1

/-- Fragments whose unquoted characters are split, unless all stand between double quotes. -/
def splitting (quoted : Bool) (fragments : List Fragment) : List Fragment :=
  if quoted then fragments
  else fragments.map fun
    | .chars false _ s => .chars false true s
    | f => f

/-- Fragments as one text. -/
def textOfFragments (fragments : List Fragment) : List Char :=
  fragments.flatMap fun
    | .chars _ _ s => s
    | .cut => [' ']

/-- Whether a field is a pattern of files. -/
def isPatternField (f : Field) : Bool := f.any fun (c, quoted) => !quoted && "*?[".toList.contains c

/-- The parts of a pattern, in which quoted characters stand for themselves. -/
def partsOfField (f : Field) : List Glob.Part :=
  (f.splitBy fun a b => a.2 == b.2).flatMap fun run =>
    if (run.head?.map (·.2)).getD true then run.map fun x => .char x.1
    else Glob.partsFrom 0 (run.map (·.1))

/-- The text of a field. -/
def fieldText (f : Field) : String := String.ofList (f.map (·.1))

/-- The components of a field between its slashes. -/
def fieldComponents (f : Field) : List Field :=
  (f.splitBy fun a b => (a.1 == '/') == (b.1 == '/')).filter fun c => (c.head?.map (·.1)) != some '/'

/-- The files that a pattern finds, or the pattern itself where there are none. -/
def glob (m : Machine) (f : Field) : List String :=
  if !isPatternField f then [fieldText f]
  else
    let absolute := (f.head?.map (·.1)) == some '/'
    let base := if absolute then Path.ofString "/" else m.directory
    let parts := fieldComponents f
    let components := parts.map fun c =>
      if isPatternField c then Glob.Component.wild (partsOfField c) else .name (fieldText c)
    let shown (p : Path) : Bool :=
      let names := p.parts.drop base.parts.length
      (names.zip parts).all fun (n, c) => !Text.startsWith "." n || (c.head?.map (·.1)) == some '.'
    let found := (Glob.select m.tree components base).filter shown
    let names := found.map fun p => if absolute then p.toString else ((p.below? base).getD p).toString
    if names.isEmpty then [fieldText f] else Tree.sorted names

/-! ## Parameters -/

/-- The value of a parameter. -/
def parameter? (m : Machine) (name : String) : Option String :=
  match name with
  | "?" => some (intText m.status)
  | "#" => some (intText m.arguments.length)
  | "0" => some m.name
  | "@" | "*" => if m.arguments.isEmpty then none else some (Text.join " " m.arguments)
  | "-" => some ""
  | "$" => some "1"
  | _ =>
    match name.toList with
    | c :: _ =>
      if Text.isAsciiDigit c then m.arguments[(digitsAt name.toList).1 - 1]? else m.get? name
    | [] => none

/-- A text without a part at the front that fits a pattern. -/
def cutFront (longest : Bool) (p : List Glob.Part) (s : List Char) : List Char :=
  let counts := (List.range (s.length + 1)).filter fun n => Glob.fits p (s.take n)
  match if longest then counts.getLast? else counts.head? with
  | some n => s.drop n
  | none => s

/-- A text without a part at the back that fits a pattern. -/
def cutBack (longest : Bool) (p : List Glob.Part) (s : List Char) : List Char :=
  let counts := (List.range (s.length + 1)).filter fun n => Glob.fits p (s.drop n)
  match if longest then counts.head? else counts.getLast? with
  | some n => s.take n
  | none => s

/-- A copy of the machine for what must not change the bindings; the tree, the buffers, what is left
to read and the time spent stay as the copy leaves them. -/
def isolated (body : Exec Unit) : Exec Unit := fun m =>
  let (r, m') := body.run m
  let back := { m with tree := m'.tree, input := m'.input, buffers := m'.buffers
                       status := m'.status, waited := m'.waited }
  match r with
  | .error .spent => (.error .spent, back)
  | _ => (.ok (), back)

/-- The octets that a body prints. -/
def captured (body : Exec Unit) : Exec (List UInt8) := do
  let i := (← get).buffers.length
  isolated do
    modify fun m => { m with buffers := m.buffers ++ [[]], output := .buffer i }
    body
  let m ← get
  set { m with buffers := m.buffers.take i }
  return m.buffers[i]?.getD []

/-- Complains in the name of the shell, and leaves. -/
def refused {α : Type} (message : String) (status : Int := 2) : Exec α := do
  modify (·.refuse message status)
  throw .leave

/-- Runs a body whose status is tested. -/
def tested (body : Exec Unit) : Exec Unit := fun m =>
  let (r, m') := body.run { m with testing := true }
  (r, { m' with testing := m.testing })

/-- Runs a body, and leaves if it fails where failing ends the script. -/
def unlessStrict (body : Exec Unit) : Exec Unit := do
  body
  let m ← get
  if m.strict && !m.testing && m.status != 0 then throw .leave

/-- Runs a body that ends where it says so, without leaving. -/
def returning (body : Exec Unit) : Exec Unit := fun m =>
  match body.run m with
  | (.error .back, m') => (.ok (), m')
  | r => r

/-- The outcome of reading a part of a script. -/
def parsed {α : Type} (r : Except ScriptFault α) : Exec α :=
  match r with
  | .ok a => return a
  | .error e => refused e.message

/-- The number that a builtin is called with. -/
def numberOr (name : String) (usual : Int) (args : List String) : Exec Int := do
  match args with
  | a :: _ =>
    if a = "" || !a.toList.all Text.isAsciiDigit then refused (name ++ ": Illegal number: " ++ a)
    return wholeAt a
  | [] => return usual

/-- Switches an option of the shell. -/
def switch (on : Bool) (m : Machine) : Char → Machine
  | 'e' => { m with strict := on }
  | 'u' => { m with knowing := on }
  | _ => m

/-- Sets options and arguments. -/
def setOptions (m : Machine) : List String → Machine
  | [] => m
  | a :: rest =>
    match a.toList with
    | ['-', '-'] => { m with arguments := rest }
    | '-' :: c :: cs => setOptions ((c :: cs).foldl (switch true) m) rest
    | '+' :: c :: cs => setOptions ((c :: cs).foldl (switch false) m) rest
    | _ => { m with arguments := a :: rest }

/-- Hides the binding of a variable for the function that is running. -/
def hide (m : Machine) (declaration : String) : Machine :=
  let (name, value) := match Text.cut? "=" declaration with
    | some (n, v) => (n, some v)
    | none => (declaration, none)
  let m := { m with hidden := (name, m.get? name) :: m.hidden }
  match value with
  | some v => m.set name v
  | none => m

/-- Brings hidden bindings back. -/
def unhide (m : Machine) : Machine :=
  m.hidden.foldl (fun m e => match e with
    | (name, some v) => m.set name v
    | (name, none) => m.unset name) m

/-- What words are assigned to names, the last name getting all that is left. -/
def assigned (separators : List Char) : List String → List Char → List (String × String)
  | [], _ => []
  | [name], s => [(name, String.ofList (Text.dropBack separators.contains s))]
  | name :: names, s =>
    let word := s.takeWhile (!separators.contains ·)
    let rest := s.drop (word.length + 1)
    (name, String.ofList word) :: assigned separators names (rest.dropWhile separators.contains)

/-- Words in groups of some length.  `fuel` bounds the groups. -/
def groupsFrom (n : Nat) : (fuel : Nat) → List String → List (List String)
  | 0, _ => []
  | fuel + 1, ws => if ws.length ≤ n then [ws] else ws.take n :: groupsFrom n fuel (ws.drop n)

/-- Words in groups of some length. -/
def groupsOf (n : Nat) (ws : List String) : List (List String) := groupsFrom n (ws.length + 1) ws

/-- The builtins that no function hides. -/
def specialNames : List String :=
  [":", "exit", "break", "continue", "return", "export", "readonly", "unset", "shift", "set", "eval",
    "exec", ".", "trap"]

/-- The other builtins. -/
def builtinNames : List String :=
  ["cd", "command", "echo", "false", "local", "printf", "pwd", "read", "test", "true", "type", "wait", "["]

/-- What a name stands for among commands. -/
def whatIs? (m : Machine) (name : String) : Option String :=
  if reserved.contains name || specialNames.contains name || builtinNames.contains name ||
    m.functions.has name then some name
  else if (Utility.find? name).isSome || name = "sh" then
    some (if Text.contains "/" name then name else "/usr/bin/" ++ name)
  else none

mutual

/-- The fragments of a piece. -/
def expandPiece : (fuel : Nat) → Piece → Exec (List Fragment)
  | 0, _ => throw .spent
  | fuel + 1, p => do
    match p with
    | .text quoted s => return [.chars quoted false s]
    | .sum quoted s => do
      let s := textOfFragments (← expandWord fuel (← parsed (quotedWordOf s)))
      match Sum.eval? (← get).bindings s with
      | some (n, bindings) =>
        modify ({ · with bindings })
        return [.chars quoted (!quoted) (intText n).toList]
      | none => refused ("arithmetic expression: expecting primary: " ++ "\"" ++ String.ofList s ++ "\"")
    | .output quoted s => do
      let bs ← captured (runText fuel (← get).line s)
      let text := Text.dropBack (· == '\n') (Utf8.decodeLenient bs).toList
      return [.chars quoted (!quoted) (text.filter (· != Char.ofNat 0))]
    | .parameter quoted name use => do
      let m ← get
      match quoted, name, use with
      | true, "@", .value =>
        return ((m.arguments.map fun a => Fragment.chars true false a.toList).intersperse .cut)
      | _, _, _ =>
      let value := parameter? m name
      let text := (value.getD "").toList
      let isUnset (orEmpty : Bool) : Bool := value.isNone || (orEmpty && text.isEmpty)
      let other (w : List Char) : Exec (List Fragment) := do
        expandWord fuel (← parsed (if quoted then quotedWordOf w else wordOf w))
      let plain : List Fragment := [.chars quoted (!quoted) text]
      let known : Exec Unit := do
        if m.knowing && value.isNone && name != "@" && name != "*" then
          refused (name ++ ": parameter not set")
      let pattern (w : List Char) : Exec (List Glob.Part) := do
        let fields := fieldsOf [] (← expandWord fuel (← parsed (wordOf w)))
        return partsOfField fields.flatten
      match use with
      | .value => do
        known
        return plain
      | .length => do
        known
        return [.chars quoted false (intText (Utf8.encode (String.ofList text)).length).toList]
      | .otherwise orEmpty w => if isUnset orEmpty then return splitting quoted (← other w) else return plain
      | .instead orEmpty w =>
        if isUnset orEmpty then return [.chars quoted false []] else return splitting quoted (← other w)
      | .assign orEmpty w =>
        if isUnset orEmpty then
          let fragments ← other w
          modify (·.set name (String.ofList (textOfFragments fragments)))
          return fragments
        else return plain
      | .required orEmpty w =>
        if isUnset orEmpty then
          let message := String.ofList (textOfFragments (← other w))
          refused (name ++ ": " ++ if message = "" then "parameter not set" else message)
        else return plain
      | .cutFront longest w => return [.chars quoted (!quoted) (cutFront longest (← pattern w) text)]
      | .cutBack longest w => return [.chars quoted (!quoted) (cutBack longest (← pattern w) text)]

/-- The fragments of a word. -/
def expandWord : (fuel : Nat) → Word → Exec (List Fragment)
  | 0, _ => throw .spent
  | fuel + 1, w => do return (← w.mapM (expandPiece fuel)).flatten

/-- The text of a word that is not split. -/
def expandText : (fuel : Nat) → Word → Exec String
  | 0, _ => throw .spent
  | fuel + 1, w => do return String.ofList (textOfFragments (← expandWord fuel w))

/-- The arguments that words give. -/
def expandWords : (fuel : Nat) → List Word → Exec (List String)
  | 0, _ => throw .spent
  | fuel + 1, ws => do
    let fields ← ws.mapM fun w => do
      let fragments ← expandWord fuel w
      return fieldsOf (← get).separators fragments
    let m ← get
    return fields.flatten.flatMap (glob m)

/-- Makes a redirection. -/
def redirect : (fuel : Nat) → Redirect → Exec Unit
  | 0, _ => throw .spent
  | fuel + 1, r => do
    let target ← expandText fuel r.target
    let m ← get
    let path := m.path target
    let lead (sink : Sink) : Exec Unit :=
      modify fun m => if r.descriptor = 2 then { m with errors := sink }
        else if r.descriptor = 1 then { m with output := sink } else m
    let refuse (what why : String) : Exec Unit := do
      modify (·.refuse ("cannot " ++ what ++ " " ++ target ++ ": " ++ why))
      throw (.nextRound 0)
    match r.sign with
    | "<" =>
      if target = "/dev/null" then set { m with input := [] }
      else match m.tree.read path with
        | .ok c => set { m with input := c.toOctets }
        | .error (.notFound _) => refuse "open" "No such file"
        | .error e => refuse "open" (reason e)
    | "<<" => set { m with input := Utf8.encode target }
    | ">&" =>
      match target with
      | "1" => lead m.output
      | "2" => lead m.errors
      | "-" => lead .nowhere
      | _ => do
        modify (·.refuse (target ++ ": Bad file descriptor"))
        throw (.nextRound 0)
    | "<&" => return
    | sign =>
      if target = "/dev/null" then lead .nowhere
      else if target = "/dev/stderr" then lead m.errors
      else if target = "/dev/stdout" then lead m.output
      else
        let old := match sign, m.tree.read path with
          | ">>", .ok c => c
          | _, _ => .text ""
        match m.tree.write path old, m.tree.locate path with
        | .ok tree, .ok place =>
          set { m with tree }
          lead (.file place)
        | .error (.notFound _), _ => refuse "create" "Directory nonexistent"
        | .error e, _ | _, .error e => refuse "create" (reason e)

/-- Runs a body under redirections; where one cannot be made the body does not run. -/
def redirected : (fuel : Nat) → List Redirect → Exec Unit → Exec Unit
  | 0, _, _ => throw .spent
  | fuel + 1, rs, body => fun m =>
    let (made, m₁) := (rs.forM (redirect fuel)).run m
    let (r, m₂) := match made with
      | .ok () => body.run m₁
      | .error (.nextRound 0) => (.ok (), m₁)
      | .error e => (.error e, m₁)
    let readsFile := rs.any fun r => r.descriptor = 0
    (r, { m₂ with output := m.output, errors := m.errors, input := if readsFile then m.input else m₂.input })

/-- Runs a text, which begins at a line, as a script. -/
def runText : (fuel line : Nat) → List Char → Exec Unit
  | 0, _, _ => throw .spent
  | fuel + 1, line, s => do
    let (scripts, flaw) := Script.read line s
    scripts.forM (run fuel)
    match flaw with
    | none => return
    | some f => do
      modify ({ · with line := f.line })
      refused f.fault.message

/-- Runs a function with arguments. -/
def runFunction : (fuel : Nat) → Script → List String → Exec Unit
  | 0, _, _ => throw .spent
  | fuel + 1, body, args => do
    let before ← get
    set { before with arguments := args, hidden := [] }
    returning (run fuel body)
    modify fun m => { unhide m with arguments := before.arguments, hidden := before.hidden }

/-- Runs another shell. -/
def runShell : (fuel : Nat) → (name : String) → List String → Exec Unit
  | 0, _, _ => throw .spent
  | fuel + 1, name, args => isolated do
    modify fun m =>
      { m with name, bindings := m.bindings.restrict m.exported.contains, functions := [], hidden := []
               line := 1, strict := false, knowing := false, testing := false, farewell := none }
    match args with
    | "-c" :: script :: rest =>
      modify fun m => { m with name := rest.headD name, arguments := rest.drop 1 }
      runToEnd fuel script.toList
    | ["-c"] => modify (·.fail (name ++ ": 0: -c requires an argument") 2)
    | file :: rest =>
      let m ← get
      match Utility.readArgument m file with
      | .ok bs =>
        set { m with name := file, arguments := rest }
        runToEnd fuel (Utf8.decodeLenient bs).toList
      | .error _ => modify (·.fail (name ++ ": 0: cannot open " ++ file ++ ": No such file") 2)
    | [] => do
      let (bs, m) := (← get).drain
      set m
      runToEnd fuel (Utf8.decodeLenient bs).toList

/-- Runs a text as the script of a shell, and what was to be run at its end. -/
def runToEnd : (fuel : Nat) → List Char → Exec Unit
  | 0, _ => throw .spent
  | fuel + 1, s => fun m =>
    match (runText fuel 1 s).run m with
    | (.error .spent, m) => (.error .spent, m)
    | (_, m) =>
      match m.farewell with
      | none => (.ok (), m)
      | some text =>
        let (_, m') := (runText fuel 1 text.toList).run { m with farewell := none }
        (.ok (), { m' with status := m.status })

/-- Runs the file of a script in this shell. -/
def runHere : (fuel : Nat) → List String → Exec Unit
  | 0, _ => throw .spent
  | _ + 1, [] => refused ".: filename argument required"
  | fuel + 1, file :: _ => do
    let m ← get
    match Utility.readArgument m file with
    | .ok bs => do
      returning (runText fuel 1 (Utf8.decodeLenient bs).toList)
      modify ({ · with line := m.line })
    | .error _ => refused (".: cannot open " ++ file ++ ": No such file")

/-- Runs a command by its name. -/
def call : (fuel : Nat) → (name : String) → List String → Exec Unit
  | 0, _, _ => throw .spent
  | fuel + 1, name, args => do
    match (← get).functions.get? name with
    | some body =>
      if specialNames.contains name then callBuiltin fuel name args else runFunction fuel body args
    | none => callBuiltin fuel name args

/-- Runs a builtin or a program by its name. -/
def callBuiltin : (fuel : Nat) → (name : String) → List String → Exec Unit
  | 0, _, _ => throw .spent
  | fuel + 1, name, args => do
    match name with
    | ":" => modify (·.done)
    | "echo" => modify (Utility.echo true args)
    | "exit" => do
      modify (·.done (Int.emod (← numberOr name (← get).status args) 256))
      throw .leave
    | "return" => do
      modify (·.done (Int.emod (← numberOr name (← get).status args) 256))
      throw .back
    | "break" => throw (.stopLoop (← numberOr name 1 args).toNat)
    | "continue" => throw (.nextRound (← numberOr name 1 args).toNat)
    | "cd" => do
      let m ← get
      let target := match args with
        | [] => (m.get? "HOME").getD "/"
        | a :: _ => a
      let path := (m.path target).normal
      if m.tree.isDirectory path then
        set ((({ m with directory := path } : Machine).set "PWD" path.toString).done)
      else modify (·.refuse ("cd: can't cd to " ++ target))
    | "export" | "readonly" =>
      for a in args do
        match Text.cut? "=" a with
        | some (n, v) => modify fun m => { m.set n v with exported := n :: m.exported }
        | none => modify fun m => { m with exported := a :: m.exported }
      modify (·.done)
    | "local" => modify fun m => (args.foldl hide m).done
    | "unset" =>
      modify fun m =>
        { m with bindings := m.bindings.restrict fun n => !args.contains n
                 functions := if args.head? == some "-f"
                   then m.functions.restrict fun n => !args.contains n else m.functions }.done
    | "shift" => do
      let m ← get
      let count := (← numberOr name 1 args).toNat
      if m.arguments.length < count then refused "shift: can't shift that many"
      set ({ m with arguments := m.arguments.drop count }.done)
    | "set" => modify fun m => (setOptions m args).done
    | "read" => do
      let m ← get
      match octetLines m.input with
      | [] => set (m.done 1)
      | line :: rest =>
        let text := Text.dropBack (· == '\n') (Utf8.decodeLenient line).toList
        let names := args.filter (!Text.startsWith "-" ·)
        let values := assigned m.separators names (text.dropWhile m.separators.contains)
        set ({ m with input := rest.flatten, bindings := m.bindings.putAll values }.done
          (if line.getLast? == some 10 then 0 else 1))
    | "eval" => runText fuel 1 (Text.join " " args).toList
    | "." => runHere fuel args
    | "trap" =>
      match args with
      | [text, "EXIT"] | [text, "0"] => modify fun m => { m with farewell := some text }.done
      | _ => modify (·.done)
    | "wait" => modify (·.done)
    | "command" =>
      match args with
      | [] => modify (·.done)
      | ["-v", n] => do
        match whatIs? (← get) n with
        | some s => modify fun m => (m.print (s ++ "\n")).done
        | none => modify (·.done 127)
      | a :: rest => callBuiltin fuel a rest
    | "type" =>
      modify (·.done)
      for a in args do
        match whatIs? (← get) a with
        | some s => modify fun m => m.print (a ++ (if s != a then " is " ++ s
            else if reserved.contains a then " is a shell keyword"
            else if m.functions.has a then " is a shell function" else " is a shell builtin") ++ "\n")
        | none => modify fun m => (m.print (a ++ ": not found\n")).done 127
    | "exec" =>
      match args with
      | [] => modify (·.done)
      | a :: rest => do
        callBuiltin fuel a rest
        throw .leave
    | "env" => do
      let isBinding (a : String) : Bool := (Text.cut? "=" a).isSome
      let before ← get
      for a in args.takeWhile isBinding do
        match Text.cut? "=" a with
        | some (n, v) => modify fun m => { m.set n v with exported := n :: m.exported }
        | none => pure ()
      match args.dropWhile isBinding with
      | [] => modify fun m => (m.print (String.join ((m.bindings.restrict m.exported.contains).map
          fun e => e.1 ++ "=" ++ e.2 ++ "\n"))).done
      | a :: rest =>
        if (Utility.find? a).isSome || a = "sh" then callBuiltin fuel a rest
        else modify (·.fail ("env: " ++ Utility.typeset a ++ ": No such file or directory") 127)
      modify fun m => { m with bindings := before.bindings, exported := before.exported }
    | "xargs" => do
      let (bs, m) := (← get).drain
      set m.done
      let words := (split (Utf8.decodeLenient bs)).toOption.getD []
      let (count, command) := match args with
        | "-n" :: n :: rest => ((digitsAt n.toList).1, rest)
        | a :: rest =>
          if Text.startsWith "-n" a then ((digitsAt (a.toList.drop 2)).1, rest) else (words.length, args)
        | [] => (words.length, [])
      for group in groupsOf (max 1 count) words do
        callBuiltin fuel (command.headD "echo") (command.drop 1 ++ group)
    | "sh" | "/bin/sh" | "/usr/bin/sh" => runShell fuel name args
    | _ =>
      match Utility.find? name with
      | some u => modify (u args)
      | none => do
        let m ← get
        if Text.contains "/" name && m.tree.isFile (m.path name) then
          modify (·.refuse (name ++ ": Permission denied") 126)
        else modify (·.refuse (name ++ ": not found") 127)

/-- Runs the rounds of a loop over words. -/
def runEach : (fuel : Nat) → (name : String) → (body : Script) → List String → Exec Unit
  | 0, _, _, _ => throw .spent
  | _ + 1, _, _, [] => return
  | fuel + 1, name, body, w :: ws => do
    modify (·.set name w)
    if (← runRound fuel body) then runEach fuel name body ws

/-- Runs one round of a loop; whether there may be another. -/
def runRound : (fuel : Nat) → Script → Exec Bool
  | 0, _ => throw .spent
  | fuel + 1, body => fun m =>
    match (run fuel body).run m with
    | (.ok (), m) => (.ok true, m)
    | (.error (.stopLoop n), m) =>
      if n ≤ 1 then (.ok false, m.done) else (.error (.stopLoop (n - 1)), m)
    | (.error (.nextRound n), m) =>
      if n ≤ 1 then (.ok true, m.done) else (.error (.nextRound (n - 1)), m)
    | (.error e, m) => (.error e, m)

/-- Runs a script. -/
def run : (fuel : Nat) → Script → Exec Unit
  | 0, _ => throw .spent
  | fuel + 1, s => do
    match s with
    | .nothing => return
    | .seq a b => do
      run fuel a
      run fuel b
    | .both a b => do
      tested (run fuel a)
      if (← get).status = 0 then run fuel b
    | .either a b => do
      tested (run fuel a)
      if (← get).status != 0 then run fuel b
    | .negated a => do
      tested (run fuel a)
      modify fun m => m.done (if m.status = 0 then 1 else 0)
    | .pipe a b => unlessStrict do
      let bs ← captured (run fuel a)
      let left := (← get).input
      isolated do
        modify ({ · with input := bs })
        run fuel b
      modify ({ · with input := left })
    | .subshell a => unlessStrict (isolated (run fuel a))
    | .define name body => modify fun m => { m with functions := m.functions.put name body }.done
    | .redirected a rs => redirected fuel rs (run fuel a)
    | .branch c a b => do
      tested (run fuel c)
      if (← get).status = 0 then run fuel a
      else do
        modify (·.done)
        run fuel b
    | .loop sense c body => do
      tested (run fuel c)
      if ((← get).status = 0) = sense then
        if (← runRound fuel body) then run fuel s
      else modify (·.done)
    | .each name words body => do
      let ws ← match words with
        | some ws => expandWords fuel ws
        | none => pure (← get).arguments
      modify (·.done)
      runEach fuel name body ws
    | .choose subject patterns body rest => do
      let text ← expandText fuel subject
      let fits ← patterns.mapM fun p => do
        return Glob.fits (partsOfField (fieldsOf [] (← expandWord fuel p)).flatten) text.toList
      if fits.any id then run fuel body else run fuel rest
    | .simple line assigns words rs => unlessStrict do
      modify ({ · with line })
      let args ← expandWords fuel words
      let values ← assigns.mapM fun (n, w) => do return (n, ← expandText fuel w)
      match args with
      | [] => do
        let taken := assigns.any fun e => e.2.any fun
          | .output .. => true
          | _ => false
        if !taken then modify (·.done)
        modify fun m => { m with bindings := m.bindings.putAll values }
        redirected fuel rs (pure ())
      | name :: args => do
        let before ← get
        modify fun m =>
          { m with bindings := m.bindings.putAll values, exported := values.map (·.1) ++ m.exported }
        redirected fuel rs (call fuel name args)
        for (n, _) in values do
          modify fun m => (match before.get? n with
            | some v => m.set n v
            | none => m.unset n)
        if !values.isEmpty then modify fun m => { m with exported := before.exported }

end

/-! ## Commands -/

/-- How many nested and repeated commands a script may run. -/
def endurance : Nat := 20000

/-- What is to be executed for a program. -/
def start (p : Program) : Except CommandFault (Exec Unit) :=
  match p with
  | .line text =>
    if text.toList.contains (Char.ofNat 0) then .error .nullCharacter
    else .ok (runToEnd endurance text.toList)
  | .words [] => .error .noProgram
  | .words (name :: args) =>
    if (name :: args).any fun a => a.toList.contains (Char.ofNat 0) then .error .nullCharacter
    else if ["sh", "/bin/sh", "/usr/bin/sh"].contains name then .ok (runShell endurance name args)
    else match Utility.find? name with
      | some u => .ok (modify (u args))
      | none => .error (.notStarted (.notFound (Path.ofString name)))

/-- What a command leaves in an environment. -/
def outcome (environment : Record String) (c : Command) (t : Tree) :
    Except CommandFault CommandOutcome := do
  if !t.isDirectory c.directory then
    throw (.notStarted (if t.present c.directory then .notDirectory c.directory
      else .notFound c.directory))
  let body ← start c.program
  let bindings := environment.restrict fun n => !c.hidden.contains n
  let directory := c.directory.normal
  let machine : Machine :=
    { directory, tree := t, input := c.input, bindings := bindings.put "PWD" directory.toString
      exported := bindings.keys }
  let (r, m) : Except Stop Unit × Machine := body.run machine
  let overdue := match c.limit with
    | some limit => Number.lt (.float limit) (.float m.waited)
    | none => false
  if overdue then throw .timedOut
  match r with
  | .error .spent => throw .timedOut
  | _ =>
    return ⟨m.status, m.buffers[0]?.getD [], m.buffers[1]?.getD [], m.tree⟩

/-- The shell in an environment. -/
def within (environment : Record String) : Scaffold.Shell := outcome environment

end Shell

end Scaffold
