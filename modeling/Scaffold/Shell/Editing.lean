import Scaffold.Pattern.Reader
import Scaffold.Pattern.Search
import Scaffold.Shell.Words
import Scaffold.Text.Utf8

/-!
# Editing lines

Search patterns in the basic way of writing, where signs of repetition and grouping need a backslash,
and the commands of a stream editor: to substitute, delete, print, and stop, each for all lines or for
those that an address names.
-/

namespace Scaffold

namespace Shell

/-! ## Patterns -/

/-- The named classes between brackets. -/
def bracketClasses : List (String × String) :=
  [("[:space:]", "\\s"), ("[:blank:]", " \\t"), ("[:digit:]", "0-9"), ("[:alpha:]", "a-zA-Z"),
    ("[:alnum:]", "a-zA-Z0-9"), ("[:upper:]", "A-Z"), ("[:lower:]", "a-z"), ("[:punct:]", "!-/:-@\\[-_\x7b-~")]

/-- The members of a bracket set up to its end, as search patterns write them, and the rest.  `first`
says that a closing bracket is a member. -/
def bracketSet : (fuel : Nat) → (first : Bool) → List Char → List Char × List Char
  | 0, _, s => ([], s)
  | fuel + 1, first, s =>
    match bracketClasses.findSome? fun (n, p) => (Text.afterStart? n.toList s).map (p, ·) with
    | some (p, rest) =>
      let (more, rest) := bracketSet fuel false rest
      (p.toList ++ more, rest)
    | none =>
      match s with
      | [] => ([], [])
      | ']' :: r =>
        if first then
          let (more, rest) := bracketSet fuel false r
          ('\\' :: ']' :: more, rest)
        else ([']'], r)
      | c :: r =>
        let (more, rest) := bracketSet fuel false r
        ((if c == '\\' || c == '[' then ['\\', c] else [c]) ++ more, rest)

/-- A pattern in the basic way of writing, or with `extended` in the usual one, as search patterns
write it.  `fuel` bounds its characters. -/
def patternText (extended : Bool) : (fuel : Nat) → (first : Bool) → List Char → List Char
  | 0, _, _ => []
  | fuel + 1, first, s =>
    match s with
    | [] => []
    | '[' :: '^' :: r =>
      let (inside, rest) := bracketSet fuel true r
      '[' :: '^' :: inside ++ patternText extended fuel false rest
    | '[' :: r =>
      let (inside, rest) := bracketSet fuel true r
      '[' :: inside ++ patternText extended fuel false rest
    | '\\' :: c :: r =>
      let kept := if !extended && "()\x7b\x7d|+?".toList.contains c then [c] else ['\\', c]
      kept ++ patternText extended fuel (!extended && c == '(') r
    | '*' :: r =>
      (if first && !extended then ['\\', '*'] else ['*']) ++ patternText extended fuel false r
    | c :: r =>
      let kept := if !extended && "()\x7b\x7d|+?".toList.contains c then ['\\', c] else [c]
      kept ++ patternText extended fuel (first && c == '^') r

/-- The pattern that a text writes. -/
def compilePattern? (extended ignoreCase : Bool) (s : List Char) : Option Pattern.Compiled :=
  Pattern.compile? (String.ofList (patternText extended (s.length + 1) true s)) { ignoreCase }

/-! ## Commands -/

/-- Which lines a command is for. -/
inductive Address where
  | line (n : Nat)
  | last
  | fits (p : Pattern.Compiled)

/-- What is done to a line. -/
inductive Edit where
  | substitute (p : Pattern.Compiled) (replaced : List Char) (all : Bool) (nth : Nat) (printed : Bool)
  | delete
  | print
  | quit
  /-- Prints a text behind the line, before it, or in its place. -/
  | append (text : List Char)
  | insert (text : List Char)
  | change (text : List Char)
  /-- Puts characters in the place of others. -/
  | translate (these others : List Char)
  /-- Prints the number of the line. -/
  | number

/-- A command: the lines it is for, and what it does. -/
structure EditCommand where
  start : Option Address := none
  stop : Option Address := none
  outside : Bool := false
  edit : Edit

/-- A text up to a sign without a backslash before it, which the backslash then loses; and the rest. -/
def upTo (sign : Char) : List Char → Option (List Char × List Char)
  | [] => none
  | '\\' :: c :: s =>
    (upTo sign s).map fun (a, b) => ((if c == sign then [c] else ['\\', c]) ++ a, b)
  | c :: s => if c == sign then some ([], s) else (upTo sign s).map fun (a, b) => (c :: a, b)

/-- An address at the front of a text. -/
def address? (extended : Bool) (s : List Char) : Option (Address × List Char) :=
  match s with
  | '$' :: r => some (.last, r)
  | '/' :: r => do
    let (inside, rest) ← upTo '/' r
    return (.fits (← compilePattern? extended false inside), rest)
  | s =>
    let ds := s.takeWhile Text.isAsciiDigit
    if ds.isEmpty then none
    else some (.line (ds.foldl (fun n d => n * 10 + (d.toNat - 48)) 0), s.drop ds.length)

/-- The text of a command up to the end of its line, and the rest.  A backslash and blanks may stand in
front of it. -/
def editText (s : List Char) : List Char × List Char :=
  let isGap (c : Char) : Bool := c == ' ' || c == '\t'
  let s := s.dropWhile isGap
  let s := match s with
    | '\\' :: '\n' :: r => r
    | '\\' :: r => r
    | s => s
  (s.takeWhile (· != '\n'), s.dropWhile (· != '\n'))

/-- A command at the front of a text, behind its addresses, and the rest. -/
def edit? (extended : Bool) (s : List Char) : Option (Edit × List Char) :=
  match s with
  | 'd' :: r => some (.delete, r)
  | 'p' :: r => some (.print, r)
  | 'q' :: r => some (.quit, r)
  | '=' :: r => some (.number, r)
  | 'a' :: r => let (text, rest) := editText r; some (.append text, rest)
  | 'i' :: r => let (text, rest) := editText r; some (.insert text, rest)
  | 'c' :: r => let (text, rest) := editText r; some (.change text, rest)
  | 'y' :: sign :: r => do
    let (these, r) ← upTo sign r
    let (others, r) ← upTo sign r
    if these.length = others.length then some (.translate these others, r) else none
  | 's' :: sign :: r => do
    let (search, r) ← upTo sign r
    let (replaced, r) ← upTo sign r
    let isFlag (c : Char) := "gpiI".toList.contains c || Text.isAsciiDigit c
    let flags := r.takeWhile isFlag
    let p ← compilePattern? extended (flags.contains 'i' || flags.contains 'I') search
    let nth := (flags.filter Text.isAsciiDigit).foldl (fun n d => n * 10 + (d.toNat - 48)) 0
    return (.substitute p replaced (flags.contains 'g') (max 1 nth) (flags.contains 'p'), r.drop flags.length)
  | _ => none

/-- The commands of an editor's script.  `fuel` bounds their number. -/
def editCommands? (extended : Bool) : (fuel : Nat) → List Char → Option (List EditCommand)
  | 0, _ => some []
  | fuel + 1, s =>
    match s.dropWhile fun c => " \t\n;".toList.contains c with
    | [] => some []
    | s => do
      let (start, s) := match address? extended s with
        | some (a, r) => (some a, r)
        | none => (none, s)
      let (stop, s) := match s with
        | ',' :: r => match address? extended r with
          | some (a, r) => (some a, r)
          | none => (none, s)
        | s => (none, s)
      let s := s.dropWhile (· == ' ')
      let (outside, s) := match s with
        | '!' :: r => (true, r)
        | s => (false, s)
      let (edit, rest) ← edit? extended s
      return { start, stop, outside, edit } :: (← editCommands? extended fuel rest)

/-! ## Lines -/

/-- The text that stands for a match. -/
def replacement (text : List Char) (m : Pattern.Match) : List Char → List Char
  | [] => []
  | '\\' :: 'n' :: r => '\n' :: replacement text m r
  | '\\' :: c :: r =>
    let here := if Text.isAsciiDigit c then
        if c == '0' then (text.drop m.start).take (m.stop - m.start)
        else (m.group? (c.toNat - 48)).getD []
      else [c]
    here ++ replacement text m r
  | '&' :: r => (text.drop m.start).take (m.stop - m.start) ++ replacement text m r
  | c :: r => c :: replacement text m r

/-- A line with matches replaced from the `nth` on, and whether there was one. -/
def substituted (p : Pattern.Compiled) (replaced : List Char) (all : Bool) (nth : Nat) (text : List Char) :
    List Char × Bool :=
  let found := (p.all text).drop (nth - 1)
  let found := if all then found else found.take 1
  let (out, last) := found.foldl
    (fun (out, at') m => (out ++ (text.drop at').take (m.start - at') ++ replacement text m replaced, m.stop))
    (([] : List Char), 0)
  (out ++ text.drop last, !found.isEmpty)

/-- Whether a line fits an address. -/
def Address.holds (a : Address) (number : Nat) (isLast : Bool) (text : List Char) : Bool :=
  match a with
  | .line n => n == number
  | .last => isLast
  | .fits p => (p.search? text).isSome

/-- Whether a command is for a line, and whether its range goes on behind it. -/
def EditCommand.applies (c : EditCommand) (inside : Bool) (number : Nat) (isLast : Bool)
    (text : List Char) : Bool × Bool :=
  match c.start, c.stop with
  | none, _ => (!c.outside, false)
  | some a, none => (a.holds number isLast text != c.outside, false)
  | some a, some b =>
    let starts := inside || a.holds number isLast text
    let ends := match b with
      | .line n => n ≤ number
      | b => inside && b.holds number isLast text
    (starts != c.outside, starts && !ends)

/-- A line under the editor. -/
structure EditState where
  text : List Char
  printed : List (List Char) := []
  /-- What is printed behind the line. -/
  behind : List (List Char) := []
  deleted : Bool := false
  stopped : Bool := false

/-- Does what a command says. -/
def Edit.apply (e : Edit) (number : Nat) (s : EditState) : EditState :=
  match e with
  | .append text => { s with behind := s.behind ++ [text] }
  | .insert text => { s with printed := s.printed ++ [text] }
  | .change text => { s with printed := s.printed ++ [text], deleted := true }
  | .number => { s with printed := s.printed ++ [Nat.toDigits 10 number] }
  | .translate these others =>
    { s with text := s.text.map fun c => ((these.idxOf? c).bind (others[·]?)).getD c }
  | .delete => { s with deleted := true }
  | .print => { s with printed := s.printed ++ [s.text] }
  | .quit => { s with stopped := true }
  | .substitute p replaced all nth shown =>
    let (text, found) := substituted p replaced all nth s.text
    { s with text, printed := if shown && found then s.printed ++ [text] else s.printed }

/-- A line through all commands; the ranges that go on behind it come along. -/
def editLine (number : Nat) (isLast : Bool) (commands : List (EditCommand × Bool)) (text : List Char) :
    EditState × List (EditCommand × Bool) :=
  commands.foldl (fun (s, out) (c, inside) =>
    if s.deleted || s.stopped then (s, out ++ [(c, inside)])
    else
      let (now, later) := c.applies inside number isLast s.text
      (if now then c.edit.apply number s else s, out ++ [(c, later)]))
    ({ text }, [])

/-- The lines that an editor prints. -/
def editLines (quiet : Bool) : (number : Nat) → List (EditCommand × Bool) → List (List Char) →
    List (List Char)
  | _, _, [] => []
  | number, commands, text :: rest =>
    let (s, commands) := editLine number rest.isEmpty commands text
    let here := s.printed ++ (if quiet || s.deleted then [] else [s.text]) ++ s.behind
    if s.stopped then here else here ++ editLines quiet (number + 1) commands rest

end Shell

end Scaffold
