import Scaffold.Shell.Editing
import Scaffold.Shell.Utility.Basic

/-!
# Utilities that search and edit

Lines that fit a pattern, and the stream editor.
-/

namespace Scaffold

namespace Shell

namespace Utility

/-- A pattern for a text as it stands. -/
def literalPattern (s : List Char) : List Char :=
  s.flatMap fun c => if isNameChar c || 127 < c.toNat then [c] else ['\\', c]

/-- The pattern that options and a text ask for: a word or a whole line, in either way of writing. -/
def searchPattern? (letters : List Char) (text : String) : Option Pattern.Compiled :=
  let has (c : Char) := letters.contains c
  let inside := if has 'F' then literalPattern text.toList
    else patternText (has 'E') (text.length + 1) true text.toList
  let pattern := "(?:" ++ String.ofList inside ++ ")"
  let pattern := if has 'x' then "^" ++ pattern ++ "$" else pattern
  let pattern := if has 'w' then "(?<!\\w)" ++ pattern ++ "(?!\\w)" else pattern
  Pattern.compile? pattern { ignoreCase := has 'i' || has 'y' }

/-- The files in a directory and below it, by the path that leads there. -/
def filesBelow (m : Machine) (shown : String) : List String :=
  match m.tree.look (m.path shown), m.tree.locate (m.path shown) with
  | .ok .directory, .ok place =>
    let found := m.tree.entries.filter fun e => place.isPrefixOf e.1 && e.2 != .directory
    (found.map fun e => shown ++ "/" ++ Text.join "/" (e.1.drop place.length)).mergeSort
      fun a b => decide (a ≤ b)
  | _, _ => [shown]

/-- What is printed about the lines of one file that fit, with what stands in front of each. -/
def foundText (letters : List Char) (p : Pattern.Compiled) (name : String) (ls : List (String × Nat)) :
    List String :=
  let has (c : Char) := letters.contains c
  let mark (n : Nat) : String := name ++ if has 'n' then countText (n + 1) ++ ":" else ""
  if has 'c' then [name ++ countText ls.length]
  else if has 'o' then
    ls.flatMap fun (l, n) => ((p.all l.toList).filter fun o => o.start < o.stop).map fun o =>
      mark n ++ String.ofList ((l.toList.drop o.start).take (o.stop - o.start))
  else ls.map fun (l, n) => mark n ++ l

/-- Prints lines that fit a pattern.  The status is zero if there are any, and two where a file could not
be read. -/
def grep : Utility := fun args m =>
  let (letters, rest) := options args
  let has (c : Char) := letters.contains c
  match rest with
  | [] => m.fail "Usage: grep [OPTION]... PATTERNS [FILE]..." 2
  | text :: files =>
    match searchPattern? letters text with
    | none => m.fail "grep: Invalid regular expression" 2
    | some p =>
      let deep := has 'r' || has 'R'
      let files := if deep then files.flatMap (filesBelow m) else if files.isEmpty then ["-"] else files
      let named := (deep || 1 < files.length || has 'H') && !has 'h'
      let (m, any, bad) := files.foldl (fun ((m : Machine), any, bad) f =>
        match readArgument m f with
        | .error e =>
          (if has 's' then m else m.complain ("grep: " ++ f ++ ": " ++ reason e), any, true)
        | .ok bs =>
          let ls := textLines bs
          let found := (ls.zip (List.range ls.length)).filter fun l => (p.search? l.1.toList).isSome != has 'v'
          let shown := if f = "-" then "(standard input)" else f
          let lines := if has 'q' then []
            else if has 'l' then if found.isEmpty then [] else [shown]
            else if has 'L' then if found.isEmpty then [shown] else []
            else foundText letters p (if named then shown ++ ":" else "") found
          (m.printOctets (unlines lines), any || !found.isEmpty, bad)) (m, false, false)
      m.done (if any && has 'q' then 0 else if bad then 2 else if any then 0 else 1)

/-- Edits lines by a script. -/
def sed : Utility := fun args m =>
  let rec take (args : List String) (quiet extended inPlace : Bool) (script : List String) :
      Bool × Bool × Bool × List String × List String :=
    match args with
    | "-n" :: rest => take rest true extended inPlace script
    | "-E" :: rest | "-r" :: rest => take rest quiet true inPlace script
    | "-i" :: rest => take rest quiet extended true script
    | "-e" :: s :: rest => take rest quiet extended inPlace (script ++ [s])
    | rest => (quiet, extended, inPlace, script, rest)
  let (quiet, extended, inPlace, script, rest) := take args false false false []
  let (script, files) := match script, rest with
    | [], s :: files => ([s], files)
    | script, files => (script, files)
  let text := (Text.join "\n" script).toList
  match editCommands? extended (text.length + 1) text with
  | none => m.fail "sed: -e expression #1, char 0: invalid command" 1
  | some commands =>
    let edited (bs : List UInt8) : List UInt8 :=
      let ended := bs.getLast? == some 10 || bs.isEmpty
      let out := unlines ((editLines quiet 1 (commands.map (·, false))
        ((textLines bs).map String.toList)).map String.ofList)
      if ended then out else out.dropLast
    if inPlace then
      files.foldl (fun m f => match readArgument m f with
        | .ok bs => match m.tree.write (m.path f) (.ofOctets (edited bs)) with
          | .ok tree => { m with tree }
          | .error _ => m
        | .error e => m.fail ("sed: can't read " ++ f ++ ": " ++ reason e) 2) m.done
    else
      let (bs, m) := files.foldl (fun (bs, m) f => match readArgument m f with
          | .ok more => (bs ++ more, m)
          | .error e => (bs, m.fail ("sed: can't read " ++ f ++ ": " ++ reason e) 2))
        (if files.isEmpty then (m.done 0).drain else ([], m.done 0))
      m.printOctets (edited bs)

end Utility

end Shell

end Scaffold
