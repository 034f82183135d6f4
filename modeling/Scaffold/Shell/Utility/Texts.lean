import Scaffold.Shell.Utility.Basic

/-!
# Utilities for texts

Printing, and filters: what goes in is lines, words or octets, and what comes out is some of them,
counted, ordered or changed.
-/

namespace Scaffold

namespace Shell

namespace Utility

/-- Prints its arguments. -/
def echo (escapes : Bool) : Utility := fun args m =>
  let (quiet, args) := match args with
    | "-n" :: rest => (true, rest)
    | args => (false, args)
  let text := Text.join " " args
  let (bs, stop) := if escapes then unescaped true text else (Utf8.encode text, false)
  (m.printOctets (if quiet || stop then bs else bs ++ [10])).done

/-- Prints by a format. -/
def printf : Utility := fun args m =>
  match args with
  | [] => m.refuse "printf: usage: printf format [arg ...]"
  | "--" :: format :: args | format :: args =>
    let (bs, faults) := formatted format args
    faults.foldl (fun m f => m.refuse ("printf: " ++ f) 1) (m.printOctets bs).done

/-- Lines with their numbers in front. -/
def numbered (ls : List String) : List String :=
  (ls.zip (List.range ls.length)).map fun (l, i) => alignRight 6 (countText (i + 1)) ++ "\t" ++ l

/-- Prints files. -/
def cat : Utility := fun args m =>
  let (letters, files) := options args
  filter (.usual "cat") (fun bs => if letters.contains 'n' then unlines (numbered (textLines bs)) else bs) files m

/-- The lines of octets in reverse order. -/
def tac : Utility := fun args m => filter ⟨fun f e => "tac: failed to open " ++ quoted f ++ " for reading: " ++ reason e, 1⟩ (fun bs => (octetLines bs).reverse.flatten) (options args).2 m

/-- Each line backwards. -/
def rev : Utility := fun args m =>
  filter ⟨fun f e => "rev: cannot open " ++ f ++ ": " ++ reason e, 1⟩ (fun bs => unlines ((textLines bs).map fun l => String.ofList l.toList.reverse)) (options args).2 m

/-- A part of the input that a number bounds. -/
structure Portion where
  count : Nat := 10
  /-- Whether octets count, and not lines. -/
  ofOctets : Bool := false
  /-- Whether the number says where to begin, or where to end counting from the back. -/
  turned : Bool := false
  files : List String := []

/-- The portion that arguments ask for; `sign` turns its number. -/
def Portion.ofArguments (sign : Char) (args : List String) : Portion :=
  let at' (ofOctets : Bool) (n : String) (rest : List String) : Portion :=
    { count := (digitsAt (n.toList.dropWhile fun c => c == '-' || c == '+')).1, ofOctets
      turned := n.toList.head? == some sign, files := rest }
  match args with
  | "-n" :: n :: rest => at' false n rest
  | "-c" :: n :: rest => at' true n rest
  | a :: rest =>
    match a.toList with
    | '-' :: 'n' :: n => at' false (String.ofList n) rest
    | '-' :: 'c' :: n => at' true (String.ofList n) rest
    | '-' :: c :: cs => if Text.isAsciiDigit c then at' false (String.ofList (c :: cs)) rest else { files := args }
    | _ => { files := args }
  | [] => {}

/-- Prints the first lines or octets, or all but the last. -/
def head : Utility := fun args m =>
  let p := Portion.ofArguments '-' args
  let first {α : Type} (xs : List α) : List α := xs.take (if p.turned then xs.length - p.count else p.count)
  filter (.ofOpening "head") (fun bs => if p.ofOctets then first bs else (first (octetLines bs)).flatten) p.files m

/-- Prints the last lines or octets, or those from a number on. -/
def tail : Utility := fun args m =>
  let p := Portion.ofArguments '+' args
  let last {α : Type} (xs : List α) : List α := xs.drop (if p.turned then p.count - 1 else xs.length - p.count)
  filter (.ofOpening "tail") (fun bs => if p.ofOctets then last bs else (last (octetLines bs)).flatten) p.files m

/-- The number of words. -/
def wordCount (bs : List UInt8) : Nat :=
  let isGap (b : UInt8) := b == 32 || (9 ≤ b && b ≤ 13)
  (bs.foldl (fun (n, inside) b => if isGap b then (n, false) else (if inside then n else n + 1, true))
    (0, false)).1

/-- The counts of octets that letters ask for: of lines, words, characters and octets. -/
def countsOf (letters : List Char) (bs : List UInt8) : List Nat :=
  let wants (c : Char) := letters.contains c
  let usual := letters.isEmpty
  (if wants 'l' || usual then [(bs.filter (· == 10)).length] else []) ++
    (if wants 'w' || usual then [wordCount bs] else []) ++
    (if wants 'm' then [(Utf8.decodeLenient bs).length] else []) ++
    (if wants 'c' || usual then [bs.length] else [])

/-- Counts lines, words and octets.  Several counts are aligned, by the size of the files. -/
def wc : Utility := fun args m =>
  let (letters, files) := options args
  let line (width : Nat) (ns : List Nat) (name : String) : String :=
    Text.join " " (ns.map fun n => alignRight width (countText n)) ++ (if name = "" then "" else " " ++ name) ++ "\n"
  let alone := files.length ≤ 1 && (countsOf letters []).length = 1
  match files with
  | [] =>
    let (bs, m) := m.drain
    (m.print (line (if alone then 0 else 7) (countsOf letters bs) "")).done
  | files =>
    let whole := (files.map fun f => (readArgument m f).toOption.getD []).flatten
    let width := if alone then 0 else if files.contains "-" then 7 else (countText whole.length).length
    let m := files.foldl (fun (m : Machine) f => match readArgument m f with
      | .ok bs => m.print (line width (countsOf letters bs) f)
      | .error e => m.fail ("wc: " ++ f ++ ": " ++ reason e)) m.done
    if files.length ≤ 1 then m else m.print (line width (countsOf letters whole) "total")

/-- The characters of a set with ranges. -/
def members : (fuel : Nat) → List Char → List Char
  | 0, _ => []
  | fuel + 1, s =>
    let range (a b : Char) := (List.range (b.toNat + 1 - a.toNat)).map fun i => Char.ofNat (a.toNat + i)
    let named : List (String × List Char) :=
      [("[:upper:]", range 'A' 'Z'), ("[:lower:]", range 'a' 'z'), ("[:digit:]", range '0' '9'),
        ("[:alpha:]", range 'A' 'Z' ++ range 'a' 'z'), ("[:space:]", [' ', '\t', '\n', '\r']),
        ("[:alnum:]", range '0' '9' ++ range 'A' 'Z' ++ range 'a' 'z')]
    match named.findSome? fun (n, cs) => (Text.afterStart? n.toList s).map (cs, ·) with
    | some (cs, rest) => cs ++ members fuel rest
    | none =>
      match s with
      | [] => []
      | '\\' :: 'n' :: r => '\n' :: members fuel r
      | '\\' :: 't' :: r => '\t' :: members fuel r
      | '\\' :: c :: r => c :: members fuel r
      | a :: '-' :: b :: r => range a b ++ members fuel r
      | c :: r => c :: members fuel r

/-- Characters with runs of those that satisfy `p` made one. -/
def squeeze (p : Char → Bool) : List Char → List Char
  | a :: b :: s => if a == b && p a then squeeze p (b :: s) else a :: squeeze p (b :: s)
  | s => s

/-- Translates, deletes or squeezes characters. -/
def tr : Utility := fun args m =>
  let (letters, sets) := options args
  let set (i : Nat) := let s := (sets[i]?.getD "").toList; members (s.length + 1) s
  let (source, target) := (set 0, set 1)
  let isIn (c : Char) := source.contains c != (letters.contains 'c' || letters.contains 'C')
  let translated (c : Char) : Char :=
    if target.isEmpty || !isIn c then c
    else match source.idxOf? c with
      | some i => target[i]?.getD (target.getLastD c)
      | none => target.getLastD c
  let (bs, m) := m.drain
  let s := (Utf8.decodeLenient bs).toList
  let out := if letters.contains 'd' then s.filter (!isIn ·)
    else s.map translated
  let squeezed := if letters.contains 's' then squeeze (if target.isEmpty then isIn else target.contains) out else out
  (m.print (String.ofList squeezed)).done

/-- Sorts lines: as texts or as numbers, each one once where that is asked for. -/
def sort : Utility := fun args m =>
  let (letters, files) := options args
  filter ⟨fun f e => "sort: cannot read: " ++ f ++ ": " ++ reason e, 2⟩ (fun bs =>
    let key (s : String) := wholeAt (Text.trim s)
    let before (a b : String) : Bool :=
      if letters.contains 'n' && key a != key b then decide (key a < key b)
      else if letters.contains 'f' && Text.upper a != Text.upper b then decide (Text.upper a < Text.upper b)
      else decide (a ≤ b)
    let ordered := (textLines bs).mergeSort fun a b => if letters.contains 'r' then before b a else before a b
    let same (a b : String) : Bool := if letters.contains 'n' then key a == key b else a == b
    unlines (if letters.contains 'u' then (ordered.splitBy same).filterMap (·.head?) else ordered)) files m

/-- Drops lines that repeat the one before. -/
def uniq : Utility := fun args m =>
  let (letters, files) := options args
  filter (.usual "uniq") (fun bs =>
    let groups := ((textLines bs).splitBy (· == ·)).filter fun g =>
      (!letters.contains 'd' || 1 < g.length) && (!letters.contains 'u' || g.length = 1)
    unlines <| groups.map fun g =>
      (if letters.contains 'c' then alignRight 7 (countText g.length) ++ " " else "") ++ g.headD "")
    files m

/-- Prints fields of lines, or characters. -/
def cut : Utility := fun args m =>
  let rec take (args : List String) (gap : Char) (fields : String) (chars : Bool) :
      Char × String × Bool × List String :=
    match args with
    | "-d" :: d :: rest => take rest (d.toList.headD gap) fields chars
    | "-f" :: f :: rest => take rest gap f false
    | "-c" :: f :: rest => take rest gap f true
    | a :: rest =>
      if Text.startsWith "-d" a then take rest ((a.toList.drop 2).headD gap) fields chars
      else if Text.startsWith "-f" a then take rest gap (Text.drop 2 a) false
      else if Text.startsWith "-c" a then take rest gap (Text.drop 2 a) true
      else (gap, fields, chars, a :: rest)
    | [] => (gap, fields, chars, [])
  let (gap, fields, chars, files) := take args '\t' "" false
  let wanted (i : Nat) : Bool := (Text.split "," fields).any fun part =>
    match Text.cut? "-" part with
    | none => (digitsAt part.toList).1 == i
    | some (a, b) =>
      (digitsAt a.toList).1 ≤ i && (b = "" || i ≤ (digitsAt b.toList).1)
  let kept {α : Type} (xs : List α) : List α :=
    (xs.zip (List.range xs.length)).filterMap fun (x, i) => if wanted (i + 1) then some x else none
  let mark := String.ofList [gap]
  filter (.usual "cut") (fun bs => if chars then (octetLines bs).flatMap fun l =>
      kept (if l.getLast? == some 10 then l.dropLast else l) ++ [10]
    else unlines <| (textLines bs).map fun l => if Text.contains mark l then Text.join mark (kept (Text.split mark l)) else l) files m

/-- Copies what it reads to its output and into files. -/
def tee : Utility := fun args m =>
  let (letters, files) := options args
  let (bs, m) := m.drain
  let m := files.foldl (fun (m : Machine) f =>
    let old := if letters.contains 'a' then (readArgument m f).toOption.getD [] else []
    match m.tree.write (m.path f) (.ofOctets (old ++ bs)) with
    | .ok tree => { m with tree }
    | .error e => m.fail ("tee: " ++ f ++ ": " ++ reason e)) m.done
  m.printOctets bs

/-- Prints numbers in order. -/
def seq : Utility := fun args m =>
  let ns := args.map wholeAt
  let (low, step, high) := match ns with
    | [b] => (1, 1, b)
    | [a, b] => (a, 1, b)
    | a :: s :: b :: _ => (a, s, b)
    | [] => (1, 1, 0)
  let count := if step = 0 then 0 else ((high - low) / step + 1).toNat
  (m.print (String.join ((List.range count).map fun (i : Nat) => intText (low + step * i) ++ "\n"))).done

end Utility

end Shell

end Scaffold
