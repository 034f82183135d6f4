import Scaffold.Shell.Editing
import Scaffold.Shell.Utility.Basic

/-!
# Utilities for tests and sums

Tests of texts, numbers and files, and expressions with one sign.
-/

namespace Scaffold

namespace Shell

namespace Utility

/-- Compares numbers by an operator. -/
def compareNumbers? (op : String) (a b : Int) : Option Bool :=
  match op with
  | "-eq" => some (a == b)
  | "-ne" => some (a != b)
  | "-lt" => some (a < b)
  | "-le" => some (a ≤ b)
  | "-gt" => some (b < a)
  | "-ge" => some (b ≤ a)
  | _ => none

/-- Whether something about one argument holds. -/
def holdsOf? (m : Machine) (op a : String) : Option Bool :=
  match op with
  | "-n" => some (a != "")
  | "-z" => some (a = "")
  | "-e" | "-r" | "-w" => some (m.tree.present (m.path a))
  | "-f" => some (m.tree.isFile (m.path a))
  | "-d" | "-x" => some (m.tree.isDirectory (m.path a))
  | "-s" => some (match m.tree.look (m.path a) with
    | .ok (.file c) => !c.toOctets.isEmpty
    | .ok .directory => true
    | .error _ => false)
  | "-L" | "-h" | "-t" => some false
  | _ => none

/-- A whole number and nothing else. -/
def wholeNumber (s : String) : Except String Int :=
  let t := Text.trim s
  let digits := match t.toList with
    | '-' :: ds | '+' :: ds => ds
    | ds => ds
  if digits.isEmpty || !digits.all Text.isAsciiDigit then .error ("Illegal number: " ++ s) else .ok (wholeAt t)

/-- Whether a test holds, or why it cannot be read.  `fuel` bounds its length. -/
def testHolds (m : Machine) : (fuel : Nat) → List String → Except String Bool
  | 0, args => .error (args.headD "" ++ ": unexpected operator")
  | fuel + 1, args =>
    match args with
    | [] => .ok false
    | [a] => .ok (a != "")
    | [a, b] =>
      if a = "!" then (testHolds m fuel [b]).map (!·)
      else match holdsOf? m a b with
        | some h => .ok h
        | none => .error (a ++ ": unexpected operator")
    | "(" :: rest =>
      if rest.getLast? == some ")" then testHolds m fuel rest.dropLast
      else .error "closing paren expected"
    | [a, op, b] =>
      if op = "=" || op = "==" then .ok (a == b)
      else if op = "!=" then .ok (a != b)
      else if a = "!" then (testHolds m fuel [op, b]).map (!·)
      else do
        if (compareNumbers? op 0 0).isNone then throw (a ++ ": unexpected operator")
        return (compareNumbers? op (← wholeNumber a) (← wholeNumber b)).getD false
    | args =>
      let splitAt (mark : String) : Option (List String × List String) :=
        if args.contains mark then
          some (args.takeWhile (· != mark), (args.dropWhile (· != mark)).drop 1)
        else none
      match splitAt "-o", splitAt "-a" with
      | some (a, b), _ => do
        let (x, y) := (← testHolds m fuel a, ← testHolds m fuel b)
        return x || y
      | none, some (a, b) => do
        let (x, y) := (← testHolds m fuel a, ← testHolds m fuel b)
        return x && y
      | none, none =>
        match args with
        | "!" :: rest => (testHolds m fuel rest).map (!·)
        | _ => .error (args.headD "" ++ ": unexpected operator")

/-- Tests arguments in the name of a utility. -/
def tested (name : String) (args : List String) (m : Machine) : Machine :=
  match testHolds m (args.length + 1) args with
  | .ok b => m.done (if b then 0 else 1)
  | .error why => m.refuse (name ++ ": " ++ why)

/-- Tests its arguments. -/
def test : Utility := tested "test"

/-- Tests the arguments up to the closing bracket. -/
def bracketTest : Utility := fun args m =>
  if args.getLast? == some "]" then tested "[" args.dropLast m else m.refuse "[: missing ]"

/-- What an expression of two arguments and a sign comes to. -/
def expressed? (a sign b : String) : Option String :=
  let truth (b : Bool) := if b then "1" else "0"
  match sign with
  | ":" => (compilePattern? false false ('^' :: b.toList)).map fun p =>
    match p.search? a.toList with
    | some found =>
      if Text.contains "\\(" b then String.ofList ((found.group? 1).getD [])
      else intText (found.stop - found.start)
    | none => if Text.contains "\\(" b then "" else "0"
  | "=" => some (truth (a == b))
  | "!=" => some (truth (a != b))
  | _ =>
    match wholeNumber a, wholeNumber b with
    | .ok x, .ok y =>
      match sign with
      | "<" => some (truth (x < y))
      | "<=" => some (truth (x ≤ y))
      | ">" => some (truth (y < x))
      | ">=" => some (truth (y ≤ x))
      | _ => (Sum.combined? sign x y).map intText
    | _, _ => none

/-- Prints what an expression comes to.  The status is one where that is nothing or zero. -/
def expr : Utility := fun args m =>
  let result := match args with
    | [a] => some a
    | ["length", a] => some (countText a.length)
    | [a, sign, b] => expressed? a sign b
    | _ => none
  match result with
  | some s => (m.print (s ++ "\n")).done (if s = "" || s = "0" then 1 else 0)
  | none => m.fail "expr: syntax error" 2

end Utility

end Shell

end Scaffold
