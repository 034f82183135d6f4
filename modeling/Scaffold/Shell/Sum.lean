import Scaffold.Number.Layout
import Scaffold.Number.Reader
import Scaffold.Record
import Scaffold.Shell.Script

/-!
# Sums in shell scripts

Whole-number expressions over shell variables: the signs of arithmetic, comparison and logic, a choice
between two values, and assignments.  A variable that holds no number counts as zero.
-/

namespace Scaffold

namespace Shell

namespace Sum

/-- A token of an expression. -/
inductive Token where
  | number (n : Int)
  | name (s : String)
  | sign (s : String)
  deriving DecidableEq, Inhabited, Repr

/-- The signs, the longer before the shorter. -/
def signs : List String :=
  ["<<=", ">>=", "<<", ">>", "<=", ">=", "==", "!=", "&&", "||", "+=", "-=", "*=", "/=", "%=", "&=",
    "|=", "^=", "+", "-", "*", "/", "%", "<", ">", "!", "~", "&", "|", "^", "=", "(", ")", "?", ":"]

/-- The number that digits write: hexadecimal behind `0x`, octal behind `0`, decimal otherwise. -/
def numberOf? (s : List Char) : Option Int :=
  let inBase (base : Nat) (ds : List Char) : Option Int :=
    (ds.foldlM (fun n d => do
      let v ← Text.hexValue? d
      if v < base then some (n * base + v) else none) 0).map Int.ofNat
  match s with
  | '0' :: 'x' :: ds | '0' :: 'X' :: ds => inBase 16 ds
  | '0' :: ds => inBase 8 ds
  | ds => inBase 10 ds

/-- The tokens of an expression.  `fuel` bounds their number. -/
def tokens? : (fuel : Nat) → List Char → Option (List Token)
  | 0, _ => some []
  | fuel + 1, s =>
    match s.dropWhile Text.isBlank with
    | [] => some []
    | c :: r =>
      if isNameChar c then do
        let word := c :: r.takeWhile isNameChar
        let t ← if Text.isAsciiDigit c then (numberOf? word).map Token.number
          else some (.name (String.ofList word))
        return t :: (← tokens? fuel (r.dropWhile isNameChar))
      else
        match signAt? signs (c :: r) with
        | some (sign, rest) => (tokens? fuel rest).map (.sign sign :: ·)
        | none => none

/-- What is left to read, and the variables. -/
structure State where
  rest : List Token
  bindings : Record String
  deriving Inhabited, Repr

/-- A reader and evaluator of expressions. -/
abbrev Evaluates := StateT State Option

/-- The value of a variable. -/
def valueOf (bindings : Record String) (name : String) : Int :=
  let s := Text.trim ((bindings.get? name).getD "")
  match s.toList with
  | '-' :: ds => ((numberOf? ds).map fun n => -n).getD 0
  | ds => (numberOf? ds).getD 0

/-- Reads a sign if it comes next and is among `all`. -/
def accept? (all : List String) : Evaluates (Option String) := do
  match (← get).rest with
  | .sign s :: rest =>
    if all.contains s then
      modify ({ · with rest })
      return some s
    return none
  | _ => return none

/-- Truth as a number. -/
def truth (b : Bool) : Int := if b then 1 else 0

/-- The value that a sign makes of two; none for a division by zero. -/
def combined? (sign : String) (a b : Int) : Option Int :=
  match sign with
  | "||" => some (truth (a != 0 || b != 0))
  | "&&" => some (truth (a != 0 && b != 0))
  | "|" => some (BitVec.toInt (BitVec.ofInt 64 a ||| BitVec.ofInt 64 b))
  | "^" => some (BitVec.toInt (BitVec.ofInt 64 a ^^^ BitVec.ofInt 64 b))
  | "&" => some (BitVec.toInt (BitVec.ofInt 64 a &&& BitVec.ofInt 64 b))
  | "==" => some (truth (a == b))
  | "!=" => some (truth (a != b))
  | "<" => some (truth (a < b))
  | ">" => some (truth (b < a))
  | "<=" => some (truth (a ≤ b))
  | ">=" => some (truth (b ≤ a))
  | "<<" => some (a * Power.two b.toNat)
  | ">>" => some (Int.fdiv a (Power.two b.toNat))
  | "+" => some (a + b)
  | "-" => some (a - b)
  | "*" => some (a * b)
  | "/" => if b = 0 then none else some (Int.tdiv a b)
  | "%" => if b = 0 then none else some (Int.tmod a b)
  | _ => none

/-- The signs between two values, those that bind least first. -/
def levels : List (List String) :=
  [["||"], ["&&"], ["|"], ["^"], ["&"], ["==", "!="], ["<=", ">=", "<", ">"], ["<<", ">>"], ["+", "-"],
    ["*", "/", "%"]]

/-- The values between signs of one level, from the left; `one` reads a value. -/
def chain (signs : List String) (one : Evaluates Int) : (fuel : Nat) → Int → Evaluates Int
  | 0, a => return a
  | fuel + 1, a => do
    match (← accept? signs) with
    | none => return a
    | some sign =>
      let b ← one
      chain signs one fuel (← (combined? sign a b : Option Int))

/-- The values between signs of some levels. -/
def level (one : Evaluates Int) : List (List String) → Evaluates Int
  | [] => one
  | signs :: more => do
    let a ← level one more
    chain signs (level one more) (← get).rest.length a

/-- The sign of arithmetic in an assignment, if it is one. -/
def assigning? (s : String) : Option String :=
  if s = "=" then some ""
  else if ["+=", "-=", "*=", "/=", "%=", "&=", "|=", "^=", "<<=", ">>="].contains s then
    some (Text.take (s.length - 1) s)
  else none

mutual

/-- A value without signs around it. -/
def atom : (fuel : Nat) → Evaluates Int
  | 0 => failure
  | fuel + 1 => do
    match (← get).rest with
    | .number n :: rest =>
      modify ({ · with rest })
      return n
    | .name s :: rest =>
      modify ({ · with rest })
      return valueOf (← get).bindings s
    | .sign "(" :: rest =>
      modify ({ · with rest })
      let n ← whole fuel
      match (← accept? [")"]) with
      | some _ => return n
      | none => failure
    | .sign "-" :: rest =>
      modify ({ · with rest })
      return -(← atom fuel)
    | .sign "+" :: rest =>
      modify ({ · with rest })
      atom fuel
    | .sign "!" :: rest =>
      modify ({ · with rest })
      return truth ((← atom fuel) == 0)
    | .sign "~" :: rest =>
      modify ({ · with rest })
      return -(← atom fuel) - 1
    | _ => failure

/-- An expression with its choices and assignments. -/
def whole : (fuel : Nat) → Evaluates Int
  | 0 => failure
  | fuel + 1 => do
    match (← get).rest with
    | .name s :: .sign op :: rest =>
      match assigning? op with
      | some inner => do
        modify ({ · with rest })
        let b ← whole fuel
        let old := valueOf (← get).bindings s
        let v ← if inner = "" then pure b else (combined? inner old b : Option Int)
        modify fun st => { st with bindings := st.bindings.put s (intText v) }
        return v
      | none => choice fuel
    | _ => choice fuel

/-- An expression with its choices. -/
def choice : (fuel : Nat) → Evaluates Int
  | 0 => failure
  | fuel + 1 => do
    let condition ← level (atom fuel) levels
    match (← accept? ["?"]) with
    | none => return condition
    | some _ =>
      let a ← whole fuel
      match (← accept? [":"]) with
      | none => failure
      | some _ =>
        let b ← whole fuel
        return if condition = 0 then b else a

end

/-- The value of an expression, and the variables after it. -/
def eval? (bindings : Record String) (s : List Char) : Option (Int × Record String) := do
  let ts ← tokens? (s.length + 1) s
  if ts.isEmpty then return (0, bindings)
  let (n, st) ← (whole (2 * ts.length + 2)).run ⟨ts, bindings⟩
  if st.rest.isEmpty then return (n, st.bindings) else none

end Sum

end Shell

end Scaffold
