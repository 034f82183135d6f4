import Scaffold.Recipe.Variables

/-!
# Questions on a terminal

A question is printed with its default in brackets, and answered by a line of the input.  An empty line
takes the default; where there is none, or where the line does not read as a value of the default's
kind, the question is asked again.  Input that ends aborts the run.
-/

namespace Scaffold

namespace Terminal

/-- Reads a line behind a question. -/
def answer (question : String) : Run String := do
  Run.note (.printed .questions question)
  let s ← get
  if s.input = "" then
    Run.note (.answered none)
    throw .aborted
  let line := String.ofList (s.input.toList.takeWhile (· != '\n'))
  set { s with input := Text.drop (line.length + 1) s.input }
  Run.note (.answered (some line))
  return line

/-- Says what is wrong with an answer. -/
def complain (message : String) : Run Unit :=
  Run.note (.printed .questions ("Error: " ++ message ++ "\n"))

/-- The consent that a line gives. -/
def consent? (usual : Bool) (line : String) : Option Bool :=
  match Text.lower (Text.trim line) with
  | "y" | "yes" => some true
  | "n" | "no" => some false
  | "" => some usual
  | _ => none

/-- Asks for consent; `fuel` bounds how often. -/
def confirmFrom (question : String) (usual : Bool) : (fuel : Nat) → Run Bool
  | 0 => throw .aborted
  | fuel + 1 => do
    match consent? usual (← answer question) with
    | some b => return b
    | none =>
      complain "invalid input"
      confirmFrom question usual fuel

/-- Asks for consent. -/
def confirm (label : String) (usual : Bool) : Run Bool := do
  confirmFrom (label ++ (if usual then " [Y/n]:" else " [y/N]:")) usual ((← get).input.length + 1)

/-- A line as a value of the kind of a default, or why it is none. -/
def valueOf (default : Value) (line : String) : Except String Value :=
  let no (what : String) := Except.error (quoted line ++ " is not a valid " ++ what ++ ".")
  match default with
  | .int _ => match Numeral.readInt? line with
    | some n => .ok (.int n)
    | none => no "integer"
  | .float _ => match Numeral.read? line with
    | some x => .ok (.float x)
    | none => no "float"
  | .bool _ => match Variable.toBoolean "" (.str line) with
    | .ok v => .ok v
    | .error _ => no "boolean"
  | _ => .ok (.str line)

/-- Asks for a value; `fuel` bounds how often. -/
def promptFrom (question : String) (default : Value) : (fuel : Nat) → Run Value
  | 0 => throw .aborted
  | fuel + 1 => do
    let line ← answer question
    match line, default with
    | "", .null => promptFrom question default fuel
    | "", v => return v
    | line, v =>
      match valueOf v line with
      | .ok v => return v
      | .error m =>
        complain m
        promptFrom question default fuel

/-- Asks for a value. -/
def prompt (label : String) (default : Value) : Run Value := do
  let shown := match default with
    | .null => ""
    | v => " [" ++ v.plain ++ "]"
  promptFrom (label ++ shown ++ ":") default ((← get).input.length + 1)

/-- Someone at a terminal. -/
def prompter : Prompter where
  ask name d := do
    let label := if d.description = "" then name else d.description
    match d.kind, d.values with
    | .boolean, _ => return .bool (← confirm label d.suggestion.truthy)
    | .enum, some (v :: vs) =>
      prompt (label ++ " [" ++ Text.join "/" ((v :: vs).map (·.plain)) ++ "]") d.suggestion
    | _, _ => prompt label d.suggestion
  confirm message := confirm message false

end Terminal

end Scaffold
