import Scaffold.Yaml.Implicit
import Scaffold.Yaml.Node

/-!
# Documents

The value of a document.  Scalars get their kind from their tag or their form.  A merge key puts the
entries of other mappings in front of a mapping's own, so that its own win; of equal keys the last
value counts, at the place of the first.  Only scalars are keys.
-/

namespace Scaffold

namespace Yaml

namespace Node

/-- The shapes of collections. -/
inductive Shape where
  | sequence
  | mapping
  deriving DecidableEq, Inhabited, Repr

/-- What a node is made into: a scalar of a kind or a collection of a shape. -/
inductive Form where
  | scalar (k : Kind)
  | collection (s : Shape)
  deriving DecidableEq, Inhabited, Repr

/-- The form that a tag names. -/
def Form.ofTag (tag : String) : Except Fault Form :=
  match Kind.ofTag? tag with
  | some k => .ok (.scalar k)
  | none =>
    match [("tag:yaml.org,2002:seq", Shape.sequence), ("tag:yaml.org,2002:map", .mapping)].lookup tag with
    | some s => .ok (.collection s)
    | none => .error (.malformed "could not determine a constructor for the tag")

/-- The form of a node: that of its tag, or else its own. -/
def form : Node → Except Fault Form
  | .scalar (some t) _ _ | .sequence (some t) _ | .mapping (some t) _ => Form.ofTag t
  | .scalar none implicit text => .ok (.scalar (if implicit then Kind.ofForm text else .str))
  | .sequence none _ => .ok (.collection .sequence)
  | .mapping none _ => .ok (.collection .mapping)

/-- Whether a node is of a kind. -/
def isOf (k : Kind) (n : Node) : Bool := n.form.toOption == some (.scalar k)

/-! ## Mappings -/

mutual

/-- The entries that a mapping merges, and its own. -/
def flatten : List (Node × Node) → Except Fault (List (Node × Node) × List (Node × Node))
  | [] => .ok ([], [])
  | (k, v) :: es => do
    let here ← if k.isOf .merge then merged v else pure []
    let (more, own) ← flatten es
    if k.isOf .merge then return (here ++ more, own) else return (more, (k, v) :: own)

/-- The entries of a mapping, or of several of which the first wins. -/
def merged : Node → Except Fault (List (Node × Node))
  | .mapping _ es => do
    let (more, own) ← flatten es
    return more ++ own
  | .sequence _ items => mergedItems items
  | .scalar .. => .error (.malformed "expected a mapping or list of mappings for merging")

/-- The entries of several mappings, those of the last first. -/
def mergedItems : List Node → Except Fault (List (Node × Node))
  | [] => .ok []
  | .mapping _ es :: rest => do
    let (more, own) ← flatten es
    return (← mergedItems rest) ++ (more ++ own)
  | _ :: _ => .error (.malformed "expected a mapping for merging")

end

/-! ## Scalars -/

mutual

/-- The text of a node as a scalar: its own, or that of the default of a mapping. -/
def text : Node → Except Fault String
  | .scalar _ _ text => .ok text
  | .sequence .. => .error (.malformed "expected a scalar node, but found sequence")
  | .mapping _ es => defaultText es

/-- The text of the default among some entries. -/
def defaultText : List (Node × Node) → Except Fault String
  | [] => .error (.malformed "expected a scalar node, but found mapping")
  | (k, v) :: es => if k.isOf .default then text v else defaultText es

end

/-- The value of a node as a scalar of a kind. -/
def scalarOf (k : Kind) (n : Node) : Except Fault Value := do
  let s ← n.text
  match k, n with
  | .timestamp, .mapping .. => throw (.badType "expected string or bytes-like object, got 'list'")
  | k, _ => k.value s

/-- The key that a node makes. -/
def key (n : Node) : Except Fault Key := do
  match (← n.form) with
  | .scalar .default => return .str (← n.text)
  | .scalar k =>
    match (← n.scalarOf k) with
    | .null => return .null
    | .bool b => return .bool b
    | .int n => return .int n
    | .float x => return .float x
    | .str s => return .str s
    | .moment t => return .moment t
    | .list _ | .dict _ => throw (.malformed "found unhashable key")
  | .collection _ => throw (.malformed "found unhashable key")

/-! ## Collections -/

/-- The nodes in a collection: items, or keys with their values. -/
inductive Contents where
  | items (ns : List Node)
  | entries (es : List (Node × Node))
  deriving Inhabited, Repr

/-- The contents of a node as a collection of a shape. -/
def contents (s : Shape) : Node → Except Fault Contents
  | .sequence _ items =>
    if s = .sequence then .ok (.items items)
    else .error (.malformed "expected a mapping node, but found sequence")
  | .mapping _ es =>
    if s = .mapping then do
      let (more, own) ← flatten es
      return .entries (more ++ own)
    else .error (.malformed "expected a sequence node, but found mapping")
  | .scalar .. => .error (.malformed "expected a collection, but found scalar")

/-- What is still to be filled once a node is made: nothing of a scalar, and a collection itself. -/
def made (n : Node) : Except Fault (List (Shape × Node)) := do
  match (← n.form) with
  | .scalar k =>
    let _ ← n.scalarOf k
    return []
  | .collection s => return [(s, n)]

/-- What is still to be filled once a key and its value are made. -/
def madeEntry (e : Node × Node) : Except Fault (List (Shape × Node)) := do
  let _ ← key e.1
  made e.2

/-- What is still to be filled once a collection is. -/
def filled (s : Shape) (n : Node) : Except Fault (List (Shape × Node)) := do
  match (← n.contents s) with
  | .items ns => return (← ns.mapM made).flatten
  | .entries es => return (← es.mapM madeEntry).flatten

/-- Fills collections, all of them before those that are in them: finds the first fault. -/
def fill : (fuel : Nat) → List (Shape × Node) → Except Fault Unit
  | _, [] => .ok ()
  | 0, _ :: _ => .error (.malformed "the document is nested too deeply")
  | fuel + 1, ns => do
    let parts ← ns.mapM fun (s, n) => filled s n
    fill fuel parts.flatten

/-- The value of a node. -/
def value : (fuel : Nat) → Node → Except Fault Value
  | 0, _ => .error (.malformed "the document is nested too deeply")
  | fuel + 1, n => do
    match (← n.form) with
    | .scalar k => n.scalarOf k
    | .collection s =>
      match (← n.contents s) with
      | .items ns => (ns.mapM (value fuel)).map .list
      | .entries es => do
        let entries ← es.mapM fun (k, v) => do
          let k ← key k
          return (k, ← value fuel v)
        return .dict (Entries.ofList entries)

/-- A bound for the depth of the collections of a node. -/
def bound (ts : List Token) : Nat := 2 * ts.length + 2

end Node

/-- The value of a text with one document; a text with none has the value null.  The fault of a document
is the first that filling its collections finds. -/
def read (s : String) : Except Fault Value := do
  let ts := tokens s.toList
  match (← Node.ofTokens ts) with
  | none => return .null
  | some n =>
    let depth := Node.bound ts.read
    Node.fill depth (← n.made)
    n.value (depth + 1)

end Yaml

end Scaffold
