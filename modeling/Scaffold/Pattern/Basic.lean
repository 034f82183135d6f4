import Scaffold.Text.Blank
import Scaffold.Text.Case

/-!
# Search patterns

The form of a search pattern after it was read: characters and classes, anchors, alternatives,
repetitions (as many as possible, as few as possible, or as many as possible without giving any
back), numbered groups, references to them, and conditions that look ahead or behind.  Options in
force at a place decide how a node matches there: whether case counts, whether line anchors match at
every line, whether the point matches a line feed, and whether classes know only ASCII.

A code point is kept as a number, since a pattern may name one that no character has.
-/

namespace Scaffold

namespace Pattern

/-- Options that decide how a node matches. -/
structure Options where
  ignoreCase : Bool := false
  multiLine : Bool := false
  dotAll : Bool := false
  ascii : Bool := false
  deriving DecidableEq, Inhabited, Repr

/-- A change of options: each is set, cleared or kept. -/
structure Change where
  ignoreCase : Option Bool := none
  multiLine : Option Bool := none
  dotAll : Option Bool := none
  ascii : Option Bool := none
  deriving DecidableEq, Inhabited, Repr

/-- The options after a change. -/
def Options.apply (o : Options) (c : Change) : Options :=
  ⟨c.ignoreCase.getD o.ignoreCase, c.multiLine.getD o.multiLine, c.dotAll.getD o.dotAll,
    c.ascii.getD o.ascii⟩

/-- A named class of characters. -/
inductive CharClass where
  | digit
  | blank
  | word
  deriving DecidableEq, Inhabited, Repr

/-- A member of a character set. -/
inductive Member where
  | code (n : Nat)
  | range (low high : Nat)
  | named (c : CharClass) (negated : Bool)
  deriving DecidableEq, Inhabited, Repr

/-- A place that an anchor asks for. -/
inductive Anchor where
  | lineStart
  | lineEnd
  | textStart
  | textEnd
  | wordEdge
  | noWordEdge
  deriving DecidableEq, Inhabited, Repr

/-- How a repetition chooses its count. -/
inductive Greed where
  | most
  | fewest
  | possessive
  deriving DecidableEq, Inhabited, Repr

/-- A search pattern. -/
inductive Node where
  | empty
  | any
  | set (negated : Bool) (members : List Member)
  | anchor (a : Anchor)
  | seq (first second : Node)
  | either (first second : Node)
  | repeated (greed : Greed) (low : Nat) (high : Option Nat) (body : Node)
  | group (index : Nat) (body : Node)
  | scoped (change : Change) (body : Node)
  | atomic (body : Node)
  | reference (index : Nat)
  | ifGroup (index : Nat) (present absent : Node)
  | lookAhead (negated : Bool) (body : Node)
  | lookBehind (negated : Bool) (width : Nat) (body : Node)
  deriving DecidableEq, Inhabited, Repr

/-- One character. -/
def Node.char (n : Nat) : Node := .set false [.code n]

/-- Whether a code point belongs to a class. -/
def CharClass.holds (o : Options) (c : CharClass) (n : Nat) : Bool :=
  let ch := Char.ofNat n
  (!o.ascii || n < 128) &&
    match c with
    | .digit => Text.isDigit ch
    | .blank => Text.isBlank ch && (!o.ascii || n == 32 || (9 ≤ n && n ≤ 13))
    | .word => Text.isWord ch

/-- Whether a code point is a member. -/
def Member.holds (o : Options) (n : Nat) : Member → Bool
  | .code m => n == m
  | .range low high => low ≤ n && n ≤ high
  | .named c negated => c.holds o n != negated

/-- The code points that count as `n`: itself, or where case does not count also its single
character capital and lower forms and the lower form of its capital. -/
def variants (o : Options) (n : Nat) : List Nat :=
  if !o.ignoreCase || (o.ascii && n ≥ 128) then [n]
  else
    let one (s : List Char) : List Nat := if s.length = 1 then s.map Char.toNat else []
    let c := Char.ofNat n
    let caps := one (Text.upperChar c)
    let forms := n :: one (Text.lowerChar c) ++ caps
      ++ caps.flatMap fun m => one (Text.lowerChar (Char.ofNat m))
    if o.ascii then forms.filter (· < 128) else forms

/-- Whether a character belongs to a set. -/
def inSet (o : Options) (negated : Bool) (members : List Member) (c : Char) : Bool :=
  ((variants o c.toNat).any fun n => members.any (·.holds o n)) != negated

end Pattern

end Scaffold
