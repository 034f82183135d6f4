import Scaffold.Pattern.Basic

/-!
# Matching and searching

A backtracking matcher.  A node is run at a spot of the text with a continuation that stands for
what must match behind it; the node offers the continuation its possible ends in order of preference
and the first one that the continuation accepts wins.  The recursion is on the node.  Only a
repetition loops; its fuel is the least count plus the characters left, which suffices since a round
beyond the least count that consumes nothing ends the loop.
-/

namespace Scaffold

namespace Pattern

/-- A spot in a text, with the groups captured on the way to it. -/
structure Spot where
  before : List Char
  after : List Char
  captures : List (Nat × List Char) := []
  deriving DecidableEq, Inhabited, Repr

namespace Spot

/-- The characters in front of the spot. -/
def offset (s : Spot) : Nat := s.before.length

/-- The spot one character further. -/
def next? (s : Spot) : Option (Char × Spot) :=
  match s.after with
  | [] => none
  | c :: r => some (c, { s with before := c :: s.before, after := r })

/-- The spot `n` characters back. -/
def back? (s : Spot) : Nat → Option Spot
  | 0 => some s
  | n + 1 =>
    match s.before with
    | [] => none
    | c :: r => back? { s with before := r, after := c :: s.after } n

/-- The text a group captured last. -/
def captured? (s : Spot) (i : Nat) : Option (List Char) :=
  (s.captures.find? (·.1 == i)).map (·.2)

/-- The spot with a group captured from an earlier spot up to this one. -/
def capture (s : Spot) (i : Nat) (start : Spot) : Spot :=
  let text := start.after.take (start.after.length - s.after.length)
  { s with captures := (i, text) :: s.captures.filter (·.1 != i) }

end Spot

/-- Whether the character next to a spot is a word character. -/
def wordAt (o : Options) : List Char → Bool
  | [] => false
  | c :: _ => CharClass.word.holds o c.toNat

/-- Whether an anchor holds at a spot. -/
def Anchor.holds (o : Options) (s : Spot) : Anchor → Bool
  | .textStart => s.before.isEmpty
  | .textEnd => s.after.isEmpty
  | .lineStart => s.before.isEmpty || (o.multiLine && s.before.head? == some '\n')
  | .lineEnd =>
    s.after.isEmpty || (if o.multiLine then s.after.head? == some '\n' else s.after == ['\n'])
  | .wordEdge => wordAt o s.before != wordAt o s.after
  | .noWordEdge => wordAt o s.before == wordAt o s.after

/-- Passes over the characters of `text`, compared like single characters of a pattern. -/
def passText (o : Options) : List Char → Spot → Option Spot
  | [], s => some s
  | c :: cs, s =>
    match s.next? with
    | some (d, s') => if inSet o false [.code c.toNat] d then passText o cs s' else none
    | none => none

/-- What must match behind a node. -/
abbrev Next := Spot → Option Spot

/-- Rounds of a repetition that takes as many as it can; `run` is one round. -/
def most (run : Next → Next) (low : Nat) (high : Option Nat) (k : Next) :
    (fuel count : Nat) → Next
  | 0, _, s => k s
  | fuel + 1, count, s =>
    if count < low then run (most run low high k fuel (count + 1)) s
    else if high.any (· ≤ count) then k s
    else
      let again := run fun s' =>
        if s'.after.length = s.after.length then k s'
        else most run low high k fuel (count + 1) s'
      (again s).or (k s)

/-- Rounds of a repetition that takes as few as it can; `run` is one round. -/
def fewest (run : Next → Next) (low : Nat) (high : Option Nat) (k : Next) :
    (fuel count : Nat) → Next
  | 0, _, s => k s
  | fuel + 1, count, s =>
    if count < low then run (fewest run low high k fuel (count + 1)) s
    else
      (k s).or <|
        if high.any (· ≤ count) then none
        else
          run (fun s' =>
            if s'.after.length = s.after.length then none
            else fewest run low high k fuel (count + 1) s') s

/-- Runs a node at a spot with what must match behind it. -/
def Node.run (o : Options) : Node → Next → Next
  | .empty, k, s => k s
  | .any, k, s =>
    match s.next? with
    | some (c, s') => if c != '\n' || o.dotAll then k s' else none
    | none => none
  | .set negated members, k, s =>
    match s.next? with
    | some (c, s') => if inSet o negated members c then k s' else none
    | none => none
  | .anchor a, k, s => if a.holds o s then k s else none
  | .seq a b, k, s => a.run o (b.run o k) s
  | .either a b, k, s => (a.run o k s).or (b.run o k s)
  | .repeated .most low high body, k, s =>
    most (fun k' s' => body.run o k' s') low high k (low + s.after.length + 1) 0 s
  | .repeated .fewest low high body, k, s =>
    fewest (fun k' s' => body.run o k' s') low high k (low + s.after.length + 1) 0 s
  | .repeated .possessive low high body, k, s =>
    (most (fun k' s' => body.run o k' s') low high some (low + s.after.length + 1) 0 s).bind k
  | .group i body, k, s => body.run o (fun s' => k (s'.capture i s)) s
  | .scoped change body, k, s => body.run (o.apply change) k s
  | .atomic body, k, s => (body.run o some s).bind k
  | .reference i, k, s =>
    match s.captured? i with
    | some text => (passText o text s).bind k
    | none => none
  | .ifGroup i yes no, k, s =>
    if (s.captured? i).isSome then yes.run o k s else no.run o k s
  | .lookAhead negated body, k, s =>
    match body.run o some s with
    | some s' => if negated then none else k { s with captures := s'.captures }
    | none => if negated then k s else none
  | .lookBehind negated width body, k, s =>
    match (s.back? width).bind (body.run o some) with
    | some s' => if negated then none else k { s with captures := s'.captures }
    | none => if negated then k s else none

/-- A pattern together with the options it starts with. -/
structure Compiled where
  node : Node
  options : Options
  deriving DecidableEq, Inhabited, Repr

/-- A stretch of a text that a pattern matched. -/
structure Match where
  start : Nat
  stop : Nat
  captures : List (Nat × List Char)
  deriving DecidableEq, Inhabited, Repr

/-- The text of a group, if it took part in the match. -/
def Match.group? (m : Match) (i : Nat) : Option (List Char) :=
  (m.captures.find? (·.1 == i)).map (·.2)

/-- The match that starts exactly behind `before`. -/
def Compiled.matchAt? (p : Compiled) (before after : List Char) : Option Match :=
  (p.node.run p.options some ⟨before, after, []⟩).map fun s =>
    ⟨before.length, s.offset, s.captures⟩

/-- The first match that starts at the end of `before` or later. -/
def Compiled.searchFrom? (p : Compiled) (before : List Char) : List Char → Option Match
  | [] => p.matchAt? before []
  | c :: rest => (p.matchAt? before (c :: rest)).or (p.searchFrom? (c :: before) rest)

/-- The leftmost match in a text. -/
def Compiled.search? (p : Compiled) (text : List Char) : Option Match := p.searchFrom? [] text

/-- Whether the pattern matches the text from its first to its last character. -/
def Compiled.matchesAll (p : Compiled) (text : List Char) : Bool :=
  (p.node.run p.options (fun s => if s.after.isEmpty then some s else none) ⟨[], text, []⟩).isSome

/-- The matches of a text from left to right without overlap, no more than one at a place; `skip`
characters belong to the match just found. -/
def Compiled.allFrom (p : Compiled) :
    (skip : Nat) → (before : List Char) → List Char → List Match
  | 0, before, [] => (p.matchAt? before []).toList
  | _ + 1, _, [] => []
  | skip + 1, before, c :: rest => p.allFrom skip (c :: before) rest
  | 0, before, c :: rest =>
    match p.matchAt? before (c :: rest) with
    | some m => m :: p.allFrom (m.stop - m.start - 1) (c :: before) rest
    | none => p.allFrom 0 (c :: before) rest

/-- The matches of a text from left to right without overlap, no more than one at a place. -/
def Compiled.all (p : Compiled) (text : List Char) : List Match := p.allFrom 0 [] text

end Pattern

end Scaffold
