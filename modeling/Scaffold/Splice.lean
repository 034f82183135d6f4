import Scaffold.Pattern.Reader
import Scaffold.Value.Written
import Scaffold.Text.Blank
import Scaffold.Text.Search

/-!
# Splicing text into a file

Puts a body of lines into an existing content.  Nothing here touches a file: a caller hands the
content in and writes back what comes out.  The line ending that the content uses most is found first,
and the body is rewritten to it, so a splice never mixes conventions.

A rule says where the body goes: at the front or the back, at a line, or before or after the line
that a pattern anchors.  A line that matches the pattern on its own is the anchor; failing that the
pattern is tried against the whole content, its point then matching line breaks too, and the line
that holds the first (before) or the last (after) character of the match is the anchor.  A pattern
that is ill-formed stands for itself.  A rule may also name a pattern that makes the splice needless.
-/

namespace Scaffold

namespace Splice

/-- Where a body goes.  An anchor pattern may be empty and a line may be missing: such a rule is
refused when it is applied. -/
inductive Location where
  | atLine (line : Option Int)
  | before (pattern : String)
  | after (pattern : String)
  | front
  | back
  | unknown (name : String)
  deriving DecidableEq, Inhabited, Repr

/-- A rule for one splice. -/
structure Rule where
  location : Location
  /-- A pattern whose presence makes the splice needless. -/
  skipIf : Option String := none
  /-- Whether the body ends with a line break of its own. -/
  endsLine : Bool := true
  deriving DecidableEq, Inhabited, Repr

/-- Why a splice is refused. -/
inductive Fault where
  | noLine
  | negativeLine (line : Int)
  | noPattern (place : String)
  | patternNotFound (pattern : String)
  | unknownLocation (name : String)
  | noFile (path : String)
  deriving DecidableEq, Inhabited, Repr

/-- The wording of a refusal. -/
def Fault.message : Fault → String
  | .noLine => "at_line injection requires a line number"
  | .negativeLine n => "Line number must not be negative: " ++ intText n
  | .noPattern place => "'" ++ place ++ "' injection requires a pattern"
  | .patternNotFound p => "Pattern not found: " ++ quoted p
  | .unknownLocation name => "Unknown injection location: " ++ name
  | .noFile path => "Cannot inject into non-existent file: " ++ path

/-- What a splice gives. -/
structure Outcome where
  content : String
  changed : Bool
  skipped : Bool := false
  reason : Option String := none
  deriving DecidableEq, Inhabited, Repr

/-! ## Line endings -/

/-- Carriage return and line feed. -/
def crlf : List Char := ['\r', '\n']

/-- The line ending a text uses most: carriage return and line feed only if that is strictly more
frequent than a bare line feed. -/
def lineEnding (s : List Char) : List Char :=
  let pairs := Text.count crlf s
  if pairs > s.count '\n' - pairs then crlf else ['\n']

/-- The body as it goes into a text with the given line ending. -/
def bodyFor (eol : List Char) (endsLine : Bool) (body : List Char) : List Char :=
  let text := Text.unifyBreaks body
  let text :=
    if endsLine then (if text.getLast? == some '\n' then text else text ++ ['\n'])
    else Text.dropBack (· == '\n') text
  Text.replaceChars ['\n'] eol text

/-! ## Places -/

/-- Where the lines of a text start, in characters. -/
def lineStarts (eol content : List Char) : List Nat :=
  (Text.splitAll eol content).dropLast.foldl
    (fun (starts : List Nat) line => starts ++ [starts.getLastD 0 + line.length + eol.length]) [0]

/-- The pattern of an anchor, or its own text if it is ill-formed. -/
def anchorPattern (pattern : String) : Pattern.Compiled :=
  (Pattern.compile? pattern { multiLine := true }).getD
    ⟨Pattern.verbatim pattern, { multiLine := true }⟩

/-- The same with the point matching line breaks too. -/
def spanningPattern (pattern : String) : Pattern.Compiled :=
  (Pattern.compile? pattern { multiLine := true, dotAll := true }).getD
    ⟨Pattern.verbatim pattern, { multiLine := true, dotAll := true }⟩

/-- The line that a match in the whole content anchors. -/
def anchorOfMatch (eol content : List Char) (after : Bool) (m : Pattern.Match) : Nat :=
  let offset := if after then (if m.start < m.stop then m.stop - 1 else m.stop) else m.start
  Text.count eol (content.take offset)

/-- The line that a pattern anchors. -/
def anchorLine? (eol content : List Char) (pattern : String) (after : Bool) : Option Nat :=
  let lines := Text.splitAll eol content
  match lines.findIdx? fun line => ((anchorPattern pattern).search? line).isSome with
  | some i => some i
  | none => ((spanningPattern pattern).search? content).map (anchorOfMatch eol content after)

/-- The place of the start of a line, or the end of the content if there is no such line. -/
def startOfLine (eol content : List Char) (line : Nat) : Nat :=
  ((lineStarts eol content)[line]?).getD content.length

/-- The place of a line anchored by a pattern: its start, or the start of the line behind it. -/
def anchoredPlace (eol content : List Char) (pattern : String) (after : Bool) : Except Fault Nat :=
  if pattern = "" then .error (.noPattern (if after then "after" else "before"))
  else
    match anchorLine? eol content pattern after with
    | none => .error (.patternNotFound pattern)
    | some line => .ok (startOfLine eol content (if after then line + 1 else line))

/-- The place a location names, in characters from the front. -/
def place (eol content : List Char) : Location → Except Fault Nat
  | .front => .ok 0
  | .back => .ok content.length
  | .atLine none => .error .noLine
  | .atLine (some n) =>
    if n < 0 then .error (.negativeLine n) else .ok (startOfLine eol content n.toNat)
  | .before p => anchoredPlace eol content p false
  | .after p => anchoredPlace eol content p true
  | .unknown name => .error (.unknownLocation name)

/-! ## The splice -/

/-- Whether the content already has what makes a splice needless. -/
def needless (content : String) : Option String → Bool
  | none => false
  | some "" => false
  | some p =>
    match Pattern.compile? p { multiLine := true } with
    | some c => (c.search? content.toList).isSome
    | none => Text.contains p content

/-- The body as it is put at `offset`: a body without a line break of its own gets one unless it
ends the content, and a body behind an unfinished last line gets one in front. -/
def piece (eol content : List Char) (rule : Rule) (body : List Char) (offset : Nat) : List Char :=
  let text := bodyFor eol rule.endsLine body
  let text := if !rule.endsLine && offset < content.length then text ++ eol else text
  let unfinished :=
    offset = content.length && !content.isEmpty && !eol.isSuffixOf content && rule.location != .front
  if unfinished then eol ++ text else text

/-- The body spliced into the content. -/
def apply (content body : String) (rule : Rule) : Except Fault Outcome :=
  if needless content rule.skipIf then
    .ok { content, changed := false, skipped := true,
          reason := some ("skip_if matched: " ++ rule.skipIf.getD "") }
  else
    let s := content.toList
    let eol := lineEnding s
    (place eol s rule.location).map fun offset =>
      let result := s.take offset ++ piece eol s rule body.toList offset ++ s.drop offset
      { content := String.ofList result, changed := result != s }

end Splice

end Scaffold
