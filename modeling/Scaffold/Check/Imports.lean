import Scaffold.Pattern.Reader
import Scaffold.Text.Search

/-!
# Imports

The modules that a source text imports, as far as patterns can tell.  Two forms are looked for: import
statements that make up a line, and imports and requires of a quoted name anywhere.  A name is listed
once, at its first place, those of the first form before those of the second.
-/

namespace Scaffold

namespace Check

open Pattern

namespace Import

/-- Blanks, as many as there are. -/
def blanks : Node := .repeated .most 0 none (.set false [.named .blank false])

/-- A blank. -/
def blank : Node := .set false [.named .blank false]

/-- Blanks, at least one. -/
def gap : Node := .repeated .most 1 none blank

/-- A dotted name. -/
def dotted : Node := .repeated .most 1 none (.set false [.named .word false, .code 46])

/-- A dotted name that may be given another name. -/
def aliased : Node :=
  .seq dotted <| .repeated .most 0 (some 1) <|
    sequence [gap, verbatim "as", gap, .repeated .most 1 none (.set false [.named .word false])]

/-- An import statement on a line: of names from a module, or of modules. -/
def statement : Compiled where
  node := sequence [.anchor .lineStart, blanks, .either
    (sequence [verbatim "from", gap, .group 1 dotted, gap, verbatim "import", blank])
    (sequence [verbatim "import", gap,
      .group 2 (.seq aliased (.repeated .most 0 none
        (sequence [blanks, verbatim ",", blanks, aliased]))),
      blanks, .anchor .lineEnd])]
  options := { multiLine := true }

/-- A quotation mark. -/
def quote : Node := .set false [.code 39, .code 34]

/-- What is no quotation mark. -/
def unquoted : Node := .set true [.code 39, .code 34]

/-- An import or a require of a quoted name. -/
def quoted : Compiled where
  node := sequence [
    .either
      (sequence [verbatim "import", blank, .repeated .fewest 0 none unquoted, verbatim "from", blanks])
      (.either (.seq (verbatim "import") blanks) (.seq (verbatim "require(") blanks)),
    quote, .group 1 (.repeated .most 1 none unquoted), quote]
  options := {}

/-- The name in front of another name that is given to it. -/
def plainName (part : List Char) : List Char :=
  let name := Text.trimChars part
  Text.trimChars (((Text.cutAt? " as ".toList name).map (·.1)).getD name)

/-- The modules of a statement. -/
def modulesOf (m : Match) : List (List Char) :=
  match m.group? 1 with
  | some name => [name]
  | none => (Text.splitAll [','] ((m.group? 2).getD [])).map plainName

end Import

/-- The names of the modules that a text imports. -/
def imports (text : String) : List String :=
  let cs := text.toList
  let found := (Import.statement.all cs).flatMap Import.modulesOf
    ++ (Import.quoted.all cs).filterMap (·.group? 1)
  ((found.eraseDups).filter (!·.isEmpty)).map String.ofList

end Check

end Scaffold
