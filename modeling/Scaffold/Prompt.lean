import Scaffold.Collector
import Scaffold.Json.Writer
import Scaffold.Text.Blank

/-!
# Prompts

The texts that are put to a model.  A single inquiry is its task with examples behind it.  A prompt
document puts all pending inquiries into one request, with their contexts in front and the shape of
the reply behind, and ends with the command that takes the reply, if one is given.
-/

namespace Scaffold

namespace Prompt

/-- Where answers are looked for if nothing else is said. -/
def defaultAnswersPath : String := "./ai-answers.json"

/-- Three grave accents, which fence a block of code. -/
def fence : String := String.ofList (List.replicate 3 (Char.ofNat 96))

/-- A name between grave accents. -/
def codeName (s : String) : String :=
  let mark := String.ofList [Char.ofNat 96]
  mark ++ s ++ mark

/-- Lines one below the other. -/
def block (lines : List String) : String := Text.join "\n" lines

/-! ## One inquiry -/

/-- An example under its number. -/
def numberedExample (number : Nat) (e : Example) : String :=
  block <| ["**Example " ++ toString number ++ ":**"] ++
    (if e.input = "" then [] else ["Input: " ++ e.input]) ++ [fence, e.output, fence]

/-- Examples one below the other. -/
def examplesText (es : List Example) : String :=
  Text.join "\n\n" (es.mapIdx fun i e => numberedExample (i + 1) e)

/-- A task with its examples. -/
def task (prompt : String) (examples : List Example) : String :=
  if examples.isEmpty then Text.trim prompt
  else Text.trim prompt ++ "\n\n" ++ examplesText examples

/-- A prompt with the issues that an earlier output had. -/
def correction (prompt : String) (issues : List String) (earlier : String) : String :=
  prompt ++ block ["", "", "## Correction Required", "", "Your previous output failed validation:",
    block (issues.map ("- " ++ ·)), "", "Previous output:", fence, earlier, fence, "",
    "Return a corrected version that resolves every issue above."]

/-- Whether an inquiry says what its answer should look like. -/
def describesOutput (i : Inquiry) : Bool := !Text.isBlankString i.outputDescription

/-- The heading above what an answer should look like. -/
def formatHeading : String := "**Expected output format:**\n"

/-- An inquiry put on its own. -/
def single (i : Inquiry) : String :=
  block <|
    (if i.contexts.isEmpty then [] else ["## Context\n"] ++ i.contexts ++ [""]) ++ [i.prompt] ++
    (if describesOutput i then ["", formatHeading, i.outputDescription] else []) ++
    ["", "Respond with only the requested content."]

/-! ## All inquiries -/

/-- The system prompt for a batch of inquiries. -/
def batchSystem (keys : List String) : String :=
  block ["You are a code generation assistant. You will receive a document with one or more " ++
      "generation requests, each identified by a key.",
    "",
    "Respond with a single JSON object whose keys are exactly: " ++ Text.join ", " keys,
    "Each value must be a string holding the complete generated content for that key.",
    "Do not wrap the JSON in markdown code fences and do not add commentary."]

/-- The demand for bare JSON behind a document. -/
def jsonOnly : String :=
  "\n\nRespond with ONLY a valid JSON object. No markdown fences, no explanation."

/-- The shape of the reply. -/
def replyShape (is : List Inquiry) : Value :=
  .ofRecord <| Record.ofList <| is.map fun i =>
    (i.key, .str (if describesOutput i then "<see format above>" else "<your answer>"))

/-- Each text with an empty line below it. -/
def spaced (texts : List String) : List String := texts.flatMap fun t => [t, ""]

/-- The contexts of a document. -/
def contextPart (c : Collector) : List String :=
  if c.contexts.isEmpty && c.pending.all (·.contexts.isEmpty) then []
  else
    ["## Context\n"] ++
    (if c.contexts.isEmpty then [] else ["### Global Context\n"] ++ spaced c.contexts) ++
    c.pending.flatMap fun i =>
      if i.contexts.isEmpty then []
      else ["### Context for " ++ codeName i.key ++ "\n"] ++ spaced i.contexts

/-- The prompts of a document. -/
def promptPart (c : Collector) : List String :=
  ["## Prompts\n"] ++ c.pending.flatMap fun i =>
    ["### " ++ codeName i.key ++ "\n", i.prompt, ""] ++
      (if describesOutput i then [formatHeading, i.outputDescription, ""] else [])

/-- The command that takes the reply. -/
def commandPart (command : Option String) (answersPath : String) : List String :=
  match filled? command with
  | none => []
  | some command =>
    ["## Instructions\n", "Save your response as JSON to a file and run:\n", fence,
      command ++ " --answers " ++ answersPath, fence ++ "\n"]

/-- The document that asks for all pending answers. -/
def document (c : Collector) (command : Option String := none)
    (answersPath : String := defaultAnswersPath) : String :=
  block <| ["# Kitgen AI Generation Request\n"] ++ contextPart c ++ promptPart c ++
    ["## Response Format\n", "Respond with a JSON object:\n", fence ++ "json",
      Json.indented (replyShape c.pending), fence ++ "\n"] ++ commandPart command answersPath

end Prompt

end Scaffold
