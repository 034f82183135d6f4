import Scaffold.Generation
import Scaffold.Json.Octets
import Scaffold.Settings

/-!
# Endpoints of models

How a provider is talked to: the request that a call becomes, and what its reply says.  Each provider
has its own shape for both.  A reply is taken as it comes; a part that is missing has a default, and
a part of the wrong kind is a failure.

The exchange itself is a function from requests to replies.
-/

namespace Scaffold

/-- A request. -/
structure WebRequest where
  url : String
  headers : Record String
  body : Value
  deriving Inhabited, Repr

/-- A reply. -/
structure WebReply where
  status : Nat
  body : Content
  deriving DecidableEq, Inhabited, Repr

namespace WebReply

/-- The body as a text to show, whatever its octets are. -/
def shown (r : WebReply) : String :=
  match r.body with
  | .text s => s
  | .octets bs => Utf8.decodeLenient bs

/-- The data in the body, which has to be JSON. -/
def data (r : WebReply) : Except Failure Value := do
  let text ← (Json.decode r.body.toOctets).mapError .badOctets
  (Json.readDecoded text).mapError .badJson

end WebReply

/-- Sends a request; an error is the reason why there was no reply. -/
abbrev Web := WebRequest → Except String WebReply

/-- Where a provider is reached. -/
structure Endpoint where
  provider : Provider
  model : String
  baseUrl : String
  headers : Record String
  deriving DecidableEq, Inhabited, Repr

/-- What a reply says, as it comes. -/
structure Reply where
  text : Value
  model : Value
  input : Value
  output : Value
  deriving Inhabited, Repr

namespace Endpoint

/-- The model of a provider where none is named. -/
def defaultModel : Provider → String
  | .anthropic => "claude-sonnet-4-5"
  | .openai => "gpt-4o"
  | .compatible => "default"
  | .ollama => "llama3.1"

/-- The place of a provider, if it has one of its own. -/
def defaultUrl? : Provider → Option String
  | .anthropic => some "https://api.anthropic.com/v1"
  | .openai => some "https://api.openai.com/v1"
  | .compatible => none
  | .ollama => some "http://localhost:11434"

/-- The headers that show the key. -/
def keyHeaders (p : Provider) (key : Option String) : Record String :=
  match p with
  | .anthropic => [("x-api-key", key.getD ""), ("anthropic-version", "2023-06-01")]
  | .openai | .compatible => (key.map fun k => ("Authorization", "Bearer " ++ k)).toList
  | .ollama => []

/-- The complaint that there is no key. -/
def noKeyFor (name : String) : Failure :=
  .misconfigured ("API key required for provider '" ++ name ++ "'")
    ("Set " ++ (standardKeys.get? name).getD "KITGEN_AI_API_KEY" ++
      " or KITGEN_AI_API_KEY, or choose another transport with KITGEN_AI_MODE")

/-- The complaint that a provider is not known. -/
def unsupported (name : String) : Failure :=
  .misconfigured ("Unsupported provider: " ++ name)
    "Use one of: anthropic, openai, openai_compatible, ollama"

/-- The complaint that a provider has no place. -/
def noPlace : Failure :=
  .misconfigured "Provider 'openai_compatible' needs a base URL"
    "Set KITGEN_AI_BASE_URL to the server's /v1 endpoint"

/-- The endpoint of the provider of a name. -/
def ofName (name : String) (model key baseUrl : Option String) : Except Failure Endpoint := do
  let key := filled? key
  let baseUrl := filled? baseUrl
  if name != "ollama" && baseUrl.isNone && key.isNone then throw (noKeyFor name)
  let some provider := Provider.names.lookup name | throw (unsupported name)
  let some url := baseUrl.or (defaultUrl? provider) | throw noPlace
  return { provider, model := (filled? model).getD (defaultModel provider)
           baseUrl := String.ofList (Text.dropBack (· == '/') url.toList)
           headers := ("Content-Type", "application/json") :: keyHeaders provider key }

/-- The endpoint that settings name. -/
def ofSettings (s : AiSettings) (env : Environment) : Except Failure Endpoint :=
  ofName ((s.provider.map (·.name)).getD "") s.model (s.key? env) s.baseUrl

/-! ## Requests -/

/-- A message of a conversation. -/
def message (role content : String) : Value :=
  .ofRecord [("role", .str role), ("content", .str content)]

/-- A number as a value. -/
def ofNumber : Number → Value
  | .int n => .int n
  | .float x => .float x

/-- The part of the place behind the base. -/
def route : Provider → String
  | .anthropic => "/messages"
  | .openai | .compatible => "/chat/completions"
  | .ollama => "/api/chat"

/-- The body of a request. -/
def body (e : Endpoint) (c : ModelCall) : Record Value :=
  let both := Value.list [message "system" c.system, message "user" c.prompt]
  let temperature := ofNumber c.temperature
  match e.provider with
  | .anthropic =>
    [("model", .str e.model), ("system", .str c.system),
      ("messages", .list [message "user" c.prompt]), ("temperature", temperature),
      ("max_tokens", .int c.maxTokens)]
  | .openai | .compatible =>
    [("model", .str e.model), ("messages", both), ("temperature", temperature),
      ("max_tokens", .int c.maxTokens)]
  | .ollama =>
    [("model", .str e.model), ("messages", both), ("stream", .bool false),
      ("options", .ofRecord [("temperature", temperature), ("num_predict", .int c.maxTokens)])]

/-- The request for a call. -/
def request (e : Endpoint) (c : ModelCall) : WebRequest :=
  { url := e.baseUrl ++ route e.provider, headers := e.headers, body := .ofRecord (e.body c) }

/-! ## Replies -/

/-- An entry of a part that has to be an object. -/
def entry (v : Value) (name : String) (default : Value) : Except Failure Value :=
  match v with
  | .dict es => .ok ((Entries.field? es name).getD default)
  | v => .error (.noField ("'" ++ v.typeName ++ "' object has no attribute 'get'"))

/-- The items of a part that has to be a sequence of some kind. -/
def itemsOf : Value → Except Failure (List Value)
  | .list items => .ok items
  | .str s => .ok (s.toList.map fun c => .str c.toString)
  | .dict es => .ok (es.map fun e => e.1.toValue)
  | v => .error (.badType ("'" ++ v.typeName ++ "' object is not iterable"))

/-- The first item of a part that has to be a sequence. -/
def firstOf : Value → Except Failure Value
  | .list (v :: _) => .ok v
  | .str s =>
    match s.toList with
    | c :: _ => .ok (.str c.toString)
    | [] => .error (.outOfRange "string index out of range")
  | .list [] => .error (.outOfRange "list index out of range")
  | .dict es =>
    match Entries.get? es (.int 0) with
    | some v => .ok v
    | none => .error (.noEntry "0")
  | v => .error (.badType ("'" ++ v.typeName ++ "' object is not subscriptable"))

/-- The text of a block, if it is one that holds text. -/
def blockText (b : Value) : Except Failure (List Value) := do
  let kind ← entry b "type" .null
  if Value.same kind (.str "text") then return [← entry b "text" (.str "")] else return []

/-- A part that has to be a text. -/
def textIn : Value → Except Failure String
  | .str s => .ok s
  | v => .error (.badType ("expected str instance, " ++ v.typeName ++ " found"))

/-- The texts of blocks one behind the other. -/
def textOfBlocks (blocks : List Value) : Except Failure String := do
  let texts ← blocks.mapM blockText
  return String.join (← texts.flatten.mapM textIn)

/-- An object without entries. -/
def nothing : Value := .dict []

/-- What the data of a reply says. -/
def replyOf (e : Endpoint) (data : Value) : Except Failure Reply := do
  match e.provider with
  | .anthropic =>
    let text ← textOfBlocks (← itemsOf (← entry data "content" (.list [])))
    let usage ← entry data "usage" nothing
    return { text := .str text, model := ← entry data "model" (.str e.model)
             input := ← entry usage "input_tokens" (.int 0)
             output := ← entry usage "output_tokens" (.int 0) }
  | .openai | .compatible =>
    let choice ← firstOf (← entry data "choices" (.list [nothing]))
    let usage ← entry data "usage" nothing
    let content ← entry (← entry choice "message" nothing) "content" (.str "")
    return { text := if content.truthy then content else .str ""
             model := ← entry data "model" (.str e.model)
             input := ← entry usage "prompt_tokens" (.int 0)
             output := ← entry usage "completion_tokens" (.int 0) }
  | .ollama =>
    let content ← entry (← entry data "message" nothing) "content" (.str "")
    return { text := content, model := ← entry data "model" (.str e.model)
             input := ← entry data "prompt_eval_count" (.int 0)
             output := ← entry data "eval_count" (.int 0) }

/-- Sends a call and takes its reply. -/
def send (e : Endpoint) (web : Web) (c : ModelCall) : Except Failure Reply := do
  let name := e.provider.name
  let reply ← (web (e.request c)).mapError fun reason =>
    Failure.transport (name ++ " request failed: " ++ reason)
  if 400 ≤ reply.status then
    throw (.transport (name ++ " API error " ++ toString reply.status ++ ": " ++
      Text.take 200 reply.shown))
  e.replyOf (← reply.data)

end Endpoint

namespace Reply

/-- The integer that a value is, where a boolean counts as one or zero. -/
def integer? : Value → Option Int
  | .int n => some n
  | .bool b => some (if b then 1 else 0)
  | _ => none

/-- A reply whose parts are of the kinds that they should be. -/
def completion (r : Reply) : Except Failure Completion :=
  match r.text, r.model, integer? r.input, integer? r.output with
  | .str text, .str model, some input, some output => .ok ⟨text, model, ⟨input, output⟩⟩
  | _, _, _, _ => .error (.badType "unexpected reply")

end Reply

/-- The model behind an endpoint. -/
def Endpoint.client (e : Endpoint) (web : Web) : Client := fun _ c => do (← e.send web c).completion

/-- The generator that settings describe, if a provider can be called. -/
def Generator.ofSettings (web : Web) (s : AiSettings) (env : Environment) :
    Except Failure (Option Generator) := do
  if !s.canCall env then return none
  let e ← Endpoint.ofSettings s env
  return some
    { client := e.client web
      limits := ⟨s.maxTotalTokens, s.maxTotalCost.map .float, s.warnAtCost.map .float⟩
      temperature := .float s.temperature
      maxTokens := s.maxTokens }

end Scaffold
