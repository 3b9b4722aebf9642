import LumidPlatform.Retrieve.TenantReads

/-!
# The tool-use loop of the agent

A run asks the LLM, calls the tools of its answer, adds their results to the messages, and
asks again, until an answer has no calls, the LLM fails, or the iterations are used up. What
the LLM answers is given by the number of the request, and what the tools find by the number
of the call: either may change in the course of a run.
-/

namespace LumidPlatform.Agent

open Retrieve Blobs Replayer

/-- `Value::get` with a member's name. -/
def member (value : Json) (name : Str) : Option Json :=
  value.asObject?.bind (JsonMap.get · name)

/-- A member that is a text, or else the empty text. -/
def memberText (value : Json) (name : Str) : Str :=
  ((member value name).bind Json.asStr?).getD []

/-! ## Tools -/

/-- A tool as the model is told of it. -/
structure Tool where
  name : Str
  description : Str
  parametersSchema : Json

/-- `get_schema_cards`, with its texts. -/
def getSchemaCardsTool : Tool where
  name := "get_schema_cards".str
  description :=
    "Return compact schema cards for SQL planning. Call this before composing ".str ++
    "SQL for a natural-language data request. The result contains table and ".str ++
    "column names, useful stats, samples, foreign keys, and join hints. Use ".str ++
    "the exact identifiers shown — do not guess or invent names.".str
  parametersSchema := .object [
    ("type".str, .string "object".str),
    ("properties".str, .object [
      ("scope".str, .object [
        ("type".str, .string "string".str),
        ("description".str, .string
          ("Optional comma-separated schema names to restrict the card scope, ".str ++
            "e.g. \"market,fundamentals\". Omit or leave empty for all schemas.".str))])]),
    ("required".str, .array []),
    ("additionalProperties".str, .bool false)]

/-- `replay_retrieval_plan`, with its texts. -/
def replayRetrievalPlanTool : Tool where
  name := "replay_retrieval_plan".str
  description :=
    "Execute and materialize a structured retrieval plan. Call get_schema_cards ".str ++
    "first to learn the schema. The plan must contain only read-only SELECT ".str ++
    "statements; no INSERT, UPDATE, DELETE, or DDL is allowed. Returns a ".str ++
    "materialized_uri, rowcount, size_bytes, and access chain. Do NOT include ".str ++
    "data rows in your final answer — reference the URI instead.".str
  parametersSchema := .object [
    ("type".str, .string "object".str),
    ("properties".str, .object [
      ("plan".str, .object [
        ("type".str, .string "object".str),
        ("description".str, .string
          ("Retrieval plan: \x7b\"plan\": [".str ++
            "\x7b\"op\": \"sql\", \"query\": \"SELECT ...\"\x7d | ".str ++
            "\x7b\"op\": \"storage_get\", \"bucket\": \"...\", \"key\": \"...\"\x7d]\x7d".str))]),
      ("output_format".str, .object [
        ("type".str, .string "string".str),
        ("enum".str, .array [.string "csv".str, .string "jsonl".str, .string "raw".str]),
        ("description".str, .string "Materialized output format. Default: jsonl.".str)])]),
    ("required".str, .array [.string "plan".str]),
    ("additionalProperties".str, .bool false)]

/-- The tools of a session, in the order in which they are offered. -/
structure ToolRegistry where
  tools : List Tool

namespace ToolRegistry

/-- `ToolRegistry::new`. -/
def new : ToolRegistry := ⟨[getSchemaCardsTool, replayRetrievalPlanTool]⟩

/-- The tools in the form in which a model is told of functions. -/
def schemas (registry : ToolRegistry) : List Json :=
  registry.tools.map fun tool => .object [
    ("type".str, .string "function".str),
    ("function".str, .object [
      ("name".str, .string tool.name),
      ("description".str, .string tool.description),
      ("parameters".str, tool.parametersSchema)])]

end ToolRegistry

/-- The turns that the configuration allows; a request can only ask for fewer. -/
structure AgentConfig where
  maxIterations : Nat

/-! ## What answers from outside -/

/-- How a request to the LLM ends. -/
inductive Reply where
  /-- It could not be sent, or got no answer. -/
  | sendError (text : Str)
  /-- The status, the body as text, and the body as JSON. -/
  | response (status : Nat) (text : Str) (json : Except Str Json)

/-- The settings of the model that the loop reads. -/
structure LlmSettings where
  llmBackendUrl : Str
  llmDefaultModel : Str
  llmApiKey : Str

/-- Everything a run depends on beside its arguments. -/
structure Services where
  settings : LlmSettings
  /-- `Value::to_string`. -/
  jsonText : Json → Str
  /-- `serde_json::from_str` of a map. -/
  parseMap : Str → Option JsonMap
  /-- The outcome of each request to the LLM. -/
  reply : Nat → Reply
  /-- What `get_schema_cards` comes to at each call. -/
  schemaCards : Nat → JsonMap → ApiResult Json
  /-- Database and settings as a call finds them. -/
  state : Nat → RetrievalState
  /-- The objects in the store at a call. -/
  content : Nat → Content
  /-- Run id and times of a call. -/
  moment : Nat → Moment

/-- `replay_retrieval_plan`; `none` is a panic. -/
def replayRetrievalPlan (services : Services) (turn : Nat) (args : JsonMap) :
    Option (ApiResult Json) :=
  (TenantReads.replayParsed (services.state turn) (services.content turn) (services.moment turn)
    (parseArgs (services.state turn) args)).map fun outcome =>
      outcome.map fun (result, _) => toValue result

/-- `dispatch`; `none` is a panic. -/
def dispatch (services : Services) (turn : Nat) (name : Str) (args : JsonMap) :
    Option (ApiResult Json) :=
  if name = "get_schema_cards".str then some (services.schemaCards turn args)
  else if name = "replay_retrieval_plan".str then replayRetrievalPlan services turn args
  else some (.error (.notFound ("unknown tool '".str ++ name ++ "'".str)))

/-! ## Frames -/

/-- The payload of a server-sent event. -/
inductive Frame where
  | iteration (iteration maxIterations : Nat)
  | error (text : Str)
  | toolCall (callId tool : Str)
  | toolResult (callId tool : Str)
  | toolError (callId tool error : Str)
  | done (message : Json) (result : Option Json)
  /-- A `done` frame after the last iteration. -/
  | truncated (maxIterations : Nat) (message result : Option Json)

namespace Frame

/-- A frame as the client is sent it. -/
def toValue : Frame → Json
  | iteration n maxIterations => .object [("type".str, .string "iteration".str),
      ("iteration".str, .ofNat n), ("max_iterations".str, .ofNat maxIterations)]
  | error text => .object [("type".str, .string "error".str), ("error".str, .string text)]
  | toolCall callId tool => .object [("type".str, .string "tool_call".str),
      ("call_id".str, .string callId), ("tool".str, .string tool)]
  | toolResult callId tool => .object [("type".str, .string "tool_result".str),
      ("call_id".str, .string callId), ("tool".str, .string tool)]
  | toolError callId tool text => .object [("type".str, .string "tool_error".str),
      ("call_id".str, .string callId), ("tool".str, .string tool), ("error".str, .string text)]
  | done message result => .object [("type".str, .string "done".str), ("message".str, message),
      ("result".str, result.getD .null)]
  | truncated maxIterations message result => .object [("type".str, .string "done".str),
      ("truncated".str, .bool true), ("max_iterations_reached".str, .ofNat maxIterations),
      ("message".str, message.getD .null), ("result".str, result.getD .null)]

/-- `sse_frame`. -/
def sse (services : Services) (frame : Frame) : Str :=
  "data: ".str ++ services.jsonText frame.toValue ++ "\n\n".str

end Frame

/-! ## Requests -/

/-- `SYSTEM_PROMPT_PREFIX`. -/
def systemPromptPrefix : Str :=
  "You are a data-retrieval assistant. Follow this workflow for every request:\n".str ++
  "1. Call `get_schema_cards` to learn the available tables and columns.\n".str ++
  "2. Compose a `RetrievalPlan` with only read-only SELECT statements that reference ".str ++
  "exact column and table names from the cards.\n".str ++
  "3. Call `replay_retrieval_plan` to materialize the result to object storage.\n".str ++
  "4. In your final answer, reference the `materialized_uri` and key stats ".str ++
  "(rowcount, size_bytes). Do NOT include raw data rows in your reply.\n\n".str ++
  "Available tools:\n".str

/-- The prefix, and a line for each tool. -/
def systemPrompt (registry : ToolRegistry) : Str :=
  registry.schemas.foldl (fun s schema =>
    match member schema "function".str with
    | none => s
    | some function => s ++ "- **".str ++ memberText function "name".str ++ "**: ".str ++
        memberText function "description".str ++ "\n".str) systemPromptPrefix

/-- The first message of every transcript. -/
def systemMessage (registry : ToolRegistry) : Json :=
  .object [("role".str, .string "system".str), ("content".str, .string (systemPrompt registry))]

/-- What is fixed before the first iteration. -/
structure Session where
  url : Str
  bearer : Option Str
  model : Option Str
  toolSchemas : List Json
  maxIter : Nat

/-- `max_iter`. -/
def maxIter (cfg : AgentConfig) (requestMaxIter : Option Nat) : Nat :=
  (requestMaxIter.map (min · cfg.maxIterations)).getD cfg.maxIterations

/-- What stays the same through a session. A model of the request goes before the deployment's
default, and an empty one counts as none. -/
def session (settings : LlmSettings) (registry : ToolRegistry) (cfg : AgentConfig)
    (requestMaxIter : Option Nat) (modelOverride : Option Str) : Session where
  url := Text.trimEndMatches '/' settings.llmBackendUrl ++ "/v1/chat/completions".str
  bearer := if settings.llmApiKey.isEmpty then none else some settings.llmApiKey
  model := (modelOverride.filter (!·.isEmpty)).or
    (if settings.llmDefaultModel.isEmpty then none else some settings.llmDefaultModel)
  toolSchemas := registry.schemas
  maxIter := maxIter cfg requestMaxIter

/-- A request to the model. -/
structure LlmRequest where
  url : Str
  bearer : Option Str
  payload : Json

/-- The request of one turn: the whole transcript, with the tools. -/
def request (session : Session) (messages : List Json) : LlmRequest where
  url := session.url
  bearer := session.bearer
  payload := .object ([("messages".str, .array messages), ("tools".str, .array session.toolSchemas),
    ("tool_choice".str, .string "auto".str), ("stream".str, .bool false)] ++
    session.model.toList.map fun model => ("model".str, .string model))

/-! ## Replies -/

/-- The assistant's message in a reply, or the text of the error frame. -/
def assistantMessage : Reply → Except Str Json
  | .sendError text => .error ("LLM call failed: ".str ++ text)
  | .response status text json =>
    if 400 ≤ status then
      .error ("LLM returned HTTP ".str ++ Text.showNat status ++ ": ".str ++ text.take 512)
    else
      match json with
      | .error text => .error ("LLM response parse error: ".str ++ text)
      | .ok body =>
        match ((member body "choices".str).bind Json.asArray?).bind List.head? with
        | none => .error "LLM response missing choices".str
        | some choice =>
          match member choice "message".str with
          | none => .error "LLM choice missing message".str
          | some message => .ok message

/-- The tool calls of a message. -/
def toolCalls (message : Json) : List Json :=
  ((member message "tool_calls".str).bind Json.asArray?).getD []

/-- The id of a tool call, empty where the model gave none. -/
def callId (call : Json) : Str := memberText call "id".str

/-- What the call asks for. -/
def callFunction (call : Json) : Json := (member call "function".str).getD .null

/-- The name of the tool. -/
def toolName (call : Json) : Str := memberText (callFunction call) "name".str

/-- The arguments, which come as a text or as an object; anything else counts as none. -/
def toolArgs (services : Services) (call : Json) : JsonMap :=
  ((member (callFunction call) "arguments".str).bind fun value =>
    match value.asStr? with
    | some s => services.parseMap s
    | none => value.asObject?).getD []

/-! ## The loop -/

/-- What the model is told of a tool that failed. -/
def failure (call : Json) (error : ApiError) : Str :=
  "tool '".str ++ toolName call ++ "' error: ".str ++ error.toText

/-- The frames of a call that came back. -/
def callFrames (call : Json) (outcome : ApiResult Json) : List Frame :=
  [.toolCall (callId call) (toolName call),
    match outcome with
    | .ok _ => .toolResult (callId call) (toolName call)
    | .error error => .toolError (callId call) (toolName call) (failure call error)]

/-- The message that answers a call. -/
def toolMessage (services : Services) (call : Json) (outcome : ApiResult Json) : Json :=
  let start (content : Str) : JsonMap := [("role".str, .string "tool".str),
    ("tool_call_id".str, .string (callId call)), ("content".str, .string content)]
  match outcome with
  | .ok value => .object (start (services.jsonText value))
  | .error error => .object (start (services.jsonText (.object [("error".str, .bool true),
      ("message".str, .string (failure call error))])) ++ [("error".str, .bool true)])

/-- The last value of a replayed plan, behind a call. -/
def tracked (call : Json) (outcome : ApiResult Json) (last : Option Json) : Option Json :=
  match outcome with
  | .ok value => if toolName call = "replay_retrieval_plan".str then some value else last
  | .error _ => last

/-- A run so far. -/
structure Progress where
  messages : List Json
  frames : List Frame
  lastRetrievalResult : Option Json
  /-- How many calls have been dispatched. -/
  dispatched : Nat
  sent : List LlmRequest

/-- A run at its end; frames are returned unless a tool panicked. -/
structure Outcome where
  sent : List LlmRequest
  frames : Option (List Frame)

/-- One tool call; `none` is a panic. -/
def runCall (services : Services) (progress : Progress) (call : Json) : Option Progress :=
  (dispatch services progress.dispatched (toolName call) (toolArgs services call)).map
    fun outcome => { progress with
      messages := progress.messages ++ [toolMessage services call outcome]
      frames := progress.frames ++ callFrames call outcome
      lastRetrievalResult := tracked call outcome progress.lastRetrievalResult
      dispatched := progress.dispatched + 1 }

/-- The calls of a message. -/
def runCalls (services : Services) : List Json → Progress → Option Progress
  | [], progress => some progress
  | call :: calls, progress => (runCall services progress call).bind (runCalls services calls)

/-- One iteration; an error is the end of the run. -/
def iterate (services : Services) (session : Session) (iteration : Nat) (progress : Progress) :
    Except Outcome Progress :=
  let sent := progress.sent ++ [request session progress.messages]
  let frames := progress.frames ++ [.iteration (iteration + 1) session.maxIter]
  match assistantMessage (services.reply iteration) with
  | .error text => .error ⟨sent, some (frames ++ [.error text])⟩
  | .ok message =>
    if (toolCalls message).isEmpty then
      .error ⟨sent, some (frames ++ [.done message progress.lastRetrievalResult])⟩
    else
      match runCalls services (toolCalls message)
        { progress with messages := progress.messages ++ [message], frames, sent } with
      | none => .error ⟨sent, none⟩
      | some after => .ok after

/-- The frame after the last iteration. -/
def closing (session : Session) (progress : Progress) : Frame :=
  .truncated session.maxIter
    (progress.messages.reverse.find? fun message =>
      decide ((member message "role".str).bind Json.asStr? = some "assistant".str))
    progress.lastRetrievalResult

/-- What is returned after the last iteration. -/
def truncated (session : Session) (progress : Progress) : Outcome where
  sent := progress.sent
  frames := some (progress.frames ++ [closing session progress])

/-- The loop from an iteration on, with the number of those left. -/
def iterations (services : Services) (session : Session) : Nat → Nat → Progress → Outcome
  | 0, _, progress => truncated session progress
  | left + 1, iteration, progress =>
    match iterate services session iteration progress with
    | .error outcome => outcome
    | .ok after => iterations services session left (iteration + 1) after

/-- The messages the first request has. -/
def opened (registry : ToolRegistry) (messages : List Json) : Progress where
  messages := systemMessage registry :: messages
  frames := []
  lastRetrievalResult := none
  dispatched := 0
  sent := []

/-- `run_loop`. -/
def runLoop (services : Services) (registry : ToolRegistry) (cfg : AgentConfig)
    (messages : List Json) (requestMaxIter : Option Nat) (modelOverride : Option Str) : Outcome :=
  let session := session services.settings registry cfg requestMaxIter modelOverride
  iterations services session session.maxIter 0 (opened registry messages)

end LumidPlatform.Agent
