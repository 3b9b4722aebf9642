import LumidPlatform.Auth
import LumidPlatform.Error
import LumidPlatform.Llm.Hedge

/-!
# Dispatch

A request goes to a peer, to the backends of its model one after the other, or to OpenRouter.
OpenRouter is metered: it serves models that the operator mapped and that no backend serves,
and it takes what the backends of a mapped model cannot.
-/

namespace LumidPlatform.Llm

open LumidPlatform.Read.Exec (Peer)

/-- What the proxy is started with. -/
structure Deployment where
  crates : Crates
  env : Env

namespace Deployment

variable (deployment : Deployment)

def settings : Settings := Settings.fromEnv deployment.crates.unicode deployment.env

def pool : BackendPool := BackendPool.fromSettings deployment.settings

end Deployment

/-- A member of a body. -/
def member (body : Json) (key : Str) : Option Json :=
  body.asObject?.bind (fun members => JsonMap.get members key)

/-- `model_of`. -/
def modelOf (body : Json) : Option Str :=
  (((member body "model".str).bind Json.asStr?).map Text.trim).filter (fun s => !s.isEmpty)

/-- `rewrite_model_for_openrouter`. -/
def rewriteModelForOpenrouter (settings : Settings) (body : Json) : Json :=
  match (modelOf body).bind (fun id => settings.llmOpenrouterModelMap.lookup id) with
  | none => body
  | some orId =>
    match body with
    | .object members => .object (JsonMap.insert "model".str (.string orId) members)
    | other => other

/-- `caller_role`. -/
def callerRole (identity : Option Identity) : Str :=
  match identity with
  | some identity => identity.role
  | none => "local".str

/-! ## Resolution -/

/-- `openrouter_serves`. -/
def openrouterServes (map : HashMap Str) (openrouterUrl model : Str) : Bool :=
  !openrouterUrl.isEmpty && decide (model ∈ map)

/-- `can_overflow_to_openrouter`. -/
def canOverflowToOpenrouter (map : HashMap Str) (openrouterUrl : Str) (model : Option Str) :
    Bool :=
  model.any (openrouterServes map openrouterUrl)

/-- `role_may_use_metered_openrouter_model`. -/
def roleMayUseMeteredOpenrouterModel (role : Str) : Bool :=
  role = "admin".str || role = "super_admin".str || role = "local".str

/-- `is_short_prompt`. -/
def isShortPrompt (crates : Crates) (thresholdTokens : Nat) (body : Json) : Bool :=
  if thresholdTokens = 0 then false else (crates.toVec body).length / 4 < thresholdTokens

def isClaude (model : Str) : Bool := Text.startsWith (Text.toAsciiLowercase model) "claude-".str

/-- `resolve`: the backends to try, or none for OpenRouter. -/
def resolve (deployment : Deployment) (loads : Loads) (model : Option Str) (callerRole : Str)
    (short : Bool) : ApiResult (Option (List BackendHandle)) :=
  if model.any isClaude then
    .error (.unavailable ("Claude models are served by the Anthropic pool via claude-proxy, ".str ++
      "not here — refusing (never OpenRouter)".str))
  else
    let settings := deployment.settings
    let backends := deployment.pool.backendsForClass loads model short
    if !backends.isEmpty then
      let allAtRoof := 0 < settings.llmBackendMaxConcurrency &&
        backends.all (fun handle => handle.atRoof (loads handle.url))
      let allDown := backends.all (fun handle => !(loads handle.url).healthy)
      let canOverflow := canOverflowToOpenrouter settings.llmOpenrouterModelMap
        deployment.pool.openrouterUrl model
      if (allAtRoof || allDown) && canOverflow then .ok none else .ok (some backends)
    else
      match model with
      | some m =>
        if openrouterServes settings.llmOpenrouterModelMap deployment.pool.openrouterUrl m then
          if !roleMayUseMeteredOpenrouterModel callerRole then
            .error (.forbidden ("model ".str ++ deployment.crates.unicode.debug m ++
              " requires admin access on this platform (metered, no local backend)".str))
          else .ok none
        else
          .error (.unavailable ("unknown model ".str ++ deployment.crates.unicode.debug m ++
            " — not in LUMID_LLM_BACKENDS nor LUMID_LLM_OPENROUTER_MODEL_MAP ".str ++
            "(unrecognised ids are never forwarded to OpenRouter)".str))
      | none =>
        .error (.unavailable "LLM backend not configured (LUMID_LLM_BACKEND_URL is empty)".str)

/-! ## Attempts -/

/-- The answer of an upstream. The body is missing if it breaks off. -/
structure Answer where
  status : Nat
  contentType : Option Str
  body : Option Bytes

inductive Arrival where
  | failed (timedOut : Bool)
  | answered (answer : Answer)

/-- What comes of the requests that a dispatch sends, in their order. -/
abbrev Network := Nat → Arrival

/-- Why the last backend was given up. -/
inductive Failure where
  | unreachable
  | overloaded

structure Attempts where
  contacts : List Contact
  loads : Loads
  lastErr : Option Failure

/-- The loop over the backends: the first that can be reached, and where that is asked for does
not answer 503, is settled on, with its slot held. -/
def tryBackends (network : Network) (retry503 : Bool) (request : BackendHandle → Contact) :
    List BackendHandle → Attempts → Attempts × Option (BackendHandle × Answer)
  | [], attempts => (attempts, none)
  | handle :: rest, attempts =>
    let acquired := attempts.loads.acquire handle.url
    let contacts := attempts.contacts ++ [request handle]
    match network attempts.contacts.length with
    | .failed _ =>
      tryBackends network retry503 request rest
        ⟨contacts, (acquired.onConnectErr handle.url).release handle.url, some .unreachable⟩
    | .answered answer =>
      if retry503 && answer.status = 503 then
        tryBackends network retry503 request rest
          ⟨contacts, (acquired.onConnectErr handle.url).release handle.url, some .overloaded⟩
      else (⟨contacts, acquired.onConnectOk handle.url, attempts.lastErr⟩, some (handle, answer))

/-- How the client is answered. -/
inductive Reply where
  | error (error : ApiError)
  | json (status : Nat) (body : Json)
  | bytes (status : Nat) (contentType : Str) (body : Bytes)
  /-- An event stream of one frame. -/
  | events (data : Json)
  /-- The stream of an upstream, with keepalive comments between its chunks. -/
  | relay
  /-- A stream that a task feeds, which holds the slot of its backend. -/
  | stream (handle : BackendHandle) (task : StreamTask)

structure Dispatched where
  contacts : List Contact
  loads : Loads
  reply : Reply

def detail (text : Str) : Json := .object [("detail".str, .string text)]

/-- The status and body of an upstream, with a body that is no JSON wrapped. -/
def relayJson (crates : Crates) (truncated nonJson : Str) (answer : Answer) : Reply :=
  match answer.body with
  | none => .json 502 (detail truncated)
  | some bytes =>
    match crates.fromSlice bytes with
    | some payload => .json answer.status payload
    | none => .json answer.status (.object [("error".str, .string nonJson),
        ("raw".str, .string ((Text.fromUtf8Lossy bytes).take 1024))])

/-- The frame that says that an upstream answered with an error. -/
def errorFrame (limit : Option Nat) (answer : Answer) : Json :=
  let text := Text.fromUtf8Lossy (answer.body.getD [])
  .object [("error".str, .string ((limit.map text.take).getD text)),
    ("status".str, .number (.int answer.status))]

section

variable (deployment : Deployment) (network : Network)

/-- The request of `proxy_json_openrouter` and `proxy_stream_openrouter`. -/
def openrouterContact (path : Str) (body : Json) : Contact :=
  ⟨.openrouter, deployment.pool.openrouterUrl ++ path, deployment.settings.openrouterBearer,
    .json body⟩

/-- `proxy_json_openrouter`. -/
def proxyJsonOpenrouter (path : Str) (body : Json) (attempts : Attempts) : Dispatched :=
  let contacts := attempts.contacts ++ [openrouterContact deployment path body]
  match network attempts.contacts.length with
  | .failed _ => ⟨contacts, attempts.loads, .json 502 (detail "openrouter unreachable".str)⟩
  | .answered answer => ⟨contacts, attempts.loads,
      relayJson deployment.crates "openrouter body error".str "non-json".str answer⟩

/-- `proxy_stream_openrouter`. -/
def proxyStreamOpenrouter (path : Str) (body : Json) (attempts : Attempts) : Dispatched :=
  let contacts := attempts.contacts ++ [openrouterContact deployment path body]
  match network attempts.contacts.length with
  | .failed _ => ⟨contacts, attempts.loads,
      .events (.object [("error".str, .string "openrouter unreachable".str)])⟩
  | .answered answer =>
    if answer.status < 400 then ⟨contacts, attempts.loads, .relay⟩
    else ⟨contacts, attempts.loads, .events (errorFrame none answer)⟩

/-- The request to a backend. -/
def backendContact (path : Str) (body : Payload) (handle : BackendHandle) : Contact :=
  ⟨.backend, handle.url ++ path, deployment.settings.localBearer, body⟩

/-- `proxy_json`. -/
def proxyJson (backends : List BackendHandle) (path : Str) (body : Json) (loads : Loads) :
    Dispatched :=
  match tryBackends network true (backendContact deployment path (.json body)) backends
      ⟨[], loads, none⟩ with
  | (attempts, some (handle, answer)) => ⟨attempts.contacts, attempts.loads.release handle.url,
      relayJson deployment.crates "upstream LLM body truncated".str
        "non-json upstream response".str answer⟩
  | (attempts, none) =>
    if (modelOf body).any (openrouterServes deployment.settings.llmOpenrouterModelMap
        deployment.pool.openrouterUrl) then
      proxyJsonOpenrouter deployment network path
        (rewriteModelForOpenrouter deployment.settings body) attempts
    else
      ⟨attempts.contacts, attempts.loads, match attempts.lastErr with
        | some .unreachable => .json 502 (detail "upstream LLM unreachable".str)
        | some .overloaded => .json 503 (detail "upstream LLM overloaded".str)
        | none => .json 502 (detail "all LLM backends unavailable".str)⟩

/-- `model_is_mapped`, on the id as it is written. -/
def modelIsMapped (body : Json) : Bool :=
  ((member body "model".str).bind Json.asStr?).any (fun m =>
    decide (m ∈ deployment.settings.llmOpenrouterModelMap))

/-- The hedge plan of a stream. -/
def hedgePlan (path : Str) (body : Json) : Option Contact :=
  if 0 < deployment.settings.llmHedgeAfterS then
    if deployment.pool.openrouterUrl.isEmpty || !modelIsMapped deployment body then none
    else some ⟨.openrouter, deployment.pool.openrouterUrl ++ path,
      some deployment.settings.openrouterKey,
      .json (rewriteModelForOpenrouter deployment.settings body)⟩
  else none

/-- `proxy_stream`. -/
def proxyStream (backends : List BackendHandle) (path : Str) (body : Json) (loads : Loads) :
    Dispatched :=
  match tryBackends network true (backendContact deployment path (.json body)) backends
      ⟨[], loads, none⟩ with
  | (attempts, some (handle, answer)) =>
    if 400 ≤ answer.status then ⟨attempts.contacts, attempts.loads.release handle.url,
      .events (errorFrame (some 1024) answer)⟩
    else ⟨attempts.contacts, attempts.loads,
      .stream handle (StreamTask.start (hedgePlan deployment path body))⟩
  | (attempts, none) =>
    if openrouterServes deployment.settings.llmOpenrouterModelMap deployment.pool.openrouterUrl
        ((modelOf body).getD []) then
      proxyStreamOpenrouter deployment network path
        (rewriteModelForOpenrouter deployment.settings body) attempts
    else
      ⟨attempts.contacts, attempts.loads,
        .events (.object [("error".str, .string "all LLM backends unavailable".str)])⟩

/-- The loop of `proxy_bytes` and `proxy_multipart`. -/
def proxyOpaque (unreachable truncated exhausted defaultType path : Str) (body : Payload)
    (backends : List BackendHandle) (loads : Loads) : Dispatched :=
  match tryBackends network false (backendContact deployment path body) backends
      ⟨[], loads, none⟩ with
  | (attempts, some (handle, answer)) =>
    ⟨attempts.contacts, attempts.loads.release handle.url, match answer.body with
      | some bytes => .bytes answer.status (answer.contentType.getD defaultType) bytes
      | none => .json 502 (detail truncated)⟩
  | (attempts, none) => ⟨attempts.contacts, attempts.loads,
      .json 502 (detail (if attempts.lastErr.isSome then unreachable else exhausted))⟩

/-- `proxy_bytes`. -/
def proxyBytes (backends : List BackendHandle) (path : Str) (body : Json) (loads : Loads) :
    Dispatched :=
  proxyOpaque deployment network "upstream media backend unreachable".str
    "upstream media body truncated".str "no media backend answered".str
    "application/octet-stream".str path (.json body) backends loads

/-- `proxy_multipart`. -/
def proxyMultipart (backends : List BackendHandle) (path : Str) (body : Bytes)
    (contentType : Str) (loads : Loads) : Dispatched :=
  proxyOpaque deployment network "upstream transcription backend unreachable".str
    "upstream transcription body truncated".str "no transcription backend answered".str
    "application/json".str path (.raw contentType body) backends loads

/-! ## Federation -/

/-- `federation_peer`. -/
def federationPeer : ApiResult (Option Peer) :=
  match deployment.settings.llmFederate with
  | none => .ok none
  | some pid =>
    match (mapOf (deployment.settings.peers.map (fun peer => (peer.id, peer)))).lookup pid with
    | some peer => .ok (some peer)
    | none => .error (.unavailable ("LUMID_LLM_FEDERATE=".str ++ pid ++
        " names no configured peer (check LUMID_PEERS)".str))

/-- The request to a peer. -/
def peerContact (peer : Peer) (path : Str) (body : Json) : Contact :=
  ⟨.peer, Text.trimEndMatches '/' peer.baseUrl ++ path,
    if peer.token.isEmpty then none else some peer.token, .json body⟩

/-- `proxy_json_peer`. -/
def proxyJsonPeer (peer : Peer) (path : Str) (body : Json) (loads : Loads) : Dispatched :=
  match network 0 with
  | .failed timedOut => ⟨[peerContact peer path body], loads,
      if timedOut then .json 504 (detail "upstream LLM timed out".str)
      else .json 502 (detail "upstream LLM unreachable".str)⟩
  | .answered answer => ⟨[peerContact peer path body], loads,
      relayJson deployment.crates "upstream LLM unreachable".str
        "non-json upstream response".str answer⟩

/-- `proxy_stream_peer`. -/
def proxyStreamPeer (peer : Peer) (path : Str) (body : Json) (loads : Loads) : Dispatched :=
  match network 0 with
  | .failed _ => ⟨[peerContact peer path body], loads,
      .events (.object [("error".str, .string "upstream unreachable".str)])⟩
  | .answered answer =>
    if 400 ≤ answer.status then
      ⟨[peerContact peer path body], loads, .events (errorFrame (some 1024) answer)⟩
    else ⟨[peerContact peer path body], loads, .relay⟩

/-! ## The three dispatches -/

/-- `dispatch_json`. -/
def dispatchJson (loads : Loads) (identity : Option Identity) (path : Str) (body : Json) :
    Dispatched :=
  match federationPeer deployment with
  | .error error => ⟨[], loads, .error error⟩
  | .ok (some peer) => proxyJsonPeer deployment network peer path body loads
  | .ok none =>
    match resolve deployment loads (modelOf body) (callerRole identity)
        (isShortPrompt deployment.crates deployment.settings.llmShortPromptTokens body) with
    | .error error => ⟨[], loads, .error error⟩
    | .ok none => proxyJsonOpenrouter deployment network path
        (rewriteModelForOpenrouter deployment.settings body) ⟨[], loads, none⟩
    | .ok (some backends) => proxyJson deployment network backends path body loads

/-- `dispatch_stream`. -/
def dispatchStream (loads : Loads) (identity : Option Identity) (path : Str) (body : Json) :
    Dispatched :=
  match federationPeer deployment with
  | .error error => ⟨[], loads, .error error⟩
  | .ok (some peer) => proxyStreamPeer network peer path body loads
  | .ok none =>
    match resolve deployment loads (modelOf body) (callerRole identity)
        (isShortPrompt deployment.crates deployment.settings.llmShortPromptTokens body) with
    | .error error => ⟨[], loads, .error error⟩
    | .ok none => proxyStreamOpenrouter deployment network path
        (rewriteModelForOpenrouter deployment.settings body) ⟨[], loads, none⟩
    | .ok (some backends) => proxyStream deployment network backends path body loads

def neverForwarded : Json :=
  detail "no local backend for this model; binary endpoints are never forwarded upstream".str

/-- `dispatch_bytes`. -/
def dispatchBytes (loads : Loads) (identity : Option Identity) (path : Str) (body : Json) :
    Dispatched :=
  match resolve deployment loads (modelOf body) (callerRole identity) false with
  | .error error => ⟨[], loads, .error error⟩
  | .ok none => ⟨[], loads, .json 503 neverForwarded⟩
  | .ok (some backends) => proxyBytes deployment network backends path body loads

/-- What stands before and after the first place of some bytes. -/
def cutAt (needle : Bytes) : Bytes → Option (Bytes × Bytes)
  | [] => none
  | byte :: rest =>
    if needle.isPrefixOf (byte :: rest) then some ([], (byte :: rest).drop needle.length)
    else (cutAt needle rest).map (fun parts => (byte :: parts.1, parts.2))

/-- `multipart_model`. -/
def multipartModel (body : Bytes) : Option Str :=
  (cutAt (Text.utf8 "name=\"model\"".str) body).bind (fun named =>
    (cutAt (Text.utf8 "\r\n\r\n".str) named.2).bind (fun headed =>
      (cutAt (Text.utf8 "\r\n".str) headed.2).bind (fun value =>
        ((Text.fromUtf8 value.1).map Text.trim).filter (fun s => !s.isEmpty))))

/-- `audio_transcriptions`. -/
def audioTranscriptions (loads : Loads) (identity : Option Identity) (contentType : Str)
    (body : Bytes) : Dispatched :=
  if !Text.startsWith contentType "multipart/form-data".str then
    ⟨[], loads, .error (.badRequest
      "/v1/audio/transcriptions expects multipart/form-data with `file` and `model`".str)⟩
  else
    match multipartModel body with
    | none => ⟨[], loads, .error (.badRequest
        "multipart body must carry a `model` field naming a configured backend".str)⟩
    | some model =>
      match resolve deployment loads (some model) (callerRole identity) false with
      | .error error => ⟨[], loads, .error error⟩
      | .ok none => ⟨[], loads, .json 503 neverForwarded⟩
      | .ok (some backends) =>
        proxyMultipart deployment network backends "/v1/audio/transcriptions".str body contentType
          loads

end

end LumidPlatform.Llm
