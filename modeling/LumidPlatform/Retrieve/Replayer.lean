import LumidPlatform.Retrieve.Materialize
import LumidPlatform.Retrieve.Plan

/-!
# Replaying a plan

Each step is fetched and recorded in turn; the first that fails ends the run. A run that
comes to its end stores the collected output and answers with the chain of its steps.
What the database answers to a query text is an argument, as are the run id and the
times that are measured.
-/

namespace LumidPlatform.Retrieve.Replayer

open Plan Blobs

/-- An error of the database driver. -/
inductive DbFailure where
  /-- No connection could be taken from the pool. -/
  | pool (text : Str)
  | begin (text : Str)
  | configure (text : Str)
  /-- SQLSTATE 57014. -/
  | canceled
  | server (message code : Str) (detail hint : Option Str)
  | other (text : Str)

structure Settings where
  retrievalStmtTimeoutMs : Nat
  retrievalRowCap : Nat
  retrievalPrefix : Str
  retrievalDbRole : Str

/-- The part of the state that a retrieval uses. -/
structure RetrievalState where
  blobs : BlobState
  settings : Settings
  /-- A read-only transaction: its setup, its query, and the rows in column order, each
  value in its JSON form. -/
  query : (setup sql : Str) → Except DbFailure (List (List (Str × Json)))
  /-- `RetrievalPlan::deserialize`. -/
  planFromValue : Json → Except Str RetrievalPlan

/-- What is measured or drawn in a run. -/
structure Moment where
  runId : Str
  stepMs : Nat → Nat
  latencyMs : Nat

/-! ## Queries -/

def wrapSelectWithCap (cleaned : Str) (probeLimit : Nat) : Str :=
  "SELECT * FROM (\n".str ++ cleaned ++ "\n) AS __retrieval_outer LIMIT ".str ++
    Text.showNat probeLimit

def quotePgIdent (ident : Str) : Str :=
  '"' :: ident.flatMap (fun c => if c = '"' then ['"', '"'] else [c]) ++ ['"']

/-- The statements before the query. -/
def setup (settings : Settings) : Str :=
  let role := Text.trim settings.retrievalDbRole
  "SET TRANSACTION READ ONLY; SET LOCAL statement_timeout = ".str ++
    Text.showNat settings.retrievalStmtTimeoutMs ++
    (if role.isEmpty then [] else "; SET LOCAL ROLE ".str ++ quotePgIdent role)

/-- The query without the semicolons it ends with. -/
def cleaned (query : Str) : Str :=
  Text.trimEnd (Text.trimEndMatches ';' (Text.trimEnd query))

/-- `u64::saturating_add` of one. -/
def probeLimit (rowCap : Nat) : Nat := min (rowCap + 1) (2 ^ 64 - 1)

def describeDbError (message code : Str) (detail hint : Option Str) : Str :=
  message ++ " [".str ++ code ++ "]".str ++
    (detail.map (" — ".str ++ ·)).getD [] ++
    (hint.map (fun h => " (hint: ".str ++ h ++ ")".str)).getD []

def dbError (settings : Settings) : DbFailure → ApiError
  | .pool text => .unavailable ("db pool: ".str ++ text)
  | .begin text => .internal ("begin transaction: ".str ++ text)
  | .configure text => .internal ("configure read txn: ".str ++ text)
  | .canceled => .badRequest ("query exceeded the ".str ++
      Text.showNat settings.retrievalStmtTimeoutMs ++
      "ms statement timeout — narrow the scan (add a WHERE bound, use an index, or query a ".str ++
      "smaller time window) rather than retrying as-is".str)
  | .server message code detail hint => .badRequest (describeDbError message code detail hint)
  | .other text => .badRequest ("SQL execution failed: ".str ++ text)

/-- The record of a row. A repeated column has the value of its first occurrence. -/
def recordOf (row : List (Str × Json)) : Record :=
  row.foldl (fun record column =>
    Record.insert column.1 ((List.lookup column.1 row).getD .null) record) []

/-- `execute_sql_op`, up to writing its rows. -/
def executeSqlOp (state : RetrievalState) (query : Str) : ApiResult (List Record) :=
  let cap := state.settings.retrievalRowCap
  match state.query (setup state.settings) (wrapSelectWithCap (cleaned query) (probeLimit cap)) with
  | .error failure => .error (dbError state.settings failure)
  | .ok rows =>
    if cap < rows.length then
      .error (.badRequest ("SQL result set exceeds row cap (".str ++ Text.showNat cap ++
        "); refine your query".str))
    else .ok (rows.map recordOf)

/-! ## Objects -/

/-- `sanitize_blob_key`. -/
def sanitizeBlobKey (key : Str) : ApiResult Str :=
  match sanitizeKey key with
  | some clean => .ok clean
  | none => .error (.badRequest "invalid key".str)

def tooLarge (key : Str) (size : Nat) : ApiError :=
  .badRequest ("blob ".str ++ key ++ " exceeds LUMID_BLOB_MAX_BYTES (".str ++
    Text.showNat size ++ " bytes)".str)

/-- The bytes of an object, if it is not too large. -/
def boundedBody (state : RetrievalState) (key path : Str) (object : Object) : ApiResult Bytes :=
  if 0 < state.blobs.blobMaxBytes ∧ state.blobs.blobMaxBytes < object.bytes.length then
    .error (tooLarge key object.bytes.length)
  else
    match state.blobs.store.readBody path object with
    | .error error => .error (.internal ("reading blob: ".str ++ error.text))
    | .ok bytes => .ok bytes

/-- The bytes of a `storage_get`. -/
def storageGet (state : RetrievalState) (content : Content) (key : Str) : ApiResult Bytes :=
  match sanitizeBlobKey key with
  | .error error => .error error
  | .ok resolved =>
    let path := state.blobs.store.path resolved
    match state.blobs.store.get content path with
    | .error error =>
      .error (.notFound ("blob '".str ++ key ++ "' not found: ".str ++ error.text))
    | .ok object => boundedBody state key path object

/-! ## Runs -/

/-- What a step has fetched. -/
inductive Fetched where
  | rows (records : List Record)
  | object (bytes : Bytes)

/-- A step up to the point where nothing can fail any more; `none` is a panic. -/
def fetchOp (state : RetrievalState) (content : Content) : RetrievalOp → Option (ApiResult Fetched)
  | .sql query =>
    match isSafeSelect state.blobs.crates.unicode query with
    | none => none
    | some false => some (.error (.badRequest
        ("SQL rejected: only a single read-only SELECT is allowed; got: ".str ++ query.take 200)))
    | some true => some ((executeSqlOp state query).map .rows)
  | .storageGet _ key => some ((storageGet state content key).map .object)

/-- The entry of a step in the chain. -/
def stepOf (op : RetrievalOp) (fetched : Fetched) (ms : Nat) : AccessChainStep :=
  let amount := match fetched with
    | .rows records => records.length
    | .object bytes => bytes.length
  match op with
  | .sql query => ⟨"sql".str, some query, none, none, amount, ms⟩
  | .storageGet _ key => ⟨"storage_get".str, none, none, some key, amount, ms⟩

/-- The record that stands for an object in a format of rows. -/
def descriptor (crates : Crates) (key : Str) (bytes : Bytes) : Record :=
  [("key".str, .string key), ("op".str, .string "storage_get".str),
    ("sha256".str, .string (crates.sha256Hex bytes)), ("size".str, .ofNat bytes.length)]

/-- The rows of a step, and the rows counted for it. -/
def recordStep (crates : Crates) (format : OutputFormat) (op : RetrievalOp) (fetched : Fetched)
    (m : Materializer) : Materializer × Nat :=
  match fetched, op with
  | .rows records, _ =>
    (records.foldl (fun m record => m.writeRow crates record) m, records.length)
  | .object bytes, .storageGet _ key =>
    if format = .raw then (m.writeRawBytes bytes, 0)
    else (m.writeRow crates (descriptor crates key bytes), 1)
  | .object _, .sql _ => (m, 0)

/-- A run so far. -/
structure Progress where
  accessChain : List AccessChainStep
  materializer : Materializer
  totalRows : Nat

/-- The loop of `replay`. -/
def replayOps (state : RetrievalState) (content : Content) (format : OutputFormat)
    (moment : Moment) : List RetrievalOp → Progress → Option (ApiResult Progress)
  | [], progress => some (.ok progress)
  | op :: rest, progress =>
    match fetchOp state content op with
    | none => none
    | some (.error error) => some (.error error)
    | some (.ok fetched) =>
      let recorded := recordStep state.blobs.crates format op fetched progress.materializer
      let step := stepOf op fetched (moment.stepMs progress.accessChain.length)
      replayOps state content format moment rest
        ⟨progress.accessChain ++ [step], recorded.1, progress.totalRows + recorded.2⟩

structure RetrievalResult where
  runId : Str
  materializedUri : Str
  signedUrl : Str
  outputFormat : Str
  accessChain : List AccessChainStep
  rowcount : Nat
  sizeBytes : Nat
  tokensIn : Nat
  tokensOut : Nat
  stepsTaken : Nat
  replayLatencyMs : Nat
  transcriptUrl : Str

/-- A materialized object, with its path. -/
structure Written where
  path : Str
  object : Object

/-- What ends a run that came through: the output is stored. -/
def finish (state : RetrievalState) (format : OutputFormat) (moment : Moment)
    (progress : Progress) : ApiResult (RetrievalResult × Written) := do
  let key := state.settings.retrievalPrefix ++ '/' :: moment.runId ++ "/result.".str ++
    format.extension
  let bytes := progress.materializer.buf
  let (uri, object) ← writeToStore state.blobs.store key bytes format.contentType
  return ({
    runId := moment.runId
    materializedUri := uri
    signedUrl := []
    outputFormat := format.formatName
    accessChain := progress.accessChain
    rowcount := progress.totalRows
    sizeBytes := bytes.length
    tokensIn := 0
    tokensOut := 0
    stepsTaken := 0
    replayLatencyMs := moment.latencyMs
    transcriptUrl := [] }, ⟨state.blobs.store.path key, object⟩)

/-- `replay`; `none` is a panic. -/
def replay (state : RetrievalState) (content : Content) (plan : RetrievalPlan)
    (format : OutputFormat) (moment : Moment) : Option (ApiResult (RetrievalResult × Written)) :=
  if plan.plan.isEmpty then some (.error (.badRequest "plan has no ops to execute".str))
  else
    match replayOps state content format moment plan.plan ⟨[], Materializer.new format, 0⟩ with
    | none => none
    | some (.error error) => some (.error error)
    | some (.ok progress) => some (finish state format moment progress)

/-! ## Results as JSON -/

/-- `Serialize` of an optional text. -/
def ofOption (s : Option Str) : Json := (s.map Json.string).getD .null

/-- `Serialize` of a step. -/
def stepValue (step : AccessChainStep) : Json :=
  .object [("op".str, .string step.op), ("query".str, ofOption step.query),
    ("bucket".str, ofOption step.bucket), ("key".str, ofOption step.key),
    ("rows_or_bytes".str, .ofNat step.rowsOrBytes), ("ms".str, .ofNat step.ms)]

/-- `serde_json::to_value` of a result. -/
def toValue (result : RetrievalResult) : Json :=
  .object [("run_id".str, .string result.runId),
    ("materialized_uri".str, .string result.materializedUri),
    ("signed_url".str, .string result.signedUrl),
    ("output_format".str, .string result.outputFormat),
    ("access_chain".str, .array (result.accessChain.map stepValue)),
    ("rowcount".str, .ofNat result.rowcount), ("size_bytes".str, .ofNat result.sizeBytes),
    ("tokens_in".str, .ofNat result.tokensIn), ("tokens_out".str, .ofNat result.tokensOut),
    ("steps_taken".str, .ofNat result.stepsTaken),
    ("replay_latency_ms".str, .ofNat result.replayLatencyMs),
    ("transcript_url".str, .string result.transcriptUrl)]

/-! ## Requests -/

/-- The output format of a request, JSON lines unless it names another. -/
def formatName (member : Option Json) : Str := (member.bind Json.asStr?).getD "jsonl".str

/-- `parse_request` of `POST /retrieve`. -/
def parseRequest (state : RetrievalState) (body : Json) :
    ApiResult (RetrievalPlan × OutputFormat) := do
  let members := body.asObject?.getD []
  let sql := JsonMap.get members "sql".str
  let plan := JsonMap.get members "plan".str
  let parsed : RetrievalPlan ← match sql, plan with
    | some value, none =>
      match value.asStr? with
      | some query => pure { plan := [.sql query] }
      | none => throw (.badRequest "'sql' must be a string".str)
    | none, some value =>
      match state.planFromValue value with
      | .ok plan => pure plan
      | .error text => throw (.badRequest ("invalid plan JSON: ".str ++ text))
    | _, _ => throw (.badRequest "provide exactly one of 'sql' or 'plan'".str)
  let name := formatName (JsonMap.get members "output_format".str)
  match OutputFormat.ofStr name with
  | some format => return (parsed, format)
  | none => throw (.badRequest ("unknown output_format: '".str ++ name ++
      "' (supported: jsonl, csv, raw — parquet is not implemented)".str))

/-- The arguments of the agent's `replay_retrieval_plan`. -/
def parseArgs (state : RetrievalState) (args : JsonMap) :
    ApiResult (RetrievalPlan × OutputFormat) := do
  match JsonMap.get args "plan".str with
  | none => throw (.badRequest "replay_retrieval_plan requires 'plan'".str)
  | some value =>
    match state.planFromValue value with
    | .error text => throw (.badRequest ("invalid plan JSON: ".str ++ text))
    | .ok plan =>
      let name := formatName (JsonMap.get args "output_format".str)
      match OutputFormat.ofStr name with
      | some format => return (plan, format)
      | none => throw (.badRequest ("unknown output_format: ".str ++ name))

end LumidPlatform.Retrieve.Replayer
