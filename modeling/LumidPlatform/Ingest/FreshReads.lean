import LumidPlatform.Ingest.Reports
import LumidPlatform.Ingest.Gate
import LumidPlatform.Lib.Fallible
import LumidPlatform.Sync.Inbox

/-!
# Cached reads after a write

A request that has written rows drops the cached reads of their table. All that a request asks
of the outside may fail: the connections, the runs, the writes and the ledger. Where it fails
behind a write, the reads of that write have to be dropped all the same. A stream takes another
connection after its chunks, and drops them only then.
-/

namespace LumidPlatform.Ingest.FreshReads

open LumidPlatform.Write LumidPlatform.Ingest.Core
open LumidPlatform.Ingest.Stream (Tally)
open LumidPlatform.Ingest.Closing (Run head4000 errorText)
open LumidPlatform.Ingest.Reports (chunksOf)
open LumidPlatform.Sync (Preamble LedgerRow Delivery SyncAck requireSyncPeer isDeniedSchema
  fullyRejected)

/-! ## The outside -/

/-- What is used of a row of `provenance.webhooks`. -/
structure Webhook where
  webhookId : Str
  ownerSub : Str
  targetSchema : Option Str
  targetTable : Option Str
  adapterId : Option Str
  sourceEndpoint : Option Str

/-- What a request asks of the outside, in whatever state that is. -/
structure Services (D : Type) extends Engines D where
  gateTarget : Identity → TableName → D → ApiResult Bool × D
  propose : TableName → Identity → List Json → D → ApiResult Json × D
  /-- `pool.get`. -/
  connect : D → ApiResult Unit × D
  openRun : Json → D → ApiResult Str × D
  setSubmittedBy : Str → Str → D → ApiResult Unit × D
  closeRun : Str → Run → D → ApiResult Unit × D
  authenticate : Str → Bytes → Str → D → ApiResult Webhook × D
  checkCanWrite : Str → TableName → D → ApiResult Unit × D
  ledgerRow : Str → Str → D → ApiResult (Option (Nat × Nat)) × D
  upsertPreamble : Preamble → D → ApiResult Unit × D
  runExists : Str → D → ApiResult Bool × D
  insertLedger : LedgerRow → D → ApiResult Unit × D

/-- A merge that was committed. -/
structure Merge where
  name : TableName
  inserted : Nat
  updated : Nat

/-- The outside, and the tables whose reads were dropped. The merges that were committed decide
nothing. -/
structure World (D : Type) where
  db : D
  merges : List Merge := []
  invalidated : List TableName := []

/-- Why a handler ends without an answer of its own. -/
inductive Stop where
  | error (error : ApiError)
  | panicked

/-- A handler reads and writes the world, and fails with an answer or a panic. -/
abbrev Handler (D T : Type) : Type := Fallible (World D) Stop T

variable {D T : Type}

/-- `?` on what the outside answers. -/
def ask (question : D → ApiResult T × D) : Handler D T := ⟨fun w =>
  match question w.db with
  | (.ok t, db) => (.ok t, { w with db })
  | (.error failure, db) => (.error (.error failure), { w with db })⟩

/-- What the outside answers, without `?`. -/
def attempt (question : D → ApiResult T × D) : Handler D (ApiResult T) :=
  ⟨fun w => (.ok (question w.db).1, { w with db := (question w.db).2 })⟩

/-- `return Err`. -/
def fail (failure : ApiError) : Handler D T := Fallible.stop (.error failure)

/-- `?` on a result: a failure is the answer. -/
def orFail (result : ApiResult T) : Handler D T :=
  match result with
  | .ok t => pure t
  | .error failure => fail failure

/-- `&text[..text.len().min(4000)]`. -/
def sliced (text : Str) : Handler D Str :=
  match head4000 text with
  | some cut => pure cut
  | none => Fallible.stop .panicked

/-- What an action that is not followed by `?` ends in. -/
def caught (action : Handler D T) : Handler D (ApiResult T) := ⟨fun w =>
  match action.run w with
  | (.ok t, w) => (.ok (.ok t), w)
  | (.error (.error failure), w) => (.ok (.error failure), w)
  | (.error .panicked, w) => (.error .panicked, w)⟩

/-- `backend.write_records`. -/
def writeRecords (services : Services D) (req : Core.WriteRequest) :
    Handler D (ApiResult (Nat × Nat)) := ⟨fun w =>
  match services.writeRecords req w.db with
  | (.ok (inserted, updated), db) => (.ok (.ok (inserted, updated)),
      { w with db, merges := w.merges ++ [⟨(req.schema, req.table), inserted, updated⟩] })
  | (.error failure, db) => (.ok (.error failure), { w with db })⟩

/-- `read_cache.invalidate_table`. -/
def invalidateTable (name : TableName) : Handler D Unit :=
  Fallible.change (fun w => { w with invalidated := w.invalidated ++ [name] })

/-! ## `ingest_records` -/

/-- `IngestParams`, validated always. -/
structure Params where
  name : TableName
  source : Str
  sourceEndpoint : Str
  submittedBy : Str
  runId : Option Str
  declaredEndpoint : Option Str
  mode : Str
  userAgent : Option Str

/-- A member that is there. -/
def member (key : Str) (value : Option Str) : JsonMap :=
  match value with
  | some text => [(key, .string text)]
  | none => []

/-- The `args` of the run of a call. -/
def Params.runArgs (p : Params) (received : Nat) : Json :=
  .object ([("target_schema".str, .string p.name.1), ("target_table".str, .string p.name.2),
      ("mode".str, .string p.mode), ("n_records_received".str, .ofNat received)] ++
    member "declared_endpoint".str p.declaredEndpoint ++ member "user_agent".str p.userAgent ++
    [("submitted_by".str, .string p.submittedBy)])

/-- Open or adopt the run row. -/
def startRun (services : Services D) (p : Params) (received : Nat) : Handler D Str :=
  match p.runId with
  | some runId => pure runId
  | none => do
    let runId ← ask (services.openRun (p.runArgs received))
    ask (services.setSubmittedBy runId p.submittedBy)
    pure runId

/-- An owned run is closed; that it cannot be is only logged. -/
def closeOwned (services : Services D) (p : Params) (runId : Str) (run : Run) :
    Handler D Unit :=
  match p.runId with
  | some _ => pure ()
  | none => do
    let _ ← attempt (services.closeRun runId run)
    pure ()

/-- `ingest_records` behind its write. -/
def conclude (services : Services D) (p : Params) (runId : Str) (received : Nat)
    (rejected : List Rejected) : ApiResult (Nat × Nat) → Handler D IngestResult
  | .ok (inserted, updated) => do
    let status : Core.Status := if rejected.isEmpty then .ok else .partly
    closeOwned services p runId ⟨status.text, inserted, updated, rejected.length, none⟩
    pure ⟨some runId, p.name.1, p.name.2, received, inserted, updated, rejected.length, rejected,
      status⟩
  | .error failure => do
    let trunc ← sliced (errorText failure)
    closeOwned services p runId ⟨"failed".str, 0, 0, rejected.length, some trunc⟩
    fail (.internal ("ingest write failed; check server logs for run ".str ++ runId))

/-- What is asked of the engine. -/
def Params.request (p : Params) (table : TableMeta) (parsed : List Json) (runId : Str) :
    Core.WriteRequest :=
  ⟨p.name.1, p.name.2, table, parsed, p.source, p.sourceEndpoint, runId⟩

/-- `ingest_records` for a table that was found. -/
def ingestInto (services : Services D) (p : Params) (table : TableMeta) (records : List Json) :
    Handler D IngestResult :=
  let (parsed, rejected) := validateBatch table records
  if parsed.isEmpty && !rejected.isEmpty then
    pure ⟨none, p.name.1, p.name.2, records.length, 0, 0, rejected.length, rejected, .failed⟩
  else do
    let runId ← startRun services p records.length
    let written ← writeRecords services (p.request table parsed runId)
    conclude services p runId records.length rejected written

/-- `ingest_records`. -/
def ingestRecords (unicode : Unicode) (services : Services D) (p : Params)
    (records : List Json) : Handler D IngestResult :=
  match paramsError unicode ⟨p.name.1, p.name.2, p.source, p.sourceEndpoint, []⟩ with
  | some failure => fail failure
  | none => do
    ask services.connect
    let found ← ask (services.tableMeta p.name.1 p.name.2)
    match found with
    | none => fail (.notFound ("unknown table: ".str ++ p.name.1 ++ '.' :: p.name.2))
    | some table => ingestInto services p table records

/-! ## Handlers -/

/-- The reads of a table are dropped if rows of it were written. -/
def invalidateWritten (name : TableName) (count : Nat) : Handler D Unit :=
  if 0 < count then invalidateTable name else pure ()

/-- `invalidate_reads`. -/
def invalidateReads (result : IngestResult) : Handler D Unit :=
  invalidateWritten (result.targetSchema, result.targetTable) (result.inserted + result.updated)

/-- The end of `post_typed` and `post_file`; `all_failed` is an error. -/
def answerWith (unicode : Unicode) (services : Services D) (p : Params) (records : List Json) :
    Handler D Json := do
  let result ← ingestRecords unicode services p records
  invalidateReads result
  if fullyRejected result then fail (.validation result.toJson) else pure result.toJson

/-- The part of a request that all handlers behind the gate read. -/
structure Call where
  identity : Identity
  name : TableName
  userAgent : Option Str

/-- `format!("ingress:{}", identity.sub)`. -/
def Call.source (call : Call) : Str := "ingress:".str ++ call.identity.sub

/-- The answer where a call names no table. -/
def Call.unknown (call : Call) : ApiError :=
  .notFound ("unknown table: ".str ++ call.name.1 ++ '.' :: call.name.2)

/-- `post_typed`. -/
def postTyped (unicode : Unicode) (services : Services D) (call : Call) (declared : Option Str)
    (records : List Json) : Handler D Json :=
  if records.isEmpty then fail (.badRequest "`records` must be non-empty".str)
  else do
    let known ← ask (services.gateTarget call.identity call.name)
    if known then
      answerWith unicode services ⟨call.name, call.source, declared.getD call.source,
        call.identity.sub, none, declared, "typed".str, call.userAgent⟩ records
    else ask (services.propose call.name call.identity records)

/-- A file part: its kind, the text of its name, and what its records are parsed to. -/
structure Upload where
  kind : Str
  shownName : Str
  records : ApiResult (List Json)

/-- `post_file`, with the form field for the endpoint. -/
def postFile (unicode : Unicode) (services : Services D) (call : Call) (endpoint : Option Str)
    (upload : Upload) : Handler D Json := do
  let known ← ask (services.gateTarget call.identity call.name)
  if known then do
    let records ← orFail upload.records
    if records.isEmpty then
      pure (.object [("run_id".str, .string []), ("target_schema".str, .string call.name.1),
        ("target_table".str, .string call.name.2), ("received".str, .ofNat 0),
        ("inserted".str, .ofNat 0), ("updated".str, .ofNat 0), ("failed".str, .ofNat 0),
        ("rejected".str, .array []), ("status".str, .string "ok".str),
        ("_note".str, .string ("parsed 0 records from ".str ++ upload.shownName))])
    else
      answerWith unicode services ⟨call.name, call.source,
        endpoint.getD ("ingress:file/".str ++ upload.kind), call.identity.sub, none, endpoint,
        "file:".str ++ upload.kind, call.userAgent⟩ records
  else fail call.unknown

/-- A request to `/webhook/{webhook_id}`, with its body read as JSON. -/
structure Hook where
  webhookId : Str
  body : Bytes
  signature : Str
  envelope : ApiResult Json
  userAgent : Option Str

/-- The `records` of the envelope. -/
def recordsOf (envelope : Json) : ApiResult (List Json) :=
  match envelope.asObject?.bind (fun members => JsonMap.get members "records".str) with
  | some (.array (record :: rest)) => .ok (record :: rest)
  | _ => .error (.badRequest "`records` must be a non-empty list".str)

/-- The target of a webhook. -/
def Webhook.target (wh : Webhook) : ApiResult TableName :=
  match wh.adapterId, wh.targetSchema, wh.targetTable with
  | some _, _, _ => .error (.unavailable
      "adapter-bound webhooks are handled by the Python sidecar on this build".str)
  | none, some schema, some table => .ok (schema, table)
  | none, _, _ => .error (.badRequest "webhook has no typed target".str)

/-- `post_webhook`. That the webhook was used is stamped by a task of its own. -/
def postWebhook (unicode : Unicode) (services : Services D) (hook : Hook) : Handler D Json :=
  if hook.body.isEmpty then fail (.badRequest "empty body".str)
  else do
    let wh ← ask (services.authenticate hook.webhookId hook.body hook.signature)
    let name ← orFail wh.target
    let envelope ← orFail hook.envelope
    let records ← orFail (recordsOf envelope)
    ask (services.checkCanWrite "local".str name)
    let source := "ingress:webhook:".str ++ wh.webhookId
    let declared := wh.sourceEndpoint.getD source
    let result ← ingestRecords unicode services ⟨name, source, declared, wh.ownerSub, none,
      some declared, "webhook".str, hook.userAgent⟩ records
    invalidateReads result
    pure result.toJson

/-- `post_sync_apply` from the preamble on. -/
def applyDelivery (unicode : Unicode) (services : Services D) (peer : Str)
    (delivery : Delivery) : Handler D SyncAck := do
  ask (services.upsertPreamble delivery.body.provenance)
  let known ← ask (services.runExists delivery.body.sourceRunId)
  if known then do
    let result ← ingestRecords unicode services ⟨(delivery.schema, delivery.table),
      delivery.body.source, delivery.body.sourceEndpoint, peer, some delivery.body.sourceRunId,
      none, "sync".str, none⟩ delivery.body.records
    if fullyRejected result then fail (.validation result.toJson)
    else do
      invalidateWritten (delivery.schema, delivery.table) (result.inserted + result.updated)
      ask (services.insertLedger (delivery.row peer result))
      pure ⟨delivery.body.batchId, result.inserted, result.updated, result.failed, false⟩
  else
    fail (.badRequest ("adopted run ".str ++ delivery.body.sourceRunId ++
      " has no provenance.runs row; include it in `provenance.runs`".str))

/-- `post_sync_apply`. -/
def postSyncApply (unicode : Unicode) (services : Services D) (labels : List Str)
    (delivery : Delivery) : Handler D SyncAck := do
  let peer ← orFail (requireSyncPeer labels delivery.identity)
  if isDeniedSchema delivery.schema then
    fail (.forbidden ("schema `".str ++ delivery.schema ++
      "` is not a permitted sync target".str))
  else if delivery.body.records.isEmpty then
    fail (.badRequest "`records` must be non-empty".str)
  else do
    ask services.connect
    let row ← ask (services.ledgerRow peer delivery.body.batchId)
    match row with
    | some (inserted, updated) => pure ⟨delivery.body.batchId, inserted, updated, 0, true⟩
    | none => applyDelivery unicode services peer delivery

/-! ## The stream -/

/-- A stream, with what its body is decoded and parsed to. -/
structure Streamed extends Call where
  declared : Option Str
  records : ApiResult (List Json)

/-- `post_stream` up to its run. -/
def openStream (services : Services D) (stream : Streamed) : Handler D (List Json × Str) := do
  let known ← ask (services.gateTarget stream.identity stream.name)
  if known then do
    let records ← orFail stream.records
    ask services.connect
    let runId ← ask (services.openRun (.object [("target_schema".str, .string stream.name.1),
      ("target_table".str, .string stream.name.2), ("mode".str, .string "stream".str),
      ("declared_endpoint".str, match stream.declared with | some text => .string text | none => .null),
      ("user_agent".str, match stream.userAgent with | some text => .string text | none => .null),
      ("submitted_by".str, .string stream.identity.sub)]))
    ask (services.setSubmittedBy runId stream.identity.sub)
    pure (records, runId)
  else fail stream.unknown

/-- The parameters under which every chunk of a stream is ingested: those of its one run. -/
def Streamed.params (stream : Streamed) (runId : Str) : Params :=
  ⟨stream.name, stream.source, stream.declared.getD stream.source, stream.identity.sub,
    some runId, stream.declared, "stream".str, stream.userAgent⟩

/-- The loop over the chunks, with `error_text`. -/
def streamLoop (unicode : Unicode) (services : Services D) (p : Params) :
    List (List Json) → Tally → Handler D (Tally × Option Str)
  | [], tally => pure (tally, none)
  | chunk :: rest, tally => do
    let ended ← caught (ingestRecords unicode services p chunk)
    match ended with
    | .ok result => streamLoop unicode services p rest (tally.add result)
    | .error failure => do
      let text ← sliced failure.toText
      pure ({ tally with error := some failure }, some text)

/-- `post_stream` behind its loop. -/
def closeStream (services : Services D) (stream : Streamed) (received : Nat) (runId : Str)
    (tally : Tally) (text : Option Str) : Handler D Json := do
  ask services.connect
  let _ ← attempt (services.closeRun runId
    ⟨tally.status.text, tally.inserted, tally.updated, tally.failed, text⟩)
  invalidateWritten stream.name (tally.inserted + tally.updated)
  match tally.error with
  | some _ => fail (.internal ("stream ingest failed; see run ".str ++ runId ++ " for details".str))
  | none => pure (IngestResult.toJson ⟨some runId, stream.name.1, stream.name.2, received,
      tally.inserted, tally.updated, tally.failed, tally.rejected.take 50, tally.status⟩)

/-- `post_stream`. -/
def postStream (unicode : Unicode) (services : Services D) (stream : Streamed) :
    Handler D Json := do
  let opened ← openStream services stream
  let ended ← streamLoop unicode services (stream.params opened.2) (chunksOf opened.1) {}
  closeStream services stream opened.1.length opened.2 ended.1 ended.2

/-! ## A request -/

/-- The ways to write to a table. -/
inductive Request where
  | typed (call : Call) (declared : Option Str) (records : List Json)
  | stream (stream : Streamed)
  | file (call : Call) (endpoint : Option Str) (upload : Upload)
  | webhook (hook : Hook)
  | sync (labels : List Str) (delivery : Delivery)

/-- The outside before a request, which has merged nothing yet. -/
def World.start (db : D) : World D := { db }

/-- The world a request leaves. -/
def Request.after (unicode : Unicode) (services : Services D) (db : D) : Request → World D
  | typed call declared records =>
    ((postTyped unicode services call declared records).run (.start db)).2
  | stream streamed => ((postStream unicode services streamed).run (.start db)).2
  | file call endpoint upload => ((postFile unicode services call endpoint upload).run (.start db)).2
  | webhook hook => ((postWebhook unicode services hook).run (.start db)).2
  | sync labels delivery => ((postSyncApply unicode services labels delivery).run (.start db)).2

/-- The reads of every table that rows were merged into were dropped. -/
def Served (w : World D) : Prop :=
  ∀ merge ∈ w.merges, 0 < merge.inserted + merge.updated → merge.name ∈ w.invalidated

/-! ## What leaves the merges alone -/

variable {unicode : Unicode} {services : Services D} {p : Params} {w w' : World D}
  {records : List Json}

/-- What is kept of the tables. -/
def World.trace (w : World D) : List Merge × List TableName := (w.merges, w.invalidated)

/-- An action that leaves the trace of merges, answers and invalidations as it is. -/
abbrev Quiet (action : Handler D T) : Prop := Fallible.Leaves World.trace action

/-- A question to the database is quiet, whatever it answers. -/
theorem ask_quiet (question : D → ApiResult T × D) : Quiet (ask question) := by
  intro w
  simp only [ask]
  split <;> rfl

/-- So is one whose failure is only logged. -/
theorem attempt_quiet (question : D → ApiResult T × D) : Quiet (attempt question) := fun _ => rfl

/-- A failure alone is quiet. -/
theorem orFail_quiet (result : ApiResult T) : Quiet (orFail result : Handler D T) := by
  cases result with
  | ok t => exact .pure t
  | error failure => exact .stop _

/-- Cutting a text is quiet, also where it panics. -/
theorem sliced_quiet (text : Str) : Quiet (sliced text : Handler D Str) := by
  rw [sliced]
  split
  · exact .pure _
  · exact .stop _

/-- Recording a run is quiet. -/
theorem startRun_quiet (received : Nat) : Quiet (startRun services p received) := by
  rw [startRun]
  split
  · exact .pure _
  · exact .bind (ask_quiet _) fun _ => .bind (ask_quiet _) fun _ => .pure _

/-- Closing a run is quiet. -/
theorem closeOwned_quiet (runId : Str) (run : Run) : Quiet (closeOwned services p runId run) := by
  rw [closeOwned]
  split
  · exact .pure _
  · exact .bind (attempt_quiet _) fun _ => .pure _

/-- Concluding a call is quiet, whether its write succeeded or not. -/
theorem conclude_quiet (runId : Str) (received : Nat) (rejected : List Rejected)
    (written : ApiResult (Nat × Nat)) :
    Quiet (conclude services p runId received rejected written) := by
  cases written with
  | ok counts => exact .bind (closeOwned_quiet _ _) fun _ => .pure _
  | error failure =>
    exact .bind (sliced_quiet _) fun _ => .bind (closeOwned_quiet _ _) fun _ => .stop _

/-- A quiet action keeps what holds of the merges and the reads that were dropped. -/
theorem Quiet.served {action : Handler D T} (quiet : Quiet action) :
    Fallible.Keeps Served action := by
  intro w served
  have merges := congrArg Prod.fst (quiet w)
  have invalidated := congrArg Prod.snd (quiet w)
  simp only [World.trace] at merges invalidated
  rw [Served, merges, invalidated]
  exact served

/-! ## A call -/

/-- What was merged beyond what was served is into one table, if a count says so. -/
def Owes (name : TableName) (count : Nat) (w : World D) : Prop :=
  ∀ merge ∈ w.merges, 0 < merge.inserted + merge.updated →
    merge.name ∈ w.invalidated ∨ (merge.name = name ∧ 0 < count)

/-- What a call has merged: nothing where it fails, and what its result says. -/
structure Merged (p : Params) (w w' : World D) (ended : Except Stop IngestResult) : Prop where
  invalidated : w'.invalidated = w.invalidated
  failed : ∀ reason, ended = .error reason → w'.merges = w.merges
  named : ∀ result, ended = .ok result → (result.targetSchema, result.targetTable) = p.name
  counted : ∀ result, ended = .ok result →
    (w'.merges = w.merges ∧ result.inserted + result.updated = 0) ∨
      w'.merges = w.merges ++ [⟨p.name, result.inserted, result.updated⟩]

/-- A call that stops before its write has merged nothing. -/
theorem Merged.of_stop {reason : Stop} (same : w'.trace = w.trace) :
    Merged p w w' (.error reason) := by
  refine ⟨congrArg Prod.snd same, fun _ _ => congrArg Prod.fst same, ?_, ?_⟩
  · exact fun _ impossible => by cases impossible
  · exact fun _ impossible => by cases impossible

/-- What a call does before it says what it has merged may be left out. -/
theorem Merged.after {between : World D} {ended : Except Stop IngestResult}
    (same : between.trace = w.trace) (merged : Merged p between w' ended) :
    Merged p w w' ended := by
  have merges : between.merges = w.merges := congrArg Prod.fst same
  have invalidated : between.invalidated = w.invalidated := congrArg Prod.snd same
  obtain ⟨first, second, third, fourth⟩ := merged
  rw [merges] at second fourth
  exact ⟨first.trans invalidated, second, third, fourth⟩

/-- An action behind a quiet one merges what it merges alone. -/
theorem Merged.bind {first : Handler D T} {next : T → Handler D IngestResult} (quiet : Quiet first)
    (merged : ∀ t between, Merged p between ((next t).run between).2 ((next t).run between).1)
    (w : World D) :
    Merged p w ((first >>= next).run w).2 ((first >>= next).run w).1 := by
  have same := quiet w
  cases ended : first.run w with
  | mk result between =>
    rw [ended] at same
    cases result with
    | ok t =>
      rw [Fallible.run_bind_ok ended]
      exact .after same (merged t between)
    | error reason =>
      rw [Fallible.run_bind_error ended]
      exact .of_stop same

/-- That a run cannot be closed does not stop a call. -/
theorem closeOwned_run (runId : Str) (run : Run) (w : World D) :
    ∃ w', (closeOwned services p runId run).run w = (.ok (), w') := by
  rw [closeOwned]
  split
  · exact ⟨w, rfl⟩
  · exact ⟨_, rfl⟩

/-- After a merge that succeeded the run is concluded and the counts are answered, whether or not
its row can be written. -/
theorem conclude_written (runId : Str) (received inserted updated : Nat)
    (rejected : List Rejected) (w : World D) :
    ∃ result, ((conclude services p runId received rejected (.ok (inserted, updated))).run w).1 =
        .ok result ∧ (result.targetSchema, result.targetTable) = p.name ∧
      result.inserted = inserted ∧ result.updated = updated := by
  let status : Core.Status := if rejected.isEmpty then .ok else .partly
  obtain ⟨w', closed⟩ := @closeOwned_run D services p runId
    ⟨status.text, inserted, updated, rejected.length, none⟩ w
  rw [conclude, Fallible.run_bind_ok closed]
  exact ⟨_, rfl, rfl, rfl, rfl⟩

/-- Where the engine refuses, the call fails, and it panics where the text cannot be cut. -/
theorem conclude_refused (runId : Str) (received : Nat) (rejected : List Rejected)
    (failure : ApiError) (w : World D) :
    ∃ reason, ((conclude services p runId received rejected (.error failure)).run w).1 =
        .error reason ∧ (reason = .panicked ↔ head4000 (errorText failure) = none) := by
  cases cut : head4000 (errorText failure) with
  | none =>
    have stopped : (sliced (errorText failure)).run w = (.error .panicked, w) := by
      rw [sliced, cut, Fallible.run_stop]
    rw [conclude, Fallible.run_bind_error stopped]
    exact ⟨.panicked, rfl, iff_of_true rfl rfl⟩
  | some trunc =>
    have kept : (sliced (errorText failure)).run w = (.ok trunc, w) := by
      rw [sliced, cut, Fallible.run_pure]
    obtain ⟨w', closed⟩ := @closeOwned_run D services p runId
      ⟨"failed".str, 0, 0, rejected.length, some trunc⟩ w
    rw [conclude, Fallible.run_bind_ok kept, Fallible.run_bind_ok closed]
    exact ⟨_, rfl, iff_of_false (by simp) (by simp)⟩

/-- A write and what follows it. -/
theorem write_merged {req : Core.WriteRequest} (target : (req.schema, req.table) = p.name)
    (runId : Str) (received : Nat) (rejected : List Rejected) (w : World D) :
    Merged p w
      ((writeRecords services req >>= conclude services p runId received rejected).run w).2
      ((writeRecords services req >>= conclude services p runId received rejected).run w).1 := by
  cases answered : services.writeRecords req w.db with
  | mk answer db =>
    cases answer with
    | error failure =>
      have wrote : (writeRecords services req).run w = (.ok (.error failure), { w with db }) := by
        simp only [writeRecords, answered]
      rw [Fallible.run_bind_ok wrote]
      have quiet := @conclude_quiet D services p runId received rejected (.error failure)
        { w with db }
      obtain ⟨reason, ended, -⟩ := @conclude_refused D services p runId received rejected failure
        { w with db }
      rw [ended]
      exact .of_stop quiet
    | ok counts =>
      obtain ⟨inserted, updated⟩ := counts
      let written : World D := { w with db, merges := w.merges ++ [⟨p.name, inserted, updated⟩] }
      have wrote : (writeRecords services req).run w = (.ok (.ok (inserted, updated)), written) := by
        simp only [writeRecords, answered, target, written]
      rw [Fallible.run_bind_ok wrote]
      have quiet := @conclude_quiet D services p runId received rejected (.ok (inserted, updated))
        written
      obtain ⟨result, ended, named, rfl, rfl⟩ :=
        @conclude_written D services p runId received inserted updated rejected written
      rw [ended]
      refine ⟨congrArg Prod.snd quiet, fun _ impossible => (by cases impossible), ?_, ?_⟩
      · intro other same
        obtain rfl := Except.ok.inj same
        exact named
      · intro other same
        obtain rfl := Except.ok.inj same
        exact Or.inr (congrArg Prod.fst quiet)

/-- The part of a call behind the validation merges at most once. -/
theorem ingestInto_merged (table : TableMeta) (records : List Json) (w : World D) :
    Merged p w ((ingestInto services p table records).run w).2
      ((ingestInto services p table records).run w).1 := by
  rw [ingestInto]
  dsimp only
  split_ifs
  · refine ⟨rfl, fun _ impossible => (by cases impossible), ?_, ?_⟩
    · intro result same
      obtain rfl := Except.ok.inj same
      rfl
    · intro result same
      obtain rfl := Except.ok.inj same
      exact Or.inl ⟨rfl, rfl⟩
  · exact .bind (startRun_quiet _) (fun runId => write_merged rfl runId _ _) w

/-- A call of the pipeline merges what its result says, and nothing where it fails. -/
theorem ingestRecords_merged (unicode : Unicode) (services : Services D) (p : Params)
    (records : List Json) (w : World D) :
    Merged p w ((ingestRecords unicode services p records).run w).2
      ((ingestRecords unicode services p records).run w).1 := by
  rw [ingestRecords]
  split
  · exact .of_stop rfl
  · refine .bind (ask_quiet _) (fun _ => ?_) w
    refine .bind (ask_quiet _) (fun found => ?_)
    intro between
    cases found with
    | none => exact .of_stop rfl
    | some table => exact ingestInto_merged table records between

/-- Behind a call, what was merged is served or owed. -/
theorem Merged.owes {ended : Except Stop IngestResult} {result : IngestResult}
    (merged : Merged p w w' ended) (served : Served w) (same : ended = .ok result) :
    Owes p.name (result.inserted + result.updated) w' := by
  intro merge member written
  rw [merged.invalidated]
  rcases merged.counted result same with ⟨merges, -⟩ | merges
  · rw [merges] at member
    exact Or.inl (served merge member written)
  · rw [merges, List.mem_append, List.mem_singleton] at member
    rcases member with earlier | rfl
    · exact Or.inl (served merge earlier written)
    · exact Or.inr ⟨rfl, written⟩

/-- Where nothing was written, nothing is owed. -/
theorem Owes.served {name : TableName} (owes : Owes name 0 w) : Served w :=
  fun merge member written => (owes merge member written).resolve_right (fun both => by omega)

/-- What is owed is served by dropping the reads of the table. -/
theorem Owes.invalidated {name : TableName} {count : Nat} (owes : Owes name count w) :
    Served ((invalidateWritten name count : Handler D Unit).run w).2 := by
  rw [invalidateWritten]
  by_cases some : 0 < count
  · rw [if_pos some, invalidateTable, Fallible.run_change]
    intro merge member written
    rcases owes merge member written with served | ⟨rfl, -⟩
    · exact List.mem_append_left _ served
    · exact List.mem_append_right _ (List.mem_singleton_self _)
  · rw [if_neg some]
    obtain rfl : count = 0 := by omega
    exact owes.served

/-- A call is served if what follows it serves what the call owes. -/
theorem ingest_then {f : IngestResult → Handler D T}
    (next : ∀ result w, (result.targetSchema, result.targetTable) = p.name →
      Owes p.name (result.inserted + result.updated) w → Served ((f result).run w).2) :
    Fallible.Keeps Served (ingestRecords unicode services p records >>= f) := by
  intro w served
  have merged := ingestRecords_merged unicode services p records w
  cases ended : (ingestRecords unicode services p records).run w with
  | mk answer w' =>
    rw [ended] at merged
    cases answer with
    | ok result =>
      rw [Fallible.run_bind_ok ended]
      exact next result w' (merged.named result rfl) (merged.owes served rfl)
    | error reason =>
      rw [Fallible.run_bind_error ended, Served, merged.invalidated, merged.failed reason rfl]
      exact served

/-- A result that is all rejected owes nothing. -/
theorem Owes.of_fullyRejected {name : TableName} {result : IngestResult}
    (owes : Owes name (result.inserted + result.updated) w)
    (rejected : fullyRejected result = true) : Served w := by
  simp only [fullyRejected, Bool.and_eq_true, beq_iff_eq] at rejected
  rw [rejected.1.1.2, rejected.1.2] at owes
  exact owes.served

/-! ## Single calls -/

/-- Dropping the reads of a table serves what is owed, whatever quiet end the handler has. -/
theorem Owes.then {name : TableName} {count : Nat} {f : Unit → Handler D T}
    (owes : Owes name count w) (quiet : ∀ t, Quiet (f t)) :
    Served ((invalidateWritten name count >>= f).run w).2 := by
  have served := owes.invalidated
  cases ended : (invalidateWritten name count : Handler D Unit).run w with
  | mk answer w' =>
    rw [ended] at served
    cases answer with
    | ok t =>
      rw [Fallible.run_bind_ok ended]
      exact Quiet.served (quiet t) w' served
    | error reason =>
      rw [Fallible.run_bind_error ended]
      exact served

/-- A request that is answered has invalidated what it changed. -/
theorem answerWith_served : Fallible.Keeps Served (answerWith unicode services p records) := by
  refine ingest_then (fun result w named owes => ?_)
  rw [← named] at owes
  refine owes.then (fun _ => ?_)
  split_ifs
  · exact .stop _
  · exact .pure _

/-- A post of records has invalidated what it changed. -/
theorem postTyped_served (call : Call) (declared : Option Str) (records : List Json) :
    Fallible.Keeps Served (postTyped unicode services call declared records) := by
  rw [postTyped]
  split_ifs
  · exact .stop _
  · refine .bind (Quiet.served (ask_quiet _)) (fun known => ?_)
    split_ifs
    · exact answerWith_served
    · exact Quiet.served (ask_quiet _)

/-- So has the upload of a file. -/
theorem postFile_served (call : Call) (endpoint : Option Str) (upload : Upload) :
    Fallible.Keeps Served (postFile unicode services call endpoint upload) := by
  refine .bind (Quiet.served (ask_quiet _)) (fun known => ?_)
  split_ifs
  · refine .bind (Quiet.served (orFail_quiet _)) (fun records => ?_)
    split_ifs
    · exact .pure _
    · exact answerWith_served
  · exact .stop _

/-- So has a webhook. -/
theorem postWebhook_served (hook : Hook) :
    Fallible.Keeps Served (postWebhook unicode services hook) := by
  rw [postWebhook]
  split_ifs
  · exact .stop _
  · refine .bind (Quiet.served (ask_quiet _)) (fun wh => ?_)
    refine .bind (Quiet.served (orFail_quiet _)) (fun name => ?_)
    refine .bind (Quiet.served (orFail_quiet _)) (fun envelope => ?_)
    refine .bind (Quiet.served (orFail_quiet _)) (fun records => ?_)
    refine .bind (Quiet.served (ask_quiet _)) (fun _ => ?_)
    refine ingest_then (fun result w named owes => ?_)
    rw [← named] at owes
    exact owes.then (fun _ => .pure _)

/-- The ledger comes after the reads were dropped. -/
theorem applyDelivery_served (peer : Str) (delivery : Delivery) :
    Fallible.Keeps Served (applyDelivery unicode services peer delivery) := by
  refine .bind (Quiet.served (ask_quiet _)) (fun _ => ?_)
  refine .bind (Quiet.served (ask_quiet _)) (fun known => ?_)
  split_ifs
  · refine ingest_then (fun result w _ owes => ?_)
    split_ifs with rejected
    · exact owes.of_fullyRejected rejected
    · exact owes.then (fun _ => .bind (ask_quiet _) fun _ => .pure _)
  · exact .stop _

/-- So has a batch of a peer. -/
theorem postSyncApply_served (labels : List Str) (delivery : Delivery) :
    Fallible.Keeps Served (postSyncApply unicode services labels delivery) := by
  refine .bind (Quiet.served (orFail_quiet _)) (fun peer => ?_)
  split_ifs
  · exact .stop _
  · exact .stop _
  · refine .bind (Quiet.served (ask_quiet _)) (fun _ => ?_)
    refine .bind (Quiet.served (ask_quiet _)) (fun row => ?_)
    cases row with
    | some counts => exact .pure _
    | none => exact applyDelivery_served peer delivery

/-! ## Where a stream gets to its end -/

/-- The pool has a connection. -/
def Connects (services : Services D) (w : World D) : Prop :=
  ∃ db, services.connect w.db = (.ok (), db)

/-- The first 4000 bytes of a text are whole characters. -/
def Sliceable (text : Str) : Prop :=
  ∃ cut, cut <+: text ∧ Text.byteLen cut = min (Text.byteLen text) 4000

/-- A call comes to its write under the run of its caller, and the engine refuses it. -/
def Refuses (unicode : Unicode) (services : Services D) (p : Params) (chunk : List Json)
    (w : World D) (failure : ApiError) : Prop :=
  paramsError unicode ⟨p.name.1, p.name.2, p.source, p.sourceEndpoint, []⟩ = none ∧
    ∃ w₁ table w₂ runId db, (ask services.connect).run w = (.ok (), w₁) ∧
      (ask (services.tableMeta p.name.1 p.name.2)).run w₁ = (.ok (some table), w₂) ∧
      ((validateBatch table chunk).1.isEmpty && !(validateBatch table chunk).2.isEmpty) = false ∧
      p.runId = some runId ∧
      services.writeRecords (p.request table (validateBatch table chunk).1 runId) w₂.db =
        (.error failure, db)

/-- These chunks are written, and the world is there then. -/
def UpTo (unicode : Unicode) (services : Services D) (p : Params) (done : List (List Json))
    (w : World D) (tally : Tally) (w' : World D) : Prop :=
  (streamLoop unicode services p done {}).run w = (.ok (tally, none), w')

/-- If the call for a chunk fails, its texts can be cut, and the pool has a connection then. -/
structure FailsThrough (unicode : Unicode) (services : Services D) (p : Params)
    (chunk : List Json) (w : World D) : Prop where
  refused : ∀ failure, Refuses unicode services p chunk w failure → Sliceable (errorText failure)
  failed : ∀ failure w', (ingestRecords unicode services p chunk).run w =
    (.error (.error failure), w') → Sliceable failure.toText ∧ Connects services w'

/-- Behind chunks that have written rows the stream gets to its end: the pool has another
connection, and if the next chunk fails, its texts can be cut. -/
structure GetsThrough (unicode : Unicode) (services : Services D) (p : Params)
    (chunks : List (List Json)) (w : World D) : Prop where
  complete : ∀ tally w', UpTo unicode services p chunks w tally w' →
    0 < tally.inserted + tally.updated → Connects services w'
  stopped : ∀ done chunk rest tally w', chunks = done ++ chunk :: rest →
    UpTo unicode services p done w tally w' → 0 < tally.inserted + tally.updated →
      FailsThrough unicode services p chunk w'

/-- The condition on a request. -/
def Request.GetsThrough (unicode : Unicode) (services : Services D) (db : D) : Request → Prop
  | stream streamed => ∀ opened w, (openStream services streamed).run (.start db) = (.ok opened, w) →
      FreshReads.GetsThrough unicode services (streamed.params opened.2) (chunksOf opened.1) w
  | _ => True

/-- A text can be cut exactly if byte 4000 does not fall inside a character. -/
theorem sliceable_iff {text : Str} : Sliceable text ↔ head4000 text ≠ none := by
  rw [← Option.isSome_iff_ne_none, Option.isSome_iff_exists]
  exact exists_congr fun cut => Closing.head4000_iff.symm

/-! ## A chunk -/

variable {chunk : List Json} {failure : ApiError}

/-- What is asked with `?` does not panic. -/
theorem ask_run (question : D → ApiResult T × D) (w : World D) :
    ((ask question).run w).1 ≠ .error .panicked := by
  simp only [ask]
  split <;> simp

/-- A call panics behind a write that is refused with a text that cannot be cut. -/
theorem written_panicked_iff {req : Core.WriteRequest} (runId : Str) (received : Nat)
    (rejected : List Rejected) :
    ((writeRecords services req >>= conclude services p runId received rejected).run w).1 =
        .error .panicked ↔
      ∃ failure db, services.writeRecords req w.db = (.error failure, db) ∧
        head4000 (errorText failure) = none := by
  cases answered : services.writeRecords req w.db with
  | mk answer db =>
    cases answer with
    | error failure =>
      have wrote : (writeRecords services req).run w = (.ok (.error failure), { w with db }) := by
        simp only [writeRecords, answered]
      obtain ⟨reason, ended, panics⟩ := @conclude_refused D services p runId received rejected
        failure { w with db }
      rw [Fallible.run_bind_ok wrote, ended, Except.error.injEq, panics]
      simp
    | ok counts =>
      obtain ⟨inserted, updated⟩ := counts
      have wrote : (writeRecords services req).run w = (.ok (.ok (inserted, updated)),
          { w with db, merges := w.merges ++ [⟨(req.schema, req.table), inserted, updated⟩] }) := by
        simp only [writeRecords, answered]
      obtain ⟨result, ended, -⟩ := @conclude_written D services p runId received inserted updated
        rejected { w with db, merges := w.merges ++ [⟨(req.schema, req.table), inserted, updated⟩] }
      rw [Fallible.run_bind_ok wrote, ended]
      simp

/-- A call under the run of its caller panics where the engine refuses it with a text that
cannot be cut. -/
theorem ingest_panicked_iff {runId : Str} (adopted : p.runId = some runId) :
    ((ingestRecords unicode services p chunk).run w).1 = .error .panicked ↔
      ∃ failure, Refuses unicode services p chunk w failure ∧
        head4000 (errorText failure) = none := by
  rw [ingestRecords]
  cases checked : paramsError unicode ⟨p.name.1, p.name.2, p.source, p.sourceEndpoint, []⟩ with
  | some failure =>
    refine iff_of_false (by simp [fail]) ?_
    rintro ⟨_, ⟨free, -⟩, -⟩
    rw [checked] at free
    cases free
  | none =>
    simp only [Fallible.run_bind_eq_error, ask_run, false_or, Refuses, checked, true_and]
    constructor
    · rintro ⟨_, w₁, connected, found, w₂, looked, panics⟩
      cases found with
      | none => simp [fail] at panics
      | some table =>
        simp only [ingestInto] at panics
        split_ifs at panics with rejected
        have started : (startRun services p chunk.length).run w₂ = (.ok runId, w₂) := by
          rw [startRun, adopted, Fallible.run_pure]
        rw [Fallible.run_bind_ok started, written_panicked_iff] at panics
        obtain ⟨failure, db, refused, uncut⟩ := panics
        exact ⟨failure, ⟨w₁, table, w₂, runId, db, connected, looked,
          Bool.eq_false_iff.mpr rejected, adopted, refused⟩, uncut⟩
    · rintro ⟨failure, ⟨w₁, table, w₂, own, db, connected, looked, kept, adopted', refused⟩, uncut⟩
      refine ⟨(), w₁, connected, some table, w₂, looked, ?_⟩
      simp only [ingestInto, kept, Bool.false_eq_true, if_false]
      have started : (startRun services p chunk.length).run w₂ = (.ok own, w₂) := by
        rw [startRun, adopted', Fallible.run_pure]
      rw [Fallible.run_bind_ok started, written_panicked_iff]
      exact ⟨failure, db, refused, uncut⟩

/-! ## The loop -/

variable {tally tally' : Tally} {done rest chunks : List (List Json)}

/-- A chunk that succeeds is added to the tally, and the loop goes on. -/
theorem streamLoop_ok {result : IngestResult}
    (called : (ingestRecords unicode services p chunk).run w = (.ok result, w')) :
    (streamLoop unicode services p (chunk :: rest) tally).run w =
      (streamLoop unicode services p rest (tally.add result)).run w' := by
  have ended : (caught (ingestRecords unicode services p chunk)).run w = (.ok (.ok result), w') := by
    simp only [caught, called]
  rw [streamLoop, Fallible.run_bind_ok ended]

/-- A call that fails ends the loop, and a text that cannot be cut the whole request. -/
theorem streamLoop_failed
    (called : (ingestRecords unicode services p chunk).run w = (.error (.error failure), w')) :
    (streamLoop unicode services p (chunk :: rest) tally).run w =
      match head4000 failure.toText with
      | none => (.error .panicked, w')
      | some text => (.ok ({ tally with error := some failure }, some text), w') := by
  have ended : (caught (ingestRecords unicode services p chunk)).run w =
      (.ok (.error failure), w') := by
    simp only [caught, called]
  rw [streamLoop, Fallible.run_bind_ok ended]
  cases cut : head4000 failure.toText with
  | none =>
    have stopped : (sliced failure.toText).run w' = (.error .panicked, w') := by
      rw [sliced, cut, Fallible.run_stop]
    exact Fallible.run_bind_error stopped
  | some text =>
    have kept : (sliced failure.toText).run w' = (.ok text, w') := by
      rw [sliced, cut, Fallible.run_pure]
    exact Fallible.run_bind_ok kept

/-- A panic in a chunk is one of the loop. -/
theorem streamLoop_panicked
    (called : (ingestRecords unicode services p chunk).run w = (.error .panicked, w')) :
    (streamLoop unicode services p (chunk :: rest) tally).run w = (.error .panicked, w') := by
  have ended : (caught (ingestRecords unicode services p chunk)).run w =
      (.error .panicked, w') := by
    simp only [caught, called]
  rw [streamLoop, Fallible.run_bind_error ended]

/-- Behind chunks that were written the loop goes on with the others. -/
theorem streamLoop_append (rest : List (List Json))
    (written : (streamLoop unicode services p done tally).run w = (.ok (tally', none), w')) :
    (streamLoop unicode services p (done ++ rest) tally).run w =
      (streamLoop unicode services p rest tally').run w' := by
  induction done generalizing tally w with
  | nil =>
    rw [streamLoop, Fallible.run_pure] at written
    obtain ⟨same, rfl⟩ := Prod.mk.inj written
    obtain ⟨rfl, -⟩ := Prod.mk.inj (Except.ok.inj same)
    rfl
  | cons chunk later inductionHypothesis =>
    cases called : (ingestRecords unicode services p chunk).run w with
    | mk answer between =>
      match answer with
      | .ok result =>
        rw [streamLoop_ok called] at written
        rw [List.cons_append, streamLoop_ok called]
        exact inductionHypothesis written
      | .error .panicked =>
        rw [streamLoop_panicked called] at written
        cases (Prod.mk.inj written).1
      | .error (.error failure) =>
        rw [streamLoop_failed called] at written
        split at written
        · cases (Prod.mk.inj written).1
        · cases (Prod.mk.inj (Except.ok.inj (Prod.mk.inj written).1)).2

/-- The loop writes all chunks, or some of them up to one whose call fails. -/
theorem streamLoop_cases (chunks : List (List Json)) (tally : Tally) (w : World D) :
    (∃ tally' w', (streamLoop unicode services p chunks tally).run w = (.ok (tally', none), w')) ∨
      ∃ done chunk rest tally' w' reason w'', chunks = done ++ chunk :: rest ∧
        (streamLoop unicode services p done tally).run w = (.ok (tally', none), w') ∧
        (ingestRecords unicode services p chunk).run w' = (.error reason, w'') := by
  induction chunks generalizing tally w with
  | nil => exact Or.inl ⟨tally, w, rfl⟩
  | cons chunk rest inductionHypothesis =>
    cases called : (ingestRecords unicode services p chunk).run w with
    | mk answer between =>
      cases answer with
      | error reason =>
        exact Or.inr ⟨[], chunk, rest, tally, w, reason, between, rfl, rfl, called⟩
      | ok result =>
        rcases inductionHypothesis (tally.add result) between with ⟨tally', w', all⟩ |
          ⟨done, next, later, tally', w', reason, w'', rfl, some, failed⟩
        · exact Or.inl ⟨tally', w', (streamLoop_ok called).trans all⟩
        · exact Or.inr ⟨chunk :: done, next, later, tally', w', reason, w'', rfl,
            (streamLoop_ok called).trans some, failed⟩

/-! ## The tally -/

/-- What the loop has merged into its table, and not served yet. -/
structure Tallied (p : Params) (tally : Tally) (w : World D) : Prop where
  unserved : w.invalidated = []
  named : ∀ merge ∈ w.merges, merge.name = p.name
  counted : 0 < tally.inserted + tally.updated ↔
    ∃ merge ∈ w.merges, 0 < merge.inserted + merge.updated

/-- Quiet steps leave the tally right. -/
theorem Tallied.same (tallied : Tallied p tally w) (trace : w'.trace = w.trace) :
    Tallied p tally w' := by
  have merges : w'.merges = w.merges := congrArg Prod.fst trace
  have invalidated : w'.invalidated = w.invalidated := congrArg Prod.snd trace
  obtain ⟨first, second, third⟩ := tallied
  refine ⟨invalidated.trans first, ?_, ?_⟩
  · rw [merges]
    exact second
  · rw [merges]
    exact third

/-- What the tally counts is owed until the stream is closed. -/
theorem Tallied.owes (tallied : Tallied p tally w) :
    Owes p.name (tally.inserted + tally.updated) w := fun merge member written =>
  Or.inr ⟨tallied.named merge member, tallied.counted.mpr ⟨merge, member, written⟩⟩

/-- Rows that were written are not served before the end. -/
theorem Tallied.serves_iff (tallied : Tallied p tally w) :
    Served w ↔ ¬0 < tally.inserted + tally.updated := by
  rw [tallied.counted, Served, tallied.unserved]
  simp

/-- A call adds what it merges. -/
theorem Tallied.add {result : IngestResult} (tallied : Tallied p tally w)
    (merged : Merged p w w' (.ok result)) : Tallied p (tally.add result) w' := by
  obtain ⟨unserved, named, counted⟩ := tallied
  have sum : (tally.add result).inserted + (tally.add result).updated =
      (tally.inserted + tally.updated) + (result.inserted + result.updated) := by
    simp only [Tally.add]
    omega
  refine ⟨merged.invalidated.trans unserved, ?_, ?_⟩
  · intro merge member
    rcases merged.counted result rfl with ⟨merges, -⟩ | merges
    · exact named merge (merges ▸ member)
    · rw [merges, List.mem_append, List.mem_singleton] at member
      rcases member with earlier | rfl
      · exact named merge earlier
      · rfl
  · rw [sum]
    rcases merged.counted result rfl with ⟨merges, none⟩ | merges
    · rw [merges, none, Nat.add_zero]
      exact counted
    · rw [merges, Nat.add_pos_iff_pos_or_pos, counted]
      simp only [List.mem_append, List.mem_singleton]
      constructor
      · rintro (⟨merge, member, written⟩ | written)
        · exact ⟨merge, Or.inl member, written⟩
        · exact ⟨_, Or.inr rfl, written⟩
      · rintro ⟨merge, member | rfl, written⟩
        · exact Or.inl ⟨merge, member, written⟩
        · exact Or.inr written

/-- The loop tallies what it merges. -/
theorem streamLoop_tallied
    (written : (streamLoop unicode services p done tally).run w = (.ok (tally', none), w'))
    (tallied : Tallied p tally w) : Tallied p tally' w' := by
  induction done generalizing tally w with
  | nil =>
    rw [streamLoop, Fallible.run_pure] at written
    obtain ⟨same, rfl⟩ := Prod.mk.inj written
    obtain ⟨rfl, -⟩ := Prod.mk.inj (Except.ok.inj same)
    exact tallied
  | cons chunk later inductionHypothesis =>
    have merged := ingestRecords_merged unicode services p chunk w
    cases called : (ingestRecords unicode services p chunk).run w with
    | mk answer between =>
      rw [called] at merged
      match answer with
      | .ok result =>
        rw [streamLoop_ok called] at written
        exact inductionHypothesis written (tallied.add merged)
      | .error .panicked =>
        rw [streamLoop_panicked called] at written
        cases (Prod.mk.inj written).1
      | .error (.error failure) =>
        rw [streamLoop_failed called] at written
        split at written
        · cases (Prod.mk.inj written).1
        · cases (Prod.mk.inj (Except.ok.inj (Prod.mk.inj written).1)).2

/-- The end of a stream serves what is tallied if the pool has a connection. -/
theorem closeStream_served {stream : Streamed} {received : Nat} {runId : Str} {text : Option Str}
    (named : p.name = stream.name) (tallied : Tallied p tally w) :
    Served ((closeStream services stream received runId tally text).run w).2 ↔
      (0 < tally.inserted + tally.updated → Connects services w) := by
  cases connected : services.connect w.db with
  | mk answer db =>
    cases answer with
    | error failure =>
      have stopped : (ask services.connect).run w = (.error (.error failure), { w with db }) := by
        simp only [ask, connected]
      have same : ({ w with db } : World D).trace = w.trace := rfl
      rw [closeStream, Fallible.run_bind_error stopped, (tallied.same same).serves_iff]
      refine imp_congr_right fun _ => iff_of_false id ?_
      rintro ⟨_, has⟩
      rw [connected] at has
      cases (Prod.mk.inj has).1
    | ok t =>
      have asked : (ask services.connect).run w = (.ok (), { w with db }) := by
        simp only [ask, connected]
      refine iff_of_true ?_ (fun _ => ⟨db, connected⟩)
      rw [closeStream, Fallible.run_bind_ok asked]
      obtain ⟨answer, after, closed, same⟩ : ∃ answer after, (attempt (services.closeRun runId
          ⟨tally.status.text, tally.inserted, tally.updated, tally.failed, text⟩)).run
            { w with db } = (.ok answer, after) ∧ after.trace = w.trace := ⟨_, _, rfl, rfl⟩
      rw [Fallible.run_bind_ok closed, ← named]
      refine (tallied.same same).owes.then (fun _ => ?_)
      cases tally.error with
      | none => exact .pure _
      | some failure => exact .stop _

/-! ## Every request -/

/-- Opening a stream merges nothing. -/
theorem openStream_quiet (stream : Streamed) : Quiet (openStream services stream) := by
  refine .bind (ask_quiet _) (fun known => ?_)
  split_ifs
  · refine .bind (orFail_quiet _) (fun records => ?_)
    refine .bind (ask_quiet _) (fun _ => ?_)
    refine .bind (ask_quiet _) (fun runId => ?_)
    exact .bind (ask_quiet _) fun _ => .pure _
  · exact .stop _

/-- A failed call behind chunks that were written is served where its texts can be cut and the
pool has a connection. -/
theorem stopped_served {stream : Streamed} {received : Nat} {runId : Str} {reason : Stop}
    (adopted : p.runId = some runId) (named : p.name = stream.name)
    (tallied : Tallied p tally w)
    (failed : (ingestRecords unicode services p chunk).run w = (.error reason, w')) :
    Served ((streamLoop unicode services p (chunk :: rest) tally >>= fun ended =>
        closeStream services stream received runId ended.1 ended.2).run w).2 ↔
      (0 < tally.inserted + tally.updated → FailsThrough unicode services p chunk w) := by
  have merged := ingestRecords_merged unicode services p chunk w
  rw [failed] at merged
  have same : w'.trace = w.trace := Prod.ext (merged.failed reason rfl) merged.invalidated
  have panics := @ingest_panicked_iff D unicode services p w chunk runId adopted
  rw [failed, Except.error.injEq] at panics
  cases reason with
  | panicked =>
    rw [Fallible.run_bind_error (streamLoop_panicked failed), (tallied.same same).serves_iff]
    refine imp_congr_right fun _ => iff_of_false id ?_
    intro through
    obtain ⟨failure, refuses, uncut⟩ := panics.mp rfl
    exact sliceable_iff.mp (through.refused failure refuses) uncut
  | error failure =>
    have unpanicked : ∀ failure, Refuses unicode services p chunk w failure →
        Sliceable (errorText failure) := by
      intro other refuses
      rw [sliceable_iff]
      intro uncut
      cases panics.mpr ⟨other, refuses, uncut⟩
    have only : FailsThrough unicode services p chunk w ↔
        Sliceable failure.toText ∧ Connects services w' := by
      constructor
      · exact fun through => through.failed failure w' failed
      · refine fun both => ⟨unpanicked, fun other w'' found => ?_⟩
        obtain ⟨value, rfl⟩ := Prod.mk.inj (failed.symm.trans found)
        obtain rfl := Stop.error.inj (Except.error.inj value)
        exact both
    rw [only, sliceable_iff]
    have ended := @streamLoop_failed D unicode services p w w' chunk failure tally rest failed
    cases cut : head4000 failure.toText with
    | none =>
      rw [cut] at ended
      rw [Fallible.run_bind_error ended, (tallied.same same).serves_iff]
      exact imp_congr_right fun _ => iff_of_false id (fun both => both.1 rfl)
    | some text =>
      rw [cut] at ended
      rw [Fallible.run_bind_ok ended]
      obtain ⟨unserved, ofTable, counted⟩ := tallied.same same
      rw [closeStream_served named (⟨unserved, ofTable, counted⟩ :
        Tallied p { tally with error := some failure } w')]
      exact imp_congr_right fun _ => (and_iff_right (by simp)).symm

/-- A chunk that the loop has written was written by a call that did not fail. -/
theorem called_of_written
    (written : (streamLoop unicode services p (chunk :: rest) tally).run w =
      (.ok (tally', none), w')) :
    ∃ result between, (ingestRecords unicode services p chunk).run w = (.ok result, between) := by
  cases called : (ingestRecords unicode services p chunk).run w with
  | mk answer between =>
    match answer with
    | .ok result => exact ⟨result, between, rfl⟩
    | .error .panicked =>
      rw [streamLoop_panicked called] at written
      cases (Prod.mk.inj written).1
    | .error (.error failure) =>
      rw [streamLoop_failed called] at written
      split at written
      · cases (Prod.mk.inj written).1
      · cases (Prod.mk.inj (Except.ok.inj (Prod.mk.inj written).1)).2

/-- A chunk under the stream's run that succeeds meets the first half of the condition. -/
theorem failsThrough_of_called {runId : Str} {result : IngestResult}
    (adopted : p.runId = some runId)
    (called : (ingestRecords unicode services p chunk).run w = (.ok result, w')) :
    FailsThrough unicode services p chunk w := by
  have panics := @ingest_panicked_iff D unicode services p w chunk runId adopted
  rw [called] at panics
  refine ⟨fun failure refuses => ?_, fun failure w'' failed => ?_⟩
  · rw [sliceable_iff]
    intro uncut
    cases panics.mpr ⟨failure, refuses, uncut⟩
  · cases (Prod.mk.inj (called.symm.trans failed)).1

/-- Chunks up to one that was written leave it to a call that does not fail. -/
theorem failsThrough_of_upTo {runId : Str} (adopted : p.runId = some runId)
    {tally₀ : Tally} {w₀ : World D} (before : UpTo unicode services p done w tally₀ w₀)
    (all : UpTo unicode services p (done ++ chunk :: rest) w tally w') :
    FailsThrough unicode services p chunk w₀ := by
  rw [UpTo, streamLoop_append (chunk :: rest) before] at all
  obtain ⟨result, between, called⟩ := called_of_written all
  exact failsThrough_of_called adopted called

/-- A stream behind its opening. -/
theorem loop_served {stream : Streamed} {received : Nat} {runId : Str}
    (adopted : p.runId = some runId) (named : p.name = stream.name) (tallied : Tallied p {} w)
    (chunks : List (List Json)) :
    Served ((streamLoop unicode services p chunks {} >>= fun ended =>
        closeStream services stream received runId ended.1 ended.2).run w).2 ↔
      GetsThrough unicode services p chunks w := by
  rcases streamLoop_cases chunks {} w with ⟨tally, w', all⟩ |
    ⟨done, chunk, rest, tally, w', reason, w'', rfl, upTo, failed⟩
  · rw [Fallible.run_bind_ok all, closeStream_served named (streamLoop_tallied all tallied)]
    constructor
    · refine fun connects => ⟨fun tally₀ w₀ again some => ?_,
        fun done chunk rest tally₀ w₀ parts before _ => ?_⟩
      · obtain ⟨same, rfl⟩ := Prod.mk.inj (all.symm.trans again)
        obtain ⟨rfl, -⟩ := Prod.mk.inj (Except.ok.inj same)
        exact connects some
      · subst parts
        exact failsThrough_of_upTo adopted before all
    · exact fun through => through.complete tally w' all
  · have behind := streamLoop_append (chunk :: rest) upTo
    rw [Fallible.run_bind_congr behind,
      stopped_served adopted named (streamLoop_tallied upTo tallied) failed]
    constructor
    · refine fun through => ⟨fun tally₀ w₀ again _ => ?_,
        fun done₀ chunk₀ rest₀ tally₀ w₀ parts before some => ?_⟩
      · rw [UpTo, behind] at again
        obtain ⟨result, between, called⟩ := called_of_written again
        rw [failed] at called
        cases (Prod.mk.inj called).1
      · rcases List.append_eq_append_iff.mp parts with ⟨more, rfl, later⟩ | ⟨more, rfl, later⟩
        · cases more with
          | nil =>
            obtain ⟨rfl, rfl⟩ := List.cons.inj later
            rw [List.append_nil, UpTo, upTo] at before
            obtain ⟨same, rfl⟩ := Prod.mk.inj before
            obtain ⟨rfl, -⟩ := Prod.mk.inj (Except.ok.inj same)
            exact through some
          | cons first others =>
            -- the chunk that failed is among those that are said to be written
            obtain ⟨rfl, -⟩ := List.cons.inj later
            rw [UpTo, streamLoop_append (chunk :: others) upTo] at before
            obtain ⟨result, between, called⟩ := called_of_written before
            rw [failed] at called
            cases (Prod.mk.inj called).1
        · cases more with
          | nil =>
            obtain ⟨rfl, rfl⟩ := List.cons.inj later
            rw [List.append_nil] at upTo
            obtain ⟨same, rfl⟩ := Prod.mk.inj (before.symm.trans upTo)
            obtain ⟨rfl, -⟩ := Prod.mk.inj (Except.ok.inj same)
            exact through some
          | cons first others =>
            obtain ⟨rfl, -⟩ := List.cons.inj later
            exact failsThrough_of_upTo adopted before upTo
    · exact fun through => through.stopped done chunk rest tally w' rfl upTo

/-- A request leaves no reads of what it has merged behind, unless it is a stream that does not
get to its end behind rows that it has written. -/
theorem served_iff (unicode : Unicode) (services : Services D) (db : D) (request : Request) :
    Served (request.after unicode services db) ↔ request.GetsThrough unicode services db := by
  have fresh : Served (World.start db) := fun merge member => by cases member
  cases request with
  | typed call declared records =>
    exact iff_of_true (postTyped_served call declared records _ fresh) trivial
  | file call endpoint upload =>
    exact iff_of_true (postFile_served call endpoint upload _ fresh) trivial
  | webhook hook => exact iff_of_true (postWebhook_served hook _ fresh) trivial
  | sync labels delivery =>
    exact iff_of_true (postSyncApply_served labels delivery _ fresh) trivial
  | stream streamed =>
    have quiet := @openStream_quiet D services streamed (.start db)
    rw [Request.after, Request.GetsThrough, postStream]
    cases opening : (openStream services streamed).run (.start db) with
    | mk answer w =>
      rw [opening] at quiet
      have merges : w.merges = [] := congrArg Prod.fst quiet
      have invalidated : w.invalidated = [] := congrArg Prod.snd quiet
      cases answer with
      | error reason =>
        rw [Fallible.run_bind_error opening]
        refine iff_of_true (fun merge member => ?_) (fun _ _ impossible => ?_)
        · rw [merges] at member
          cases member
        · cases (Prod.mk.inj impossible).1
      | ok opened =>
        have tallied : Tallied (streamed.params opened.2) {} w :=
          ⟨invalidated, by simp [merges], by simp [merges]⟩
        rw [Fallible.run_bind_ok opening, loop_served rfl rfl tallied]
        constructor
        · rintro through other w' same
          obtain ⟨value, rfl⟩ := Prod.mk.inj same
          obtain rfl := Except.ok.inj value
          exact through
        · exact fun all => all opened w rfl

/-! ## A stream that is left behind -/

/-- A table with one column that takes every record, behind a pool with two connections. -/
def twoConnections : Services Nat where
  tableMeta _ _ n := (.ok (some ⟨[⟨"v".str, "bigint".str, true, false⟩], ["v".str]⟩), n)
  writeRecords req n := (.ok (req.records.length, 0), n)
  gateTarget _ _ n := (.ok true, n)
  propose _ _ _ n := (.ok .null, n)
  connect n := (if n < 2 then .ok () else .error (.internal "timeout".str), n + 1)
  openRun _ n := (.ok "r".str, n)
  setSubmittedBy _ _ n := (.ok (), n)
  closeRun _ _ n := (.ok (), n)
  authenticate _ _ _ n := (.error (.notFound []), n)
  checkCanWrite _ _ n := (.ok (), n)
  ledgerRow _ _ n := (.ok none, n)
  upsertPreamble _ n := (.ok (), n)
  runExists _ n := (.ok true, n)
  insertLedger _ n := (.ok (), n)

/-- A stream of one record. -/
def oneRecord : Streamed where
  identity := ⟨"ann".str, "trader".str, []⟩
  name := ("market".str, "divs".str)
  userAgent := none
  declared := none
  records := .ok [.object [("v".str, .ofNat 1)]]

/-- The record is written, and the reads of its table stay: the stream gets no third connection. -/
theorem third_connection_missed :
    ¬Served ((Request.stream oneRecord).after Unicode.ascii twoConnections 0) := by
  have ran : (((Request.stream oneRecord).after Unicode.ascii twoConnections 0).merges.map
      (fun merge => (merge.name, merge.inserted, merge.updated)),
        ((Request.stream oneRecord).after Unicode.ascii twoConnections 0).invalidated) =
      ([(("market".str, "divs".str), 1, 0)], []) := by
    decide +kernel
  obtain ⟨merges, none⟩ := Prod.mk.inj ran
  intro served
  obtain ⟨merge, member, same⟩ := List.mem_map.mp (merges ▸ List.mem_singleton_self _)
  simp only [Prod.mk.injEq] at same
  have dropped := served merge member (by omega)
  rw [none] at dropped
  cases dropped

end LumidPlatform.Ingest.FreshReads
