import LumidPlatform.Blobs.Integrity

/-!
# Ingests of the same bytes at once

`ingest_blob` looks for the row of the digest, writes the object, opens a run and inserts the row,
one statement after the other, and other ingests come in between. The bytes are the same, but the
type and with it the key are those of each caller. An insertion that finds a row keeps it, and the
caller is answered with what it meant to insert. So all callers agree exactly when no insertion
finds a row.
-/

namespace LumidPlatform.Blobs.Dedup

open Transitions Integrity

/-! ## One ingest, statement by statement -/

/-- What a caller sends beside the body. -/
structure Upload where
  contentType : Option Str := none
  suggestedName : Option Str := none
  metadata : Option Json := none
  source : Str := []
  sourceEndpoint : Str := []
  submittedBy : Str := []
  declaredEndpoint : Option Str := none
  userAgent : Option Str := none

/-- A row of `raw.blobs`. -/
structure BlobRow extends RawBlob where
  blobSha256 : Str
  suggestedName : Option Str
  metadata : Json
  source : Str
  sourceEndpoint : Str
  sourceRunId : Str
  submittedBy : Str

/-- A row of `provenance.runs`. -/
structure RunRow where
  runId : Str
  endpointId : Str
  args : Json
  submittedBy : Option Str := none
  status : Str := "running".str
  rowsInserted : Nat := 0
  rowsFailed : Nat := 0
  errorText : Option Str := none

/-- What all ingests share. `raw.blobs` has one row for a digest. -/
structure Shared where
  content : Content
  blobs : Str → Option BlobRow
  runs : List RunRow

/-- The statement that an ingest comes to next, or its answer. -/
inductive Stage where
  | lookup
  | write
  | openRun
  | setSubmittedBy (runId : Str)
  | insert (runId : Str)
  | closeRun (runId : Str) (errorText : Option Str) (answer : ApiResult BlobIngestResult)
  | done (answer : ApiResult BlobIngestResult)

/-- What the database and the store answer to one statement besides what they hold. -/
structure Conditions where
  /-- The connection or the statement fails, with this text. -/
  fails : Option Str := none
  putFails : Str → Bool → Option StoreError := fun _ _ => none
  /-- The id of the run that is opened. -/
  runId : Str := []

section

variable (deployment : Deployment) (body : Bytes) (upload : Upload)

/-- The digest under which the bytes are kept. -/
def sha : Str := deployment.crates.sha256Hex body

/-- The type that the upload gets. -/
def resolvedType : Str :=
  contentTypeFor deployment.crates upload.contentType upload.suggestedName

/-- The key of the object: it names the type's prefix and the digest. -/
def key : Str :=
  casKey (keyPrefixFor deployment.crates (resolvedType deployment upload)) (sha deployment body)

/-- The path at which the store keeps it. -/
def path : Str := deployment.store.path (key deployment body upload)

/-- The row that the ingest means to insert. -/
def row (runId : Str) : BlobRow where
  storageUrl := publicUrlFor deployment.publicBaseUrl (key deployment body upload)
  contentType := resolvedType deployment upload
  sizeBytes := body.length
  blobSha256 := sha deployment body
  suggestedName := upload.suggestedName
  metadata := upload.metadata.getD (.object [])
  source := upload.source
  sourceEndpoint := upload.sourceEndpoint
  sourceRunId := runId
  submittedBy := upload.submittedBy

/-- The `args` of the run. -/
def runArgs : Json :=
  .object ([
    ("target_schema".str, .string "raw".str), ("target_table".str, .string "blobs".str),
    ("mode".str, .string "blob".str), ("blob_sha256".str, .string (sha deployment body)),
    ("content_type".str, .string (resolvedType deployment upload)),
    ("size_bytes".str, .ofNat body.length)] ++
    (upload.declaredEndpoint.map (fun d => ("declared_endpoint".str, Json.string d))).toList ++
    (upload.userAgent.map (fun ua => ("user_agent".str, Json.string ua))).toList ++
    [("submitted_by".str, .string upload.submittedBy)])

/-- The answer to an ingest that found a row. -/
def existing (found : RawBlob) : BlobIngestResult :=
  ⟨[], sha deployment body, found.storageUrl, found.contentType, found.sizeBytes, true, "ok".str⟩

/-- The answer to an ingest that inserted. -/
def ingested (runId : Str) : BlobIngestResult :=
  let row := row deployment body upload runId
  ⟨runId, sha deployment body, row.storageUrl, row.contentType, row.sizeBytes, false, "ok".str⟩

/-- The checks before the first statement. -/
def refusal : Option ApiError :=
  if deployment.blobRoot.isEmpty then
    some (.unavailable "blob storage not configured (set LUMID_BLOB_ROOT)".str)
  else if body.isEmpty then some (.badRequest "empty body".str)
  else if deployment.blobMaxBytes < body.length then
    some (.badRequest ("blob too large (".str ++ Text.showNat body.length ++ " bytes > ".str ++
      Text.showNat deployment.blobMaxBytes ++ ")".str))
  else none

/-- `ON CONFLICT (blob_sha256) DO NOTHING`. -/
def insertRow (blobs : Str → Option BlobRow) (row : BlobRow) : Str → Option BlobRow :=
  Function.update blobs row.blobSha256 (some ((blobs row.blobSha256).getD row))

/-- `UPDATE provenance.runs ... WHERE run_id = `. -/
def updateRun (runId : Str) (change : RunRow → RunRow) (runs : List RunRow) : List RunRow :=
  runs.map (fun run => if run.runId = runId then change run else run)

/-- The next statement of an ingest, and where it leaves the ingest. -/
def advance (conditions : Conditions) (shared : Shared) : Stage → Shared × Stage
  | .lookup =>
    match refusal deployment body, conditions.fails with
    | some error, _ => (shared, .done (.error error))
    | none, some text => (shared, .done (.error (.internal text)))
    | none, none =>
      match shared.blobs (sha deployment body) with
      | some found => (shared, .done (.ok (existing deployment body found.toRawBlob)))
      | none => (shared, .write)
  | .write =>
    let store := { deployment.store with putFails := conditions.putFails }
    match store.putWithOptionalAttrs (path deployment body upload) body
        (resolvedType deployment upload) with
    | .error error => (shared, .done (.error (.internal ("blob put: ".str ++ error.text))))
    | .ok object =>
      ({ shared with
          content := Function.update shared.content (path deployment body upload) (some object) },
        .openRun)
  | .openRun =>
    match conditions.fails with
    | some text => (shared, .done (.error (.internal text)))
    | none =>
      ({ shared with
          runs := shared.runs ++ [{
            runId := conditions.runId
            endpointId := "ingress:generic".str
            args := runArgs deployment body upload }] },
        .setSubmittedBy conditions.runId)
  | .setSubmittedBy runId =>
    match conditions.fails with
    | some text => (shared, .done (.error (.internal text)))
    | none =>
      ({ shared with
          runs := updateRun runId (fun run => { run with submittedBy := some upload.submittedBy })
            shared.runs },
        .insert runId)
  | .insert runId =>
    match conditions.fails with
    | some text =>
      (shared, .closeRun runId (some text)
        (.error (.badRequest ("failed to record blob: ".str ++ text))))
    | none =>
      ({ shared with blobs := insertRow shared.blobs (row deployment body upload runId) },
        .closeRun runId none (.ok (ingested deployment body upload runId)))
  | .closeRun runId errorText answer =>
    match conditions.fails with
    | some _ => (shared, .done answer)
    | none =>
      ({ shared with
          runs := updateRun runId (fun run =>
            match errorText with
            | none => { run with status := "ok".str, rowsInserted := 1 }
            | some text =>
              { run with status := "failed".str, rowsFailed := 1, errorText := some text })
            shared.runs },
        .done answer)
  | .done answer => (shared, .done answer)

end

/-! ## One ingest alone -/

/-- An ingest that no other comes between, with the conditions of each of its statements. -/
def alone (deployment : Deployment) (body : Bytes) (upload : Upload) :
    List Conditions → Shared → Stage → Shared × Stage
  | [], shared, stage => (shared, stage)
  | conditions :: rest, shared, stage =>
    let (shared, stage) := advance deployment body upload conditions shared stage
    alone deployment body upload rest shared stage

/-- What the database answers to `ingest_blob` under these conditions. -/
def tablesOf (shared : Shared) (lookup openRun submit insert : Conditions) : IngestTables where
  lookupExisting sha :=
    match lookup.fails with
    | some text => .error (.internal text)
    | none => .ok ((shared.blobs sha).map BlobRow.toRawBlob)
  openRun :=
    match openRun.fails, submit.fails with
    | some text, _ => .error (.internal text)
    | none, some text => .error (.internal text)
    | none, none => .ok openRun.runId
  insertFails := insert.fails

section

variable {deployment : Deployment} {body : Bytes} {upload : Upload} {shared : Shared}

/-- An answered call does nothing more. -/
theorem alone_done (answer : ApiResult BlobIngestResult) (conditions : List Conditions) :
    alone deployment body upload conditions shared (.done answer) = (shared, .done answer) := by
  induction conditions with
  | nil => rfl
  | cons first rest inductionHypothesis => exact inductionHypothesis

/-- A call that comes to its insert alone inserts its row and answers; the content stays. -/
theorem alone_insert (runId : Str) (insert close : Conditions) :
    let left := alone deployment body upload [insert, close] shared (.insert runId)
    left.2 = .done (match insert.fails with
        | some text => .error (.badRequest ("failed to record blob: ".str ++ text))
        | none => .ok (ingested deployment body upload runId)) ∧
      left.1.content = shared.content := by
  simp only [alone, advance]
  cases insert.fails <;> cases close.fails <;> exact ⟨rfl, rfl⟩

/-- From the opening of the run on. -/
theorem alone_openRun (lookup openRun submit insert close : Conditions) :
    let left := alone deployment body upload [openRun, submit, insert, close] shared .openRun
    left.2 = .done (match (tablesOf shared lookup openRun submit insert).openRun, insert.fails with
        | .error error, _ => .error error
        | .ok _, some text => .error (.badRequest ("failed to record blob: ".str ++ text))
        | .ok runId, none => .ok (ingested deployment body upload runId)) ∧
      left.1.content = shared.content := by
  simp only [tablesOf]
  rw [alone, advance]
  cases openRun.fails with
  | some text =>
    dsimp only
    rw [alone_done]
    exact ⟨rfl, rfl⟩
  | none =>
    dsimp only
    rw [alone, advance]
    cases submit.fails with
    | some text =>
      dsimp only
      rw [alone_done]
      exact ⟨rfl, rfl⟩
    | none =>
      dsimp only
      obtain ⟨stage, content⟩ := @alone_insert deployment body upload _ openRun.runId insert close
      refine ⟨stage.trans ?_, content⟩
      cases insert.fails <;> rfl

/-- An ingest alone answers what `ingest_blob` does, and leaves the same objects. -/
theorem alone_ingestBlob (tables : BlobTables)
    (lookup write openRun submit insert close : Conditions) :
    let answered := ingestBlob
      { crates := deployment.crates, blobRoot := deployment.blobRoot,
        blobMaxBytes := deployment.blobMaxBytes,
        store := { deployment.store with putFails := write.putFails }, tables := tables }
      deployment.publicBaseUrl (tablesOf shared lookup openRun submit insert) shared.content body
      upload.contentType upload.suggestedName
    let left := alone deployment body upload [lookup, write, openRun, submit, insert, close] shared
      .lookup
    left.2 = .done answered.1 ∧ left.1.content = answered.2.1 := by
  intro answered left
  have ended : ∀ {answer : ApiResult BlobIngestResult} {conditions : List Conditions},
      left = alone deployment body upload conditions shared (.done answer) →
      left.2 = .done answer ∧ left.1.content = shared.content := by
    intro answer conditions same
    rw [same, alone_done]
    exact ⟨rfl, rfl⟩
  have first : left = alone deployment body upload [write, openRun, submit, insert, close]
      (advance deployment body upload lookup shared .lookup).1
      (advance deployment body upload lookup shared .lookup).2 := rfl
  rw [advance] at first
  simp only [answered, ingestBlob]
  unfold refusal at first
  by_cases unset : deployment.blobRoot.isEmpty = true
  · rw [if_pos unset] at first ⊢
    exact ended first
  by_cases empty : body.isEmpty = true
  · rw [if_neg unset, if_pos empty] at first ⊢
    exact ended first
  by_cases large : deployment.blobMaxBytes < body.length
  · rw [if_neg unset, if_neg empty, if_pos large] at first ⊢
    exact ended first
  rw [if_neg unset, if_neg empty, if_neg large] at first ⊢
  simp only [tablesOf]
  cases asked : lookup.fails with
  | some text =>
    rw [asked] at first
    exact ended first
  | none =>
    rw [asked] at first
    cases there : shared.blobs (sha deployment body) with
    | some found =>
      rw [there] at first
      have read : (shared.blobs (deployment.crates.sha256Hex body)).map BlobRow.toRawBlob =
          some found.toRawBlob := congrArg (Option.map BlobRow.toRawBlob) there
      simp only [read]
      exact ended first
    | none =>
      rw [there] at first
      have read : (shared.blobs (deployment.crates.sha256Hex body)).map BlobRow.toRawBlob = none :=
        congrArg (Option.map BlobRow.toRawBlob) there
      simp only [read]
      have second : left = alone deployment body upload [openRun, submit, insert, close]
          (advance deployment body upload write shared .write).1
          (advance deployment body upload write shared .write).2 := first
      rw [advance] at second
      dsimp only at second
      generalize put : ObjectStore.putWithOptionalAttrs
        { deployment.store with putFails := write.putFails } (path deployment body upload) body
        (resolvedType deployment upload) = written at second
      have put' : ObjectStore.putWithOptionalAttrs
          { deployment.store with putFails := write.putFails }
          (deployment.store.path (casKey (keyPrefixFor deployment.crates
            (contentTypeFor deployment.crates upload.contentType upload.suggestedName))
            (deployment.crates.sha256Hex body))) body
          (contentTypeFor deployment.crates upload.contentType upload.suggestedName) =
          written := put
      simp only [put']
      cases written with
      | error error => exact ended second
      | ok object =>
        obtain ⟨stage, content⟩ := @alone_openRun deployment body upload
          { shared with
            content := Function.update shared.content (path deployment body upload) (some object) }
          lookup openRun submit insert close
        rw [← second] at stage content
        simp only [tablesOf] at stage
        generalize insert.fails = inserts at stage ⊢
        generalize openRun.fails = opens at stage ⊢
        generalize submit.fails = submits at stage ⊢
        cases inserts <;> cases opens <;> cases submits <;> exact ⟨stage, content⟩

end

/-! ## All of them -/

/-- The ingests in progress, and what they share. -/
structure State where
  shared : Shared
  stages : List Stage

/-- Which ingest goes on, and under which conditions. -/
structure Label where
  ingest : Nat
  conditions : Conditions := {}

/-- An ingest executes its next statement. -/
def step (deployment : Deployment) (body : Bytes) (uploads : List Upload) (state : State)
    (label : Label) : Option State :=
  match uploads[label.ingest]?, state.stages[label.ingest]? with
  | some _, some (.done _) => none
  | some upload, some stage =>
    let (shared, next) := advance deployment body upload label.conditions state.shared stage
    some ⟨shared, state.stages.set label.ingest next⟩
  | _, _ => none

/-- Nothing is ingested yet. -/
def start (shared : Shared) (uploads : List Upload) : State :=
  ⟨shared, uploads.map (fun _ => .lookup)⟩

/-- Every ingest is answered. -/
def Finished (state : State) : Prop := ∀ stage ∈ state.stages, ∃ answer, stage = .done answer

/-- The result of a call that has succeeded. -/
def Stage.success? : Stage → Option BlobIngestResult
  | .done (.ok result) => some result
  | _ => none

/-- The answers of the ingests that succeeded. -/
def successes (state : State) : List BlobIngestResult := state.stages.filterMap Stage.success?

/-- The answer is what the row records. -/
def Agrees (result : BlobIngestResult) (row : BlobRow) : Prop :=
  result.storageUrl = row.storageUrl ∧ result.contentType = row.contentType ∧
    result.sizeBytes = row.sizeBytes

/-- The object at the key of the row holds the bytes. -/
def Holds (deployment : Deployment) (body : Bytes) (content : Content) (row : BlobRow) : Prop :=
  ∃ key object, row.storageUrl = publicUrlFor deployment.publicBaseUrl key ∧
    content (deployment.store.path key) = some object ∧ object.bytes = body

/-- All who succeeded were answered with the row of the digest, one of them as the first, and the
object is there. -/
structure Deduplicated (deployment : Deployment) (body : Bytes) (state : State) : Prop where
  recorded : ∀ result ∈ successes state, ∃ row,
    state.shared.blobs (sha deployment body) = some row ∧ Agrees result row
  once : successes state ≠ [] →
    ((successes state).filter (fun result => !result.alreadyExisted)).length = 1
  held : ∀ row, state.shared.blobs (sha deployment body) = some row →
    Holds deployment body state.shared.content row

/-- An insertion is only executed where the digest has no row yet. -/
def allowed (deployment : Deployment) (body : Bytes) (state : State) (label : Label) : Bool :=
  match state.stages[label.ingest]? with
  | some (.insert _) =>
    label.conditions.fails.isSome || (state.shared.blobs (sha deployment body)).isNone
  | _ => true

/-! ## What a statement does -/

/-- The answer that an ingest has, or will have. -/
def Stage.result? : Stage → Option BlobIngestResult
  | .closeRun _ _ (.ok result) | .done (.ok result) => some result
  | _ => none

/-- The ingest takes itself for the first. -/
def Stage.first (stage : Stage) : Bool := stage.result?.any (fun result => !result.alreadyExisted)

/-- The object of the ingest is written, and its row is not. -/
def Stage.wrote : Stage → Bool
  | .openRun | .setSubmittedBy _ | .insert _ => true
  | _ => false

/-- An object at the path holds the bytes. -/
def Stored (body : Bytes) (content : Content) (path : Str) : Prop :=
  ∃ object, content path = some object ∧ object.bytes = body

section

variable {deployment : Deployment} {body : Bytes} {upload : Upload} {conditions : Conditions}
  {shared shared' : Shared} {stage stage' : Stage}

/-- What is stored stays stored when the same bytes are written, here or elsewhere. -/
theorem Stored.update {content : Content} {path other : Str} (stored : Stored body content path)
    {object : Object} (bytes : object.bytes = body) :
    Stored body (Function.update content other (some object)) path := by
  by_cases same : path = other
  · subst same
    exact ⟨object, Function.update_self _ _ _, bytes⟩
  · rw [Stored, Function.update_of_ne same]
    exact stored

/-- A statement that neither finds a row nor inserts one. -/
structure Quiet (deployment : Deployment) (body : Bytes) (upload : Upload)
    (shared shared' : Shared) (stage stage' : Stage) : Prop where
  blobs : shared'.blobs = shared.blobs
  content : ∀ path, Stored body shared.content path → Stored body shared'.content path
  result : stage'.result? = stage.result?
  wrote : stage'.wrote = true →
    stage.wrote = true ∨ Stored body shared'.content (path deployment body upload)

/-- The answer is the row that was found. -/
def Found (deployment : Deployment) (body : Bytes) (shared shared' : Shared)
    (stage stage' : Stage) : Prop :=
  stage = .lookup ∧ shared' = shared ∧ ∃ found, shared.blobs (sha deployment body) = some found ∧
    stage' = .done (.ok (existing deployment body found.toRawBlob))

/-- The row is inserted, unless there is one. -/
def Inserted (deployment : Deployment) (body : Bytes) (upload : Upload) (conditions : Conditions)
    (shared shared' : Shared) (stage stage' : Stage) : Prop :=
  ∃ runId, stage = .insert runId ∧ conditions.fails = none ∧
    shared' = { shared with blobs := insertRow shared.blobs (row deployment body upload runId) } ∧
    stage' = .closeRun runId none (.ok (ingested deployment body upload runId))

/-- A step that changes nothing that is shared is quiet. -/
theorem quiet_of_shared (result : stage'.result? = stage.result?)
    (wrote : stage'.wrote = true → stage.wrote = true) :
    Quiet deployment body upload shared shared stage stage' :=
  ⟨rfl, fun _ stored => stored, result, fun written => .inl (wrote written)⟩

/-- The statements of an ingest that is not answered yet. -/
theorem advance_cases (pending : ∀ answer, stage ≠ .done answer)
    (advanced : advance deployment body upload conditions shared stage = (shared', stage')) :
    Quiet deployment body upload shared shared' stage stage' ∨
      Found deployment body shared shared' stage stage' ∨
      Inserted deployment body upload conditions shared shared' stage stage' := by
  cases stage with
  | lookup =>
    simp only [advance] at advanced
    split at advanced
    · cases advanced
      exact .inl (quiet_of_shared rfl nofun)
    · cases advanced
      exact .inl (quiet_of_shared rfl nofun)
    · split at advanced
      · rename_i found there
        cases advanced
        exact .inr (.inl ⟨rfl, rfl, found, there, rfl⟩)
      · cases advanced
        exact .inl (quiet_of_shared rfl nofun)
  | write =>
    simp only [advance] at advanced
    split at advanced
    · cases advanced
      exact .inl (quiet_of_shared rfl nofun)
    · rename_i object put
      cases advanced
      have bytes := ObjectStore.putWithOptionalAttrs_bytes put
      refine .inl ⟨rfl, fun _ stored => stored.update bytes, rfl, fun _ => .inr ?_⟩
      exact ⟨object, Function.update_self _ _ _, bytes⟩
  | openRun =>
    simp only [advance] at advanced
    split at advanced
    · cases advanced
      exact .inl (quiet_of_shared rfl nofun)
    · cases advanced
      exact .inl ⟨rfl, fun _ stored => stored, rfl, fun _ => .inl rfl⟩
  | setSubmittedBy runId =>
    simp only [advance] at advanced
    split at advanced
    · cases advanced
      exact .inl (quiet_of_shared rfl nofun)
    · cases advanced
      exact .inl ⟨rfl, fun _ stored => stored, rfl, fun _ => .inl rfl⟩
  | insert runId =>
    simp only [advance] at advanced
    split at advanced
    · cases advanced
      exact .inl (quiet_of_shared rfl nofun)
    · rename_i works
      cases advanced
      exact .inr (.inr ⟨runId, rfl, works, rfl, rfl⟩)
  | closeRun runId errorText answer =>
    simp only [advance] at advanced
    split at advanced
    · cases advanced
      refine .inl (quiet_of_shared ?_ nofun)
      cases answer <;> rfl
    · cases advanced
      refine .inl ⟨rfl, fun _ stored => stored, ?_, nofun⟩
      cases answer <;> rfl
  | done answer => exact absurd rfl (pending answer)

end

/-! ## What a step does -/

/-- How many ingests take themselves for the first. -/
def firsts (state : State) : Nat := state.stages.countP Stage.first

variable {deployment : Deployment} {body : Bytes} {uploads : List Upload}
  {state next reached : State} {label : Label} {labels : List Label}

/-- A step is one of a call that has not answered yet. -/
theorem step_eq_some (taken : step deployment body uploads state label = some next) :
    ∃ upload stage shared' stage', uploads[label.ingest]? = some upload ∧
      state.stages[label.ingest]? = some stage ∧ (∀ answer, stage ≠ .done answer) ∧
      advance deployment body upload label.conditions state.shared stage = (shared', stage') ∧
      next = ⟨shared', state.stages.set label.ingest stage'⟩ := by
  unfold step at taken
  split at taken
  · cases taken
  · rename_i upload stage pending sent at_
    cases taken
    exact ⟨upload, stage, _, _, sent, at_, pending, rfl, rfl⟩
  · cases taken

/-- Moving one call on changes the number of first answers by that call's part. -/
theorem firsts_set {stages : List Stage} {i : Nat} {stage : Stage}
    (at_ : stages[i]? = some stage) (stage' : Stage) :
    (stages.set i stage').countP Stage.first + stage.first.toNat =
      stages.countP Stage.first + stage'.first.toNat := by
  obtain ⟨bound, rfl⟩ := List.getElem?_eq_some_iff.mp at_
  have counted : stages[i].first = true → 0 < stages.countP Stage.first := fun first =>
    List.countP_pos_iff.mpr ⟨_, List.getElem_mem bound, first⟩
  rw [List.countP_set bound]
  cases before : stages[i].first <;> cases after : stage'.first <;> simp_all

/-- One more ingest takes itself for the first when it inserts, and else none. -/
theorem firsts_step (taken : step deployment body uploads state label = some next) :
    (next.shared.blobs = state.shared.blobs ∧ firsts next = firsts state) ∨
      ∃ upload runId,
        next.shared.blobs = insertRow state.shared.blobs (row deployment body upload runId) ∧
        firsts next = firsts state + 1 := by
  obtain ⟨upload, stage, shared', stage', -, at_, pending, advanced, rfl⟩ := step_eq_some taken
  have counted := firsts_set at_ stage'
  rcases advance_cases pending advanced with quiet | ⟨rfl, rfl, found, there, rfl⟩ |
    ⟨runId, rfl, works, rfl, rfl⟩
  · have same : stage'.first = stage.first := by rw [Stage.first, Stage.first, quiet.result]
    rw [same] at counted
    exact .inl ⟨quiet.blobs, Nat.add_right_cancel counted⟩
  · exact .inl ⟨rfl, counted⟩
  · exact .inr ⟨upload, runId, rfl, counted⟩

/-- An insertion that is not allowed finds a row, and is one more. -/
theorem firsts_of_refused (refused : allowed deployment body state label = false)
    (taken : step deployment body uploads state label = some next) :
    state.shared.blobs (sha deployment body) ≠ none ∧ firsts next = firsts state + 1 := by
  obtain ⟨upload, stage, shared', stage', -, at_, pending, advanced, rfl⟩ := step_eq_some taken
  have counted := firsts_set at_ stage'
  unfold allowed at refused
  rw [at_] at refused
  cases stage with
  | insert runId =>
    obtain ⟨works, there⟩ := Bool.or_eq_false_iff.mp refused
    rw [Option.isSome_eq_false_iff, Option.isNone_iff_eq_none] at works
    have inserted :
        stage' = .closeRun runId none (.ok (ingested deployment body upload runId)) := by
      rw [advance, works] at advanced
      cases advanced
      rfl
    subst inserted
    refine ⟨fun none => ?_, counted⟩
    rw [none] at there
    cases there
  | lookup | write | openRun | setSubmittedBy _ | closeRun _ _ _ | done _ => cases refused

/-- A row that is there was inserted by one of the ingests. -/
def Counted (deployment : Deployment) (body : Bytes) (state : State) : Prop :=
  state.shared.blobs (sha deployment body) ≠ none → 1 ≤ firsts state

/-- A step keeps the count of first answers that of the rows. -/
theorem counted_step (counted : Counted deployment body state)
    (taken : step deployment body uploads state label = some next) :
    Counted deployment body next := by
  intro there
  rcases firsts_step taken with ⟨same, kept⟩ | ⟨upload, runId, -, more⟩
  · rw [same] at there
    rw [kept]
    exact counted there
  · omega

/-- First answers are never taken back. -/
theorem firsts_run (ran : run (step deployment body uploads) state labels = some reached) :
    firsts state ≤ firsts reached := by
  refine @run_invariant _ _ _ (fun later => firsts state ≤ firsts later) ?_ _ _ _ le_rfl ran
  intro before label after below taken
  rcases firsts_step taken with ⟨-, kept⟩ | ⟨upload, runId, -, more⟩ <;> omega

/-- A run in which an insertion finds a row leaves two ingests that take themselves for the
first. -/
theorem guarded_or_twice (counted : Counted deployment body state)
    (ran : run (step deployment body uploads) state labels = some reached) :
    run (guarded (allowed deployment body) (step deployment body uploads)) state labels =
        some reached ∨ 2 ≤ firsts reached := by
  induction labels generalizing state with
  | nil => exact .inl ran
  | cons label rest inductionHypothesis =>
    rw [run_cons] at ran ⊢
    obtain ⟨next, taken, onward⟩ := Option.bind_eq_some_iff.mp ran
    cases meets : allowed deployment body state label with
    | true =>
      rw [guarded, if_pos meets, taken, Option.bind_some]
      exact inductionHypothesis (counted_step counted taken) onward
    | false =>
      obtain ⟨there, more⟩ := firsts_of_refused meets taken
      have one := counted there
      have later := firsts_run onward
      exact .inr (by omega)

/-! ## Runs in which no insertion finds a row -/

/-- The row is there with the one ingest that inserted it, or neither is. -/
structure Sound (deployment : Deployment) (body : Bytes) (uploads : List Upload) (state : State) :
    Prop where
  wrote : ∀ (i : Nat) upload stage, uploads[i]? = some upload → state.stages[i]? = some stage →
    stage.wrote = true → Stored body state.shared.content (path deployment body upload)
  absent : state.shared.blobs (sha deployment body) = none →
    ∀ stage ∈ state.stages, stage.result? = none
  once : ∀ row, state.shared.blobs (sha deployment body) = some row →
    firsts state = 1 ∧ Holds deployment body state.shared.content row ∧
      ∀ stage ∈ state.stages, ∀ result, stage.result? = some result → Agrees result row

/-- A row holds as long as its object stays. -/
theorem Holds.grow {content content' : Content} {row : BlobRow}
    (kept : ∀ path, Stored body content path → Stored body content' path)
    (holds : Holds deployment body content row) : Holds deployment body content' row := by
  obtain ⟨key, object, url, there, bytes⟩ := holds
  obtain ⟨object', there', bytes'⟩ := kept _ ⟨object, there, bytes⟩
  exact ⟨key, object', url, there', bytes'⟩

/-- A stage after one was replaced is the new one, or was there. -/
theorem wrote_set {content : Content} {stages : List Stage} {label : Nat} {upload : Upload}
    {stage' : Stage} (sent : uploads[label]? = some upload)
    (wrote : ∀ (i : Nat) upload stage, uploads[i]? = some upload → stages[i]? = some stage →
      stage.wrote = true → Stored body content (path deployment body upload))
    (new : stage'.wrote = true → Stored body content (path deployment body upload)) :
    ∀ (i : Nat) upload stage, uploads[i]? = some upload →
      (stages.set label stage')[i]? = some stage → stage.wrote = true →
        Stored body content (path deployment body upload) := by
  intro i other stage sent' at_ written
  rw [List.getElem?_set] at at_
  split_ifs at at_ with same bound
  · subst same
    cases at_
    cases sent.symm.trans sent'
    exact new written
  · exact wrote i other stage sent' at_ written

/-- Where no call has an answer there is no first one. -/
theorem firsts_eq_zero (none : ∀ stage ∈ state.stages, stage.result? = none) :
    firsts state = 0 := by
  refine List.countP_eq_zero.mpr (fun stage member => ?_)
  rw [Stage.first, none stage member]
  exact Bool.false_ne_true

/-- A statement that neither finds nor inserts keeps what was sound. -/
theorem sound_quiet {upload : Upload} {stage stage' : Stage} {shared' : Shared}
    (sound : Sound deployment body uploads state)
    (sent : uploads[label.ingest]? = some upload) (at_ : state.stages[label.ingest]? = some stage)
    (quiet : Quiet deployment body upload state.shared shared' stage stage') :
    Sound deployment body uploads ⟨shared', state.stages.set label.ingest stage'⟩ := by
  have replaced : ∀ other ∈ state.stages.set label.ingest stage', ∃ old ∈ state.stages,
      other.result? = old.result? := by
    intro other member
    rcases List.mem_or_eq_of_mem_set member with old | rfl
    · exact ⟨other, old, rfl⟩
    · exact ⟨stage, List.mem_of_getElem? at_, quiet.result⟩
  refine ⟨?_, ?_, ?_⟩
  · refine wrote_set sent (fun i other old sent' at_' written =>
      quiet.content _ (sound.wrote i other old sent' at_' written)) (fun written => ?_)
    rcases quiet.wrote written with before | now
    · exact quiet.content _ (sound.wrote _ upload stage sent at_ before)
    · exact now
  · intro none other member
    obtain ⟨old, there, same⟩ := replaced other member
    rw [same]
    refine sound.absent ?_ old there
    rw [← quiet.blobs]
    exact none
  · intro row there
    have before : state.shared.blobs (sha deployment body) = some row := by
      rw [← quiet.blobs]
      exact there
    obtain ⟨one, holds, agree⟩ := sound.once row before
    refine ⟨?_, holds.grow quiet.content, fun other member result given => ?_⟩
    · have counted := firsts_set at_ stage'
      have same : stage'.first = stage.first := by rw [Stage.first, Stage.first, quiet.result]
      rw [same] at counted
      exact (Nat.add_right_cancel counted).trans one
    · obtain ⟨old, member', same⟩ := replaced other member
      exact agree old member' result (same ▸ given)

/-- A lookup that finds the row answers with it. -/
theorem sound_found {upload : Upload} {found : BlobRow}
    (sound : Sound deployment body uploads state)
    (sent : uploads[label.ingest]? = some upload) (at_ : state.stages[label.ingest]? = some .lookup)
    (there : state.shared.blobs (sha deployment body) = some found) :
    Sound deployment body uploads ⟨state.shared, state.stages.set label.ingest
      (.done (.ok (existing deployment body found.toRawBlob)))⟩ := by
  refine ⟨wrote_set sent sound.wrote nofun, fun none => ?_, fun row there' => ?_⟩
  · cases there.symm.trans none
  · cases there.symm.trans there'
    obtain ⟨one, holds, agree⟩ := sound.once found there
    refine ⟨(firsts_set at_ _).trans one, holds, fun other member result given => ?_⟩
    rcases List.mem_or_eq_of_mem_set member with old | rfl
    · exact agree other old result given
    · cases given
      exact ⟨rfl, rfl, rfl⟩

/-- The first insertion. -/
theorem sound_inserted {upload : Upload} {runId : Str}
    (sound : Sound deployment body uploads state)
    (sent : uploads[label.ingest]? = some upload)
    (at_ : state.stages[label.ingest]? = some (.insert runId))
    (vacant : state.shared.blobs (sha deployment body) = none) :
    Sound deployment body uploads
      ⟨{ state.shared with
          blobs := insertRow state.shared.blobs (row deployment body upload runId) },
        state.stages.set label.ingest
          (.closeRun runId none (.ok (ingested deployment body upload runId)))⟩ := by
  have inserted : insertRow state.shared.blobs (row deployment body upload runId)
      (sha deployment body) = some (row deployment body upload runId) := by
    have key : (row deployment body upload runId).blobSha256 = sha deployment body := rfl
    rw [insertRow, key, vacant]
    exact Function.update_self _ _ _
  refine ⟨wrote_set sent sound.wrote nofun, fun absent => ?_, fun found there => ?_⟩
  · cases inserted.symm.trans absent
  · cases inserted.symm.trans there
    obtain ⟨object, stored, bytes⟩ := sound.wrote _ upload _ sent at_ rfl
    refine ⟨?_, ⟨key deployment body upload, object, rfl, stored, bytes⟩,
      fun other member result given => ?_⟩
    · have counted := firsts_set at_
        (.closeRun runId none (.ok (ingested deployment body upload runId)))
      have zero : state.stages.countP Stage.first = 0 := firsts_eq_zero (sound.absent vacant)
      rw [zero] at counted
      exact counted
    · rcases List.mem_or_eq_of_mem_set member with old | rfl
      · rw [sound.absent vacant other old] at given
        cases given
      · cases given
        exact ⟨rfl, rfl, rfl⟩

/-- A step under the condition keeps the run sound. The cases are those of the calls' stages. -/
theorem sound_step (sound : Sound deployment body uploads state)
    (meets : allowed deployment body state label = true)
    (taken : step deployment body uploads state label = some next) :
    Sound deployment body uploads next := by
  obtain ⟨upload, stage, shared', stage', sent, at_, pending, advanced, rfl⟩ := step_eq_some taken
  rcases advance_cases pending advanced with quiet | ⟨rfl, rfl, found, there, rfl⟩ |
    ⟨runId, rfl, works, rfl, rfl⟩
  · exact sound_quiet sound sent at_ quiet
  · exact sound_found sound sent at_ there
  · refine sound_inserted sound sent at_ ?_
    rw [allowed, at_] at meets
    dsimp only at meets
    rw [works] at meets
    exact Option.isNone_iff_eq_none.mp meets

/-! ## What the callers are answered -/

/-- Before the calls there is no row. -/
theorem sound_start {shared : Shared} (vacant : shared.blobs (sha deployment body) = none) :
    Sound deployment body uploads (start shared uploads) := by
  have looks : ∀ stage ∈ (start shared uploads).stages, stage = .lookup := by
    intro stage member
    obtain ⟨_, -, rfl⟩ := List.mem_map.mp member
    rfl
  refine ⟨fun i upload stage _ at_ written => ?_, fun _ stage member => ?_, fun row there => ?_⟩
  · rw [looks stage (List.mem_of_getElem? at_)] at written
    cases written
  · rw [looks stage member]
    rfl
  · cases vacant.symm.trans there

/-- The answers of a finished run are the results of its stages. -/
theorem success?_of_finished (finished : Finished state) :
    ∀ stage ∈ state.stages, stage.success? = stage.result? := by
  intro stage member
  obtain ⟨answer, rfl⟩ := finished stage member
  cases answer <;> rfl

/-- At the end the first answers are the successes that found nothing. -/
theorem firsts_of_finished (finished : Finished state) :
    ((successes state).filter (fun result => !result.alreadyExisted)).length = firsts state := by
  rw [← List.countP_eq_length_filter, successes, List.countP_filterMap, firsts]
  refine List.countP_congr (fun stage member => ?_)
  rw [success?_of_finished finished stage member, Stage.first]
  cases stage.result? <;> rfl

/-- A sound run that is finished has deduplicated its calls. -/
theorem deduplicated_of_sound (sound : Sound deployment body uploads state)
    (finished : Finished state) : Deduplicated deployment body state := by
  have answered : ∀ result ∈ successes state, ∃ row,
      state.shared.blobs (sha deployment body) = some row ∧ Agrees result row := by
    intro result member
    obtain ⟨stage, there, given⟩ := List.mem_filterMap.mp member
    rw [success?_of_finished finished stage there] at given
    cases recorded : state.shared.blobs (sha deployment body) with
    | none =>
      rw [sound.absent recorded stage there] at given
      cases given
    | some row => exact ⟨row, rfl, (sound.once row recorded).2.2 stage there result given⟩
  refine ⟨answered, fun some => ?_, fun row recorded => (sound.once row recorded).2.1⟩
  obtain ⟨result, member⟩ := List.exists_mem_of_ne_nil _ some
  obtain ⟨row, recorded, -⟩ := answered result member
  rw [firsts_of_finished finished]
  exact (sound.once row recorded).1

/-- In any order of their statements, ingests of the same bytes agree exactly when no insertion is
executed where the digest has a row already. -/
theorem deduplicated_iff (deployment : Deployment) (body : Bytes) (uploads : List Upload)
    (shared : Shared) (vacant : shared.blobs (sha deployment body) = none) (labels : List Label)
    (reached : State)
    (ran : run (step deployment body uploads) (start shared uploads) labels = some reached)
    (finished : Finished reached) :
    Deduplicated deployment body reached ↔
      run (guarded (allowed deployment body) (step deployment body uploads)) (start shared uploads)
        labels = some reached := by
  constructor
  · intro deduplicated
    have counted : Counted deployment body (start shared uploads) := fun there =>
      absurd vacant there
    refine (guarded_or_twice counted ran).resolve_right (fun twice => ?_)
    rw [← firsts_of_finished finished] at twice
    have some : successes reached ≠ [] := by
      intro none
      rw [none] at twice
      cases twice
    rw [deduplicated.once some] at twice
    omega
  · intro guardedRun
    have sound : Sound deployment body uploads reached := by
      refine run_invariant (fun state label next sound taken => ?_) (sound_start vacant) guardedRun
      obtain ⟨meets, stepped⟩ := guarded_eq_some.mp taken
      exact sound_step sound meets stepped
    exact deduplicated_of_sound sound finished

/-! ## A note, twice -/

/-- The same note, as a text and as a page. -/
def notes : List Upload :=
  [{ contentType := some "text/plain".str }, { contentType := some "text/html".str }]

/-- A store and tables without content. -/
def nothing : Shared := ⟨fun _ => none, fun _ => none, []⟩

/-- Each statement of both, one after the other. -/
def inTurn : List Label :=
  [⟨0, {}⟩, ⟨1, {}⟩, ⟨0, {}⟩, ⟨1, {}⟩, ⟨0, {}⟩, ⟨1, {}⟩, ⟨0, {}⟩, ⟨1, {}⟩, ⟨0, {}⟩, ⟨1, {}⟩,
    ⟨0, {}⟩, ⟨1, {}⟩]

/-- Both looked for the row before either inserted it. -/
theorem inTurn_apart : ∃ reached,
    run (step desk note notes) (start nothing notes) inTurn = some reached ∧ Finished reached ∧
      ¬ Deduplicated desk note reached := by
  refine ⟨_, rfl, ?_, ?_⟩
  · intro stage member
    rcases List.mem_pair.mp member with rfl | rfl <;> exact ⟨_, rfl⟩
  · intro deduplicated
    have once := deduplicated.once (List.cons_ne_nil _ _)
    cases once

/-- The second ingest looks for the row when the first is done. -/
def afterwards : List Label :=
  [⟨0, {}⟩, ⟨0, {}⟩, ⟨0, {}⟩, ⟨0, {}⟩, ⟨0, {}⟩, ⟨0, {}⟩, ⟨1, {}⟩]

/-- Two calls after a first one find its row, though they overlap. -/
theorem afterwards_together : ∃ reached,
    run (step desk note notes) (start nothing notes) afterwards = some reached ∧
      Deduplicated desk note reached := by
  refine ⟨_, rfl, (deduplicated_iff desk note notes nothing rfl afterwards _ rfl ?_).mpr rfl⟩
  intro stage member
  rcases List.mem_pair.mp member with rfl | rfl <;> exact ⟨_, rfl⟩

end LumidPlatform.Blobs.Dedup
