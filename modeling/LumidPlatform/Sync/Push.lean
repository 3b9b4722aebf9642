import Mathlib.Data.Prod.Lex
import LumidPlatform.Lib.Keyset
import LumidPlatform.Sync.Inbox

/-!
# The push helper

A producer drains a table to the inbox of a target. It reads the rows page by page in the
order of a watermark column and the row's place in the table, sends each page in groups of
one run, and saves how far it came after each page. A run returns when a page is empty, or
when a group could not be delivered.
-/

namespace LumidPlatform.Sync

open LumidPlatform.Write

/-! ## The source -/

/-- A `ctid`: block and offset. -/
abbrev Tid := Nat × Nat

/-- `<` on `tid`. -/
def tidLt (a b : Tid) : Bool := a.1 < b.1 || (a.1 == b.1 && a.2 < b.2)

/-- A row version of the source: the transaction that wrote it, its place, the values of its
timestamp columns in microseconds from the year 2000, and what serde_json reads of what
`to_jsonb` makes of it. It refuses a number beyond an `f64`, and what is nested too deep. -/
structure SourceRow where
  xmin : Nat
  ctid : Tid
  stamps : Str → Option Int
  toJsonb : Option Json

/-- The record of a row that was read. -/
def SourceRow.json (row : SourceRow) : Json := row.toJsonb.getD .null

/-- What tells a row version from all others. -/
abbrev Version := Nat × Tid

def SourceRow.version (row : SourceRow) : Version := (row.xmin, row.ctid)

/-- A table, with the types of its columns. -/
structure SourceTable where
  types : Str → Option Str
  rows : List SourceRow
  unique : (rows.map SourceRow.ctid).Nodup

/-- What is fixed for a producer and one of its tables. -/
structure Producer where
  crates : Crates
  /-- `Uuid::parse_str`, with the text of the result. -/
  parseUuid : Str → Option Str
  /-- Whether an instant of Postgres is one that `chrono` can hold. -/
  readable : Int → Bool
  targetUrl : Str
  peerId : Str
  maxAttempts : Nat
  batchRows : Nat
  schema : Str
  table : Str

/-! ## Instants -/

/-- The instant of a `timestamptz`, read from the database. -/
def ofMicros (micros : Int) : DateTime :=
  ⟨946684800 + micros / 1000000, (micros % 1000000).toNat * 1000⟩

/-- An instant, bound as a `timestamptz`. -/
def toMicros (instant : DateTime) : Int :=
  (instant.seconds - 946684800) * 1000000 + (instant.nanos / 1000 : Nat)

@[simp] theorem toMicros_ofMicros (micros : Int) : toMicros (ofMicros micros) = micros := by
  have division := Int.emod_add_mul_ediv micros 1000000
  have nonneg := Int.emod_nonneg micros (show (1000000 : Int) ≠ 0 by omega)
  simp only [toMicros, ofMicros]
  omega

/-- `get("wm")` into a `DateTime<Utc>`, which panics where there is nothing to return: on
`NULL`, on an instant out of range, and on a column without time zone. -/
def readWatermark (producer : Producer) (source : SourceTable) (col : Str) (row : SourceRow) :
    Option DateTime :=
  if source.types col = some "timestamp with time zone".str then
    match row.stamps col with
    | some micros => if producer.readable micros then some (ofMicros micros) else none
    | none => none
  else none

/-! ## The cursor -/

/-- A row of `sync.push_cursor`. -/
structure CursorRow where
  watermark : Option Str
  watermarkKey : Option Tid
  rowsPushed : Nat
  lastResult : Str

/-- Watermark and key a run continues from. -/
structure Cursor where
  wm : Option DateTime
  key : Option Tid

def loadCursor (crates : Crates) : Option CursorRow → ApiResult Cursor
  | none => .ok ⟨none, none⟩
  | some row =>
    match row.watermark with
    | none => .ok ⟨none, none⟩
    | some text =>
      match crates.parseRfc3339 text with
      | some instant => .ok ⟨some instant, row.watermarkKey⟩
      | none => .error (.internal ("corrupt push_cursor watermark ".str ++ crates.unicode.debug text))

/-- The row `save_cursor` leaves. -/
def Cursor.row (cursor : Cursor) (crates : Crates) (rowsPushed : Nat) (result : Str) : CursorRow :=
  ⟨cursor.wm.map crates.showRfc3339, cursor.key, rowsPushed, result⟩

/-- The condition of the page query. -/
def selects (cursor : Cursor) (col : Str) (row : SourceRow) : Bool :=
  match cursor.wm, row.stamps col with
  | none, _ => true
  | some _, none => false
  | some wm, some micros =>
    decide (toMicros wm < micros) ||
      (micros == toMicros wm && cursor.key.any (fun key => tidLt key row.ctid))

/-- The order of the page query: rows without watermark are last. -/
abbrev Place := ℕ ×ₗ ℤ ×ₗ ℕ ×ₗ ℕ

def place (col : Str) (row : SourceRow) : Place :=
  match row.stamps col with
  | some micros => toLex (0, toLex (micros, toLex row.ctid))
  | none => toLex (1, toLex (0, toLex row.ctid))

/-- The rows whose `get::<_, Value>("row")` returns; for any other it panics. -/
def allRead (rows : List SourceRow) : Bool := rows.all (fun row => row.toJsonb.isSome)

/-- The page query. -/
def queryPage (producer : Producer) (source : SourceTable) (col : Str) (cursor : Cursor) :
    List SourceRow :=
  Keyset.page (place col) producer.batchRows (source.rows.filter (selects cursor col))

/-! ## Groups -/

/-- `Value::get` with a key. -/
def field (record : Json) (key : Str) : Option Json :=
  record.asObject?.bind (fun members => JsonMap.get members key)

/-- `strip_server_side_cols`. -/
def stripServerSideCols : Json → Json
  | .object members => .object (members.filter (fun entry => !serverStampedCols.contains entry.1))
  | other => other

/-- Rows by run, the runs in order. -/
abbrev Groups := List (Str × List SourceRow)

/-- `groups.entry(run).or_default().push(row)`. -/
def Groups.push (run : Str) (row : SourceRow) : Groups → Groups
  | [] => [(run, [row])]
  | (name, rows) :: rest =>
    if name = run then (name, rows ++ [row]) :: rest
    else if Text.le run name then (run, [row]) :: (name, rows) :: rest
    else (name, rows) :: Groups.push run row rest

/-- The groups of a page, after those of earlier rows of it. -/
def groupRows (producer : Producer) : Groups → List SourceRow → ApiResult Groups
  | groups, [] => .ok groups
  | groups, row :: rest =>
    match (field row.json "source_run_id".str).bind Json.asStr? with
    | none => .error (.badRequest (producer.schema ++ '.' :: producer.table ++
        " row missing string source_run_id; not syncable".str))
    | some run => groupRows producer (groups.push run row) rest

/-- `lineage_of`. -/
def lineageOf (producer : Producer) (record : Json) : ApiResult (Str × Str × Str) :=
  let text (key : Str) : Str := ((field record key).bind Json.asStr?).getD []
  match ((field record "source_run_id".str).bind Json.asStr?).bind producer.parseUuid with
  | none => .error (.badRequest "row has no valid source_run_id".str)
  | some run =>
    if (text "source".str).isEmpty || (text "source_endpoint".str).isEmpty then
      .error (.badRequest "row missing source/source_endpoint".str)
    else .ok (text "source".str, text "source_endpoint".str, run)

/-- `u64::to_le_bytes`. -/
def leBytes (n : Nat) : Bytes := (List.range 8).map (fun i => UInt8.ofNat (n / 256 ^ i % 256))

/-- What `deterministic_batch_id` hashes. -/
def batchContent (crates : Crates) (peer schema table run : Str) (records : List Json) : Bytes :=
  Text.utf8 (peer ++ '|' :: schema ++ '.' :: table ++ '|' :: run ++ ['|']) ++
    leBytes records.length ++ records.flatMap (fun record => 0x1e :: crates.toVec record)

/-- `deterministic_batch_id`: the first half of the digest, as 32 digits. -/
def deterministicBatchId (crates : Crates) (peer schema table run : Str) (records : List Json) :
    Str :=
  (crates.sha256Hex (batchContent crates peer schema table run records)).take 32

/-! ## Delivery -/

inductive Reply where
  | acked (body : Json)
  | refused (code : Nat) (text : Str)
  | unreachable (text : Str)

/-- The records of a batch, by index, that the target holds as accepted after an attempt. -/
inductive Uptake where
  | nothing
  | allBut (indices : List Nat)
  deriving DecidableEq

/-- One POST, as the target takes it. -/
structure Attempt where
  reply : Reply
  uptake : Uptake

def Uptake.takes : Uptake → Nat → Bool
  | nothing, _ => false
  | allBut indices, index => !indices.contains index

/-- The row versions of a group that were accepted. -/
def Uptake.versions (uptake : Uptake) (group : List SourceRow) : List Version :=
  (group.zipIdx.filter (fun entry => uptake.takes entry.2)).map (fun entry => entry.1.version)

/-- The count of rejected records in an ACK. -/
def failedOf (body : Json) : Int :=
  match field body "failed".str with
  | some (.number (.int n)) => if -2 ^ 63 ≤ n ∧ n < 2 ^ 63 then n else 0
  | _ => 0

/-- What is said of an attempt that failed. -/
def Reply.failure : Reply → Option Str
  | acked _ => none
  | refused code text => some ("target HTTP ".str ++ Text.showNat code ++ ": ".str ++ text.take 200)
  | unreachable text => some ("send error: ".str ++ text)

/-- `post_with_retry`, with the retries that are left: what it returns, what the target took
and the attempts still to come. A target without more attempts cannot be reached. -/
def postWithRetry : Nat → List Attempt → Except Str Int × List Uptake × List Attempt
  | _, [] => (.error "send error: connection refused".str, [], [])
  | left, attempt :: rest =>
    match attempt.reply with
    | .acked body => (.ok (failedOf body), [attempt.uptake], rest)
    | reply =>
      match left with
      | 0 => (.error (reply.failure.getD []), [attempt.uptake], rest)
      | left + 1 =>
        let (result, uptakes, rest) := postWithRetry left rest
        (result, attempt.uptake :: uptakes, rest)

/-! ## The run -/

/-- Why a group has no body: an error, or a value that cannot be read as its type. -/
inductive Unbuilt where
  | error (error : ApiError)
  | panicked

/-- What a run meets: the provenance of a run, the attempts of the target, and whether the
local database answers the queries for the pages and for the cursor. -/
structure Surroundings where
  preamble : Str → Except Unbuilt Preamble
  attempts : List Attempt
  reads : Nat → Bool
  saves : Nat → Bool

/-- What a run has done so far. The cursor that the saved row was made from, the batches that
were sent and the rows that were accepted decide nothing. -/
structure Progress where
  cursor : Cursor
  batches : Nat
  total : Nat
  saved : Option CursorRow
  savedAt : Cursor
  attempts : List Attempt
  sent : List SyncApplyBody
  accepted : List Version

inductive PushStatus where
  | ok
  | failed
  deriving DecidableEq

/-- `PushSummary`, without the names that were asked for. -/
structure PushSummary where
  batches : Nat
  rowsPushed : Nat
  status : PushStatus
  lastError : Option Str
  deriving DecidableEq

inductive Outcome where
  | summary (summary : PushSummary)
  | error (error : ApiError)
  | panicked

/-- Why the groups of a page were not all sent. -/
inductive Stop where
  | broken (unbuilt : Unbuilt)
  | undelivered (message : Str)

def Unbuilt.outcome : Unbuilt → Outcome
  | .error failure => .error failure
  | .panicked => .panicked

def Producer.peer (producer : Producer) : Str :=
  if producer.peerId.isEmpty then "default".str else producer.peerId

/-- The body for a group. -/
def groupBody (producer : Producer) (surroundings : Surroundings) (run : Str)
    (group : List SourceRow) : Except Unbuilt SyncApplyBody :=
  match group with
  | [] => .error (.error (.badRequest "row has no valid source_run_id".str))
  | first :: _ =>
    match lineageOf producer first.json with
    | .error error => .error (.error error)
    | .ok (source, endpoint, runId) =>
      match surroundings.preamble runId with
      | .error unbuilt => .error unbuilt
      | .ok preamble =>
        let clean := group.map (fun row => stripServerSideCols row.json)
        .ok ⟨deterministicBatchId producer.crates producer.peer producer.schema producer.table run
          clean, source, endpoint, runId, preamble, clean⟩

/-- The loop over the groups of a page. -/
def sendGroups (producer : Producer) (surroundings : Surroundings) :
    Groups → Progress → Progress × Option Stop
  | [], p => (p, none)
  | (run, group) :: rest, p =>
    match groupBody producer surroundings run group with
    | .error unbuilt => (p, some (.broken unbuilt))
    | .ok body =>
      match postWithRetry (max producer.maxAttempts 1 - 1) p.attempts with
      | (result, uptakes, attempts) =>
        let p : Progress := { p with
          attempts
          sent := p.sent ++ [body]
          accepted := p.accepted ++ uptakes.flatMap (fun uptake => uptake.versions group) }
        match result with
        | .error message => (p, some (.undelivered message))
        | .ok _ =>
          sendGroups producer surroundings rest
            { p with total := p.total + group.length, batches := p.batches + 1 }

def databaseError : ApiError := .internal "the database does not answer".str

/-- What `save_cursor` does, where the database answers. -/
def Progress.save (p : Progress) (crates : Crates) (result : Str) : Progress :=
  { p with saved := some (p.cursor.row crates p.total result), savedAt := p.cursor }

/-- The loop over the pages, from a page number on. -/
def drain (producer : Producer) (surroundings : Surroundings) (source : SourceTable) (col : Str) :
    Nat → Nat → Progress → Progress × Outcome
  | 0, _, p => (p, .error databaseError)
  | fuel + 1, page, p =>
    -- a size beyond `i64` is negative, and Postgres refuses it
    if !surroundings.reads page || decide (2 ^ 63 ≤ producer.batchRows) then
      (p, .error databaseError)
    else
      let rows := queryPage producer source col p.cursor
      match rows.getLast? with
      | none => (p, .summary ⟨p.batches, p.total, .ok, none⟩)
      | some last =>
        match readWatermark producer source col last with
        | none => (p, .panicked)
        | some wm =>
          if !allRead rows then (p, .panicked)
          else
            match groupRows producer [] rows with
            | .error error => (p, .error error)
            | .ok groups =>
              match sendGroups producer surroundings groups p with
              | (p, some (.broken unbuilt)) => (p, unbuilt.outcome)
              | (p, some (.undelivered message)) =>
                if surroundings.saves page then
                  (p.save producer.crates ("failed: ".str ++ message),
                    .summary ⟨p.batches, p.total, .failed, some message⟩)
                else (p, .error databaseError)
              | (p, none) =>
                if surroundings.saves page then
                  drain producer surroundings source col fuel (page + 1)
                    (Progress.save { p with cursor := ⟨some wm, some last.ctid⟩ } producer.crates
                      "ok".str)
                else (p, .error databaseError)

/-- `valid_ident`. -/
def validIdent (s : Str) : Bool :=
  !s.isEmpty && Text.byteLen s ≤ 63 && s.all (fun c => Text.isAsciiAlphanumeric c || c == '_')

/-- What is wrong with a request to push, before anything is read. -/
def pushError (producer : Producer) (source : SourceTable) (col : Str) : Option ApiError :=
  if producer.targetUrl.isEmpty then
    some (.badRequest "LUMID_SYNC_TARGET_URL not configured".str)
  else if !validIdent producer.schema || !validIdent producer.table || !validIdent col then
    some (.badRequest "invalid schema/table/watermark identifier".str)
  else
    let name := "watermark column ".str ++ producer.schema ++ '.' :: producer.table ++ '.' :: col
    match source.types col with
    | none => some (.badRequest (name ++ " does not exist".str))
    | some type =>
      if type = "timestamp with time zone".str ∨ type = "timestamp without time zone".str then none
      else some (.badRequest (name ++ " is `".str ++ type ++ "`, must be a timestamp".str))

/-- `run_push`. A page moves the cursor past at least one row, so there are no more pages
than rows, and one that is empty. -/
def runPush (producer : Producer) (surroundings : Surroundings) (source : SourceTable) (col : Str)
    (saved : Option CursorRow) (savedAt : Cursor) (accepted : List Version) :
    Progress × Outcome :=
  let p : Progress :=
    ⟨⟨none, none⟩, 0, 0, saved, savedAt, surroundings.attempts, [], accepted⟩
  match pushError producer source col with
  | some error => (p, .error error)
  | none =>
    match loadCursor producer.crates saved with
    | .error error => (p, .error error)
    | .ok cursor =>
      drain producer surroundings source col (source.rows.length + 1) 0 { p with cursor }

end LumidPlatform.Sync
