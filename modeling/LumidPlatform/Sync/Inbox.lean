import Mathlib.Logic.Function.Basic
import LumidPlatform.Auth
import LumidPlatform.Ingest.Core

/-!
# The inbox

A peer delivers a batch of records with the provenance they need. A batch that stands in
the ledger is answered from there; any other is applied, and then enters the ledger. A
delivery is handled in stages, between which the deliveries of other requests may run and
at each of which it may end without an answer. The read cache, which a delivery also
invalidates, is left out.
-/

namespace LumidPlatform.Sync

open LumidPlatform.Ingest.Core

/-! ## Peers and schemas -/

/-- `peer_from`. -/
def peerFrom (labels : List Str) (role sub : Str) : Option Str :=
  if role = "sync_peer".str then some sub
  else if role = "local".str then
    match Text.stripPrefix sub "local:".str with
    | none => none
    | some label =>
      let allowed :=
        if labels.isEmpty then Text.startsWith label "sync:".str else labels.contains label
      if allowed then some ((Text.stripPrefix label "sync:".str).getD label) else none
  else none

/-- `require_sync_peer`. -/
def requireSyncPeer (labels : List Str) (identity : Identity) : ApiResult Str :=
  match peerFrom labels identity.role identity.sub with
  | some peer => .ok peer
  | none => .error (.forbidden ("sync-peer credential required (local key labelled ".str ++
      "`sync:<peer>`, or role `sync_peer`)".str))

def isDeniedSchema (schema : Str) : Bool :=
  ["sync".str, "provenance".str, "information_schema".str].contains schema ||
    Text.startsWith schema "pg_".str

/-! ## The provenance preamble -/

/-- `Preamble`. -/
structure Preamble where
  apiSources : List Json := []
  endpoints : List Json := []
  runs : List Json := []

inductive ProvTable where
  | apiSources
  | endpoints
  | runs
  deriving DecidableEq

def ProvTable.text : ProvTable → Str
  | apiSources => "provenance.api_sources".str
  | endpoints => "provenance.endpoints".str
  | runs => "provenance.runs".str

/-- What a delivery asks of the databases behind the inbox, but for the ledger. -/
structure Target (D : Type) extends Engines D where
  /-- One row of the preamble, if its key is new; the error text where Postgres refuses. -/
  upsertRow : ProvTable → Json → D → Except Str D
  /-- `provenance.runs` has the run. -/
  runExists : Str → D → Bool

variable {D : Type}

/-- `upsert_prov`. Rows before one that is refused stay. -/
def upsertProv (target : Target D) (table : ProvTable) : List Json → D → ApiResult Unit × D
  | [], db => (.ok (), db)
  | row :: rest, db =>
    match target.upsertRow table row db with
    | .error text =>
      (.error (.internal ("preamble upsert ".str ++ table.text ++ ": ".str ++ text)), db)
    | .ok db => upsertProv target table rest db

/-- The whole preamble, in the order of its references. -/
def upsertPreamble (target : Target D) (preamble : Preamble) (db : D) : ApiResult Unit × D :=
  match upsertProv target .apiSources preamble.apiSources db with
  | (.error error, db) => (.error error, db)
  | (.ok (), db) =>
    match upsertProv target .endpoints preamble.endpoints db with
    | (.error error, db) => (.error error, db)
    | (.ok (), db) => upsertProv target .runs preamble.runs db

/-! ## A delivery -/

/-- `SyncApplyBody`. -/
structure SyncApplyBody where
  batchId : Str
  source : Str
  sourceEndpoint : Str
  sourceRunId : Str
  provenance : Preamble
  records : List Json

/-- `SyncAck`. -/
structure SyncAck where
  batchId : Str
  inserted : Nat
  updated : Nat
  failed : Nat
  duplicate : Bool
  deriving DecidableEq

/-- A row of `sync.inbox_ledger`. -/
structure LedgerRow where
  peer : Str
  batchId : Str
  sourceRunId : Str
  targetSchema : Str
  targetTable : Str
  inserted : Nat
  updated : Nat
  nRows : Nat
  deriving DecidableEq

/-- A request to `/sync/apply/{schema}/{table}`. -/
structure Delivery where
  identity : Identity
  schema : Str
  table : Str
  body : SyncApplyBody

/-- The row of a batch. -/
def ledgerRow (ledger : List LedgerRow) (peer batchId : Str) : Option LedgerRow :=
  ledger.find? (fun row => row.peer == peer && row.batchId == batchId)

/-- `INSERT … ON CONFLICT (peer, batch_id) DO NOTHING`. -/
def insertLedger (row : LedgerRow) (ledger : List LedgerRow) : List LedgerRow :=
  if (ledgerRow ledger row.peer row.batchId).isSome then ledger else ledger ++ [row]

/-- `post_sync_apply` up to the lookup in the ledger: the peer, with the answer for a batch
that is there. -/
def admitDelivery (labels : List Str) (delivery : Delivery) (ledger : List LedgerRow) :
    ApiResult (Str × Option SyncAck) :=
  match requireSyncPeer labels delivery.identity with
  | .error error => .error error
  | .ok peer =>
    if isDeniedSchema delivery.schema then
      .error (.forbidden ("schema `".str ++ delivery.schema ++
        "` is not a permitted sync target".str))
    else if delivery.body.records.isEmpty then
      .error (.badRequest "`records` must be non-empty".str)
    else
      match ledgerRow ledger peer delivery.body.batchId with
      | some row => .ok (peer, some ⟨delivery.body.batchId, row.inserted, row.updated, 0, true⟩)
      | none => .ok (peer, none)

/-- What `post_sync_apply` passes on to the ingest pipeline. -/
def Delivery.params (delivery : Delivery) : IngestParams where
  targetSchema := delivery.schema
  targetTable := delivery.table
  source := delivery.body.source
  sourceEndpoint := delivery.body.sourceEndpoint
  runId := delivery.body.sourceRunId

/-- `post_sync_apply` from the preamble to the end of the pipeline. -/
def applyBatch (unicode : Unicode) (target : Target D) (delivery : Delivery) (db : D) :
    ApiResult IngestResult × D :=
  match upsertPreamble target delivery.body.provenance db with
  | (.error error, db) => (.error error, db)
  | (.ok (), db) =>
    if target.runExists delivery.body.sourceRunId db then
      ingestRecords unicode target.toEngines delivery.params delivery.body.records db
    else
      (.error (.badRequest ("adopted run ".str ++ delivery.body.sourceRunId ++
        " has no provenance.runs row; include it in `provenance.runs`".str)), db)

/-- The result that is an error although the pipeline returned it. -/
def fullyRejected (result : IngestResult) : Bool :=
  result.status = .failed && result.inserted == 0 && result.updated == 0 &&
    result.failed == result.received

/-- The row a result enters the ledger with. -/
def Delivery.row (delivery : Delivery) (peer : Str) (result : IngestResult) : LedgerRow where
  peer := peer
  batchId := delivery.body.batchId
  sourceRunId := delivery.body.sourceRunId
  targetSchema := delivery.schema
  targetTable := delivery.table
  inserted := result.inserted
  updated := result.updated
  nRows := result.received

/-! ## Many deliveries -/

/-- How far a delivery has come. -/
inductive Flight where
  | admitted (peer : Str) (delivery : Delivery)
  | applied (peer : Str) (delivery : Delivery) (result : IngestResult)

/-- A delivery whose records went through the pipeline, with how many were rejected.
Nothing is decided by these. -/
structure Processed where
  peer : Str
  batchId : Str
  rejected : Nat
  deriving DecidableEq

structure Answer where
  delivery : Delivery
  result : ApiResult SyncAck

/-- The databases, the ledger and the deliveries in flight, with what was processed and
answered so far. -/
structure State (D : Type) where
  db : D
  ledger : List LedgerRow
  flights : Nat → Option Flight
  processed : List Processed
  answers : List Answer

/-- An inbox that has seen nothing yet. -/
def start (db : D) : State D := ⟨db, [], fun _ => none, [], []⟩

/-- A delivery is answered and gone. -/
def State.answer (s : State D) (n : Nat) (delivery : Delivery) (result : ApiResult SyncAck) :
    State D :=
  { s with flights := Function.update s.flights n none, answers := s.answers ++ [⟨delivery, result⟩] }

/-- A delivery is at the next stage. -/
def State.advance (s : State D) (n : Nat) (flight : Flight) : State D :=
  { s with flights := Function.update s.flights n (some flight) }

inductive Label (D : Type) where
  | arrive (n : Nat) (delivery : Delivery)
  | apply (n : Nat)
  | record (n : Nat)
  /-- The process dies, or a database call of the delivery fails. -/
  | lose (n : Nat)
  /-- Anything else that happens to the databases. -/
  | change (db : D)

def arrive (labels : List Str) (s : State D) (n : Nat) (delivery : Delivery) : State D :=
  match admitDelivery labels delivery s.ledger with
  | .error error => s.answer n delivery (.error error)
  | .ok (_, some ack) => s.answer n delivery (.ok ack)
  | .ok (peer, none) => s.advance n (.admitted peer delivery)

def apply (unicode : Unicode) (target : Target D) (s : State D) (n : Nat) (peer : Str)
    (delivery : Delivery) : State D :=
  match applyBatch unicode target delivery s.db with
  | (.error error, db) => { s with db }.answer n delivery (.error error)
  | (.ok result, db) =>
    let s : State D := { s with
      db
      processed := s.processed ++ [⟨peer, delivery.body.batchId, result.failed⟩] }
    if fullyRejected result then s.answer n delivery (.error (.validation result.toJson))
    else s.advance n (.applied peer delivery result)

def record (s : State D) (n : Nat) (peer : Str) (delivery : Delivery) (result : IngestResult) :
    State D :=
  { s with ledger := insertLedger (delivery.row peer result) s.ledger }.answer n delivery
    (.ok ⟨delivery.body.batchId, result.inserted, result.updated, result.failed, false⟩)

def step (unicode : Unicode) (labels : List Str) (target : Target D) (s : State D) :
    Label D → Option (State D)
  | .arrive n delivery =>
    match s.flights n with
    | none => some (arrive labels s n delivery)
    | some _ => none
  | .apply n =>
    match s.flights n with
    | some (.admitted peer delivery) => some (apply unicode target s n peer delivery)
    | _ => none
  | .record n =>
    match s.flights n with
    | some (.applied peer delivery result) => some (record s n peer delivery result)
    | _ => none
  | .lose n => some { s with flights := Function.update s.flights n none }
  | .change db => some { s with db }

end LumidPlatform.Sync
