import LumidPlatform.Error
import LumidPlatform.Write.Validation

/-!
# Ingesting records

One call validates the records against their table and hands the accepted ones to the
engine that owns it. This is the pipeline for a caller who brings the run along: the run is
adopted, and neither opened nor closed here. What the engines do is a parameter.
-/

namespace LumidPlatform.Ingest.Core

open LumidPlatform.Write

/-- What an engine is asked to write. -/
structure WriteRequest where
  schema : Str
  table : Str
  tableMeta : TableMeta
  records : List Json
  source : Str
  sourceEndpoint : Str
  sourceRunId : Str

/-- The engines behind the registry, over the state `D` of their databases and caches. -/
structure Engines (D : Type) where
  /-- The metadata of a table, from the engine that owns it; `none` for an unknown table. -/
  tableMeta : Str → Str → D → ApiResult (Option TableMeta) × D
  /-- How many rows were inserted and updated. -/
  writeRecords : WriteRequest → D → ApiResult (Nat × Nat) × D

/-- `valid_source_endpoint`. -/
def validSourceEndpoint (s : Str) : Bool :=
  1 ≤ s.length && s.length ≤ 200 &&
    s.all (fun c => Text.isAsciiAlphanumeric c || "_:/?=&.-".str.contains c)

structure IngestParams where
  targetSchema : Str
  targetTable : Str
  source : Str
  sourceEndpoint : Str
  runId : Str

inductive Status where
  | ok
  | partly
  | failed
  deriving DecidableEq

/-- `IngestResult`. -/
structure IngestResult where
  runId : Option Str
  targetSchema : Str
  targetTable : Str
  received : Nat
  inserted : Nat
  updated : Nat
  failed : Nat
  rejected : List Rejected
  status : Status

def Status.text : Status → Str
  | ok => "ok".str
  | partly => "partial".str
  | failed => "failed".str

/-- `IngestResult::to_json`. -/
def IngestResult.toJson (result : IngestResult) : Json :=
  .object [
    ("run_id".str, match result.runId with | some id => .string id | none => .null),
    ("target_schema".str, .string result.targetSchema),
    ("target_table".str, .string result.targetTable),
    ("received".str, .ofNat result.received),
    ("inserted".str, .ofNat result.inserted),
    ("updated".str, .ofNat result.updated),
    ("failed".str, .ofNat result.failed),
    ("rejected".str, .array (result.rejected.map (fun entry => .object [
      ("index".str, .ofNat entry.index), ("error".str, .string entry.error),
      ("record".str, entry.record)]))),
    ("status".str, .string result.status.text)]

/-- What is wrong with the parameters themselves. -/
def paramsError (unicode : Unicode) (p : IngestParams) : Option ApiError :=
  if p.targetSchema.isEmpty || p.targetTable.isEmpty then
    some (.badRequest "target_schema and target_table are required".str)
  else if p.source.isEmpty then some (.badRequest "source is required".str)
  else if p.sourceEndpoint.isEmpty || !validSourceEndpoint p.sourceEndpoint then
    some (.badRequest ("source_endpoint must match [A-Za-z0-9_:/?=&.-]\x7b1,200\x7d (got ".str ++
      unicode.debug p.sourceEndpoint ++ ")".str))
  else none

/-- The part of `ingest_records` after the table was found. A failed write leaves what the
engine leaves. -/
def writeTo {D : Type} (engines : Engines D) (p : IngestParams) (table : TableMeta)
    (records : List Json) (db : D) : ApiResult IngestResult × D :=
  let (parsed, rejected) := validateBatch table records
  if parsed.isEmpty && !rejected.isEmpty then
    (.ok ⟨none, p.targetSchema, p.targetTable, records.length, 0, 0, rejected.length, rejected,
      .failed⟩, db)
  else
    match engines.writeRecords ⟨p.targetSchema, p.targetTable, table, parsed, p.source,
        p.sourceEndpoint, p.runId⟩ db with
    | (.error _, db) =>
      (.error (.internal ("ingest write failed; check server logs for run ".str ++ p.runId)), db)
    | (.ok (inserted, updated), db) =>
      (.ok ⟨some p.runId, p.targetSchema, p.targetTable, records.length, inserted, updated,
        rejected.length, rejected, if rejected.isEmpty then .ok else .partly⟩, db)

/-- `ingest_records` for an adopted run, with validation. -/
def ingestRecords {D : Type} (unicode : Unicode) (engines : Engines D) (p : IngestParams)
    (records : List Json) (db : D) : ApiResult IngestResult × D :=
  match paramsError unicode p with
  | some error => (.error error, db)
  | none =>
    match engines.tableMeta p.targetSchema p.targetTable db with
    | (.error error, db) => (.error error, db)
    | (.ok none, db) =>
      (.error (.notFound ("unknown table: ".str ++ p.targetSchema ++ '.' :: p.targetTable)), db)
    | (.ok (some table), db) => writeTo engines p table records db

section

variable {D : Type} {unicode : Unicode} {engines : Engines D} {p : IngestParams}
  {records : List Json} {db db' : D} {result : IngestResult}

/-- A result counts the records that were received and those that were rejected; it is a
failure exactly where every record of a non-empty batch was rejected. -/
theorem writeTo_ok {table : TableMeta}
    (written : writeTo engines p table records db = (.ok result, db')) :
    result.received = records.length ∧
      result.failed = (validateBatch table records).2.length ∧
      (result.status = .failed ↔ (validateBatch table records).1 = [] ∧
        (validateBatch table records).2 ≠ []) ∧
      (result.status = .failed → result.inserted = 0 ∧ result.updated = 0) := by
  rw [writeTo] at written
  dsimp only at written
  by_cases none_parsed : (validateBatch table records).1 = [] ∧ (validateBatch table records).2 ≠ []
  · rw [if_pos (by simpa using none_parsed)] at written
    obtain rfl := Except.ok.inj (Prod.mk.inj written).1
    simp [none_parsed]
  · rw [if_neg (by simpa using none_parsed)] at written
    split at written
    · simp at written
    · obtain rfl := Except.ok.inj (Prod.mk.inj written).1
      have other : (if (validateBatch table records).2.isEmpty then Status.ok else .partly) ≠
          .failed := by
        split_ifs
        · simp
        · simp
      exact ⟨rfl, rfl, iff_of_false other none_parsed, fun failed => absurd failed other⟩

/-- A result comes from a table that was found. -/
theorem ingestRecords_ok
    (ingested : ingestRecords unicode engines p records db = (.ok result, db')) :
    ∃ table found, engines.tableMeta p.targetSchema p.targetTable db = (.ok (some table), found) ∧
      writeTo engines p table records found = (.ok result, db') := by
  rw [ingestRecords] at ingested
  split at ingested
  · simp at ingested
  · split at ingested
    · simp at ingested
    · simp at ingested
    · rename_i table found answered
      exact ⟨table, found, answered, ingested⟩

end

end LumidPlatform.Ingest.Core
