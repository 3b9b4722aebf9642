import LumidPlatform.Ingest.Core
import LumidPlatform.Write.Chunks

/-!
# Streams

A stream of records is ingested in chunks, each by a call of its own under the one run of the
stream. The first chunk that fails ends the stream, and what was written before it stays. What
the table holds afterwards is, as far as the chunks stage their records as the whole list would,
what one call for the whole list leaves.
-/

namespace LumidPlatform.Ingest.Stream

open LumidPlatform.Write LumidPlatform.Ingest.Core

/-! ## The loop over the chunks -/

/-- What the loop has counted, and the error that ended it. -/
structure Tally where
  inserted : Nat := 0
  updated : Nat := 0
  failed : Nat := 0
  rejected : List Rejected := []
  error : Option ApiError := none

def Tally.add (tally : Tally) (result : IngestResult) : Tally :=
  { tally with
    inserted := tally.inserted + result.inserted
    updated := tally.updated + result.updated
    failed := tally.failed + result.failed
    rejected := tally.rejected ++ result.rejected }

/-- `final_status`. -/
def Tally.status (tally : Tally) : Core.Status :=
  match tally.error with
  | some _ => .failed
  | none => if tally.rejected.isEmpty then .ok else .partly

/-- The chunk loop of `post_stream`; the engines are those of the moment of each chunk. -/
def streamChunks {D : Type} (unicode : Unicode) (engines : Nat → Engines D) (p : IngestParams) :
    Nat → List (List Json) → Tally → D → Tally × D
  | _, [], tally, db => (tally, db)
  | n, chunk :: rest, tally, db =>
    match ingestRecords unicode (engines n) p chunk db with
    | (.ok result, db) => streamChunks unicode engines p (n + 1) rest (tally.add result) db
    | (.error error, db) => ({ tally with error := some error }, db)

/-! ## Postgres -/

variable {V : Type} [DecidableEq V]

/-- Postgres as the engine of one table, at a moment. -/
def postgres (table : Engine.Table V) (coercion : Coercion) (conflictCols : List Str)
    (nowIso : Str) (moment : Nat) : Engines (List (Engine.Row V)) where
  tableMeta _ _ rows := (.ok (some (Engine.metaOf table conflictCols)), rows)
  writeRecords req rows := Engine.writeRecords table coercion req.tableMeta
    ⟨req.records, req.source, req.sourceEndpoint, req.sourceRunId⟩ nowIso moment rows

variable {table : Engine.Table V} {coercion : Coercion} {conflictCols : List Str}
  {unicode : Unicode} {p : IngestParams} {rows rows' : List (Engine.Row V)}

/-- What is written for a stream, apart from its records. -/
def requestOf (p : IngestParams) : Engine.WriteRequest :=
  ⟨[], p.source, p.sourceEndpoint, p.runId⟩

/-- A call that accepts all of its records writes them. -/
theorem ingest_writes {nowIso : Str} {moment : Nat} {records : List Json} {result : IngestResult}
    (ingested : ingestRecords unicode (postgres table coercion conflictCols nowIso moment) p
      records rows = (.ok result, rows'))
    (accepted : ∀ record ∈ records, accepts (Engine.metaOf table conflictCols) record = true) :
    ∃ counts, Engine.writeRecords table coercion (Engine.metaOf table conflictCols)
      ((requestOf p).withRecords records) nowIso moment rows = (.ok counts, rows') := by
  obtain ⟨found, db, answered, written⟩ := ingestRecords_ok ingested
  obtain ⟨same, rfl⟩ := Prod.mk.inj answered
  obtain rfl := Option.some.inj (Except.ok.inj same)
  have parsed : (validateBatch (Engine.metaOf table conflictCols) records).1 = records := by
    rw [validateBatch_parsed]
    exact List.filter_eq_self.mpr accepted
  have rejected := validateBatch_rejected_eq_nil.mpr accepted
  rw [writeTo] at written
  dsimp only at written
  rw [parsed, rejected, List.isEmpty_nil, Bool.not_true, Bool.and_false,
    if_neg Bool.false_ne_true] at written
  split at written
  · cases (Prod.mk.inj written).1
  · rename_i inserted updated after ran
    obtain rfl := (Prod.mk.inj written).2
    exact ⟨_, ran⟩

/-- A call that fails leaves the rows as they are. -/
theorem ingest_failed {nowIso : Str} {moment : Nat} {records : List Json} {error : ApiError}
    (failed : ingestRecords unicode (postgres table coercion conflictCols nowIso moment) p
      records rows = (.error error, rows')) : rows' = rows := by
  rw [ingestRecords] at failed
  split at failed
  · exact (Prod.mk.inj failed).2.symm
  · change writeTo _ p (Engine.metaOf table conflictCols) records rows = _ at failed
    rw [writeTo] at failed
    dsimp only at failed
    split at failed
    · cases (Prod.mk.inj failed).1
    · split at failed
      · rename_i wrong after ran
        obtain rfl := (Prod.mk.inj failed).2
        exact Engine.writeRecords_error ran
      · cases (Prod.mk.inj failed).1

/-- A stream has written its chunks one after the other, each at its moment, up to the one that
ended it. -/
theorem stream_written {clock : Nat → Str × Nat} {chunks : List (List Json)} {n : Nat}
    {start tally : Tally} (fresh : start.error = none)
    (streamed : streamChunks unicode (fun n => postgres table coercion conflictCols (clock n).1
      (clock n).2) p n chunks start rows = (tally, rows'))
    (accepted : ∀ record ∈ chunks.flatten,
      accepts (Engine.metaOf table conflictCols) record = true) :
    ∃ done, done <+: chunks ∧ (tally.error = none ↔ done = chunks) ∧
      Engine.Written table coercion (Engine.metaOf table conflictCols) (requestOf p)
        (fun began => ∃ i, n ≤ i ∧ i < n + done.length ∧ began = (clock i).2) done rows rows' := by
  induction chunks generalizing n start rows with
  | nil =>
    obtain ⟨rfl, rfl⟩ := Prod.mk.inj streamed
    exact ⟨[], List.prefix_refl _, iff_of_true fresh rfl, .nil rows⟩
  | cons chunk rest inductionHypothesis =>
    rw [streamChunks] at streamed
    rw [List.flatten_cons, List.forall_mem_append] at accepted
    split at streamed
    · rename_i result middle ingested
      obtain ⟨counts, first⟩ := ingest_writes ingested accepted.1
      have still : (start.add result).error = none := fresh
      obtain ⟨done, before, whole, others⟩ := inductionHypothesis still streamed accepted.2
      refine ⟨chunk :: done, List.cons_prefix_cons.mpr ⟨rfl, before⟩, ?_, .cons ?_ first ?_⟩
      · rw [whole, List.cons.injEq, and_iff_right rfl]
      · exact ⟨n, le_refl n, by simp, rfl⟩
      · refine others.mono fun began during => ?_
        obtain ⟨i, after, below, same⟩ := during
        refine ⟨i, by omega, ?_, same⟩
        rw [List.length_cons]
        omega
    · rename_i error after failed
      obtain ⟨rfl, rfl⟩ := Prod.mk.inj streamed
      obtain rfl := ingest_failed failed
      exact ⟨[], List.nil_prefix, by simp, .nil _⟩

/-! ## The same content -/

/-- The stamp, the time and the identity of a row, but for its source. -/
def generatedCols : List Str :=
  ["source_endpoint".str, "source_run_id".str, "ingest_ts".str, "id".str]

/-- The moments at which a number of chunks are written, and that of one call. -/
def moments (clock : Nat → Str × Nat) (count moment : Nat) (began : Nat) : Prop :=
  began = moment ∨ ∃ n < count, began = (clock n).2

/-- All chunks stage the column as the whole list does, at certain moments. -/
def ChunksAlike (table : Engine.Table V) (coercion : Coercion) (conflictCols : List Str)
    (p : IngestParams) (times : Nat → Prop) (chunks : List (List Json)) (name : Str) : Prop :=
  ∀ chunk ∈ chunks, Engine.StagedAlike table coercion (Engine.metaOf table conflictCols)
    (requestOf p) times chunks.flatten chunk name

/-- What two ways to write a list have in common, from the same rows on: the keys, the columns
that all chunks stage alike, and the rows without a full key. Where all data is staged alike, the
endpoint and the run of a row are the same wherever its data has changed, if they are staged
alike. -/
structure SameContent (table : Engine.Table V) (coercion : Coercion) (conflictCols : List Str)
    (p : IngestParams) (times : Nat → Prop) (chunks : List (List Json))
    (rows rows₁ rows₂ : List (Engine.Row V)) : Prop where
  keys : ∀ key, (rows₁.find? (Engine.hasKey conflictCols key)).isSome =
    (rows₂.find? (Engine.hasKey conflictCols key)).isSome
  cells : ∀ key name, name ∈ (Engine.targetColumns table).map ColumnInfo.name →
    name ∉ generatedCols → ChunksAlike table coercion conflictCols p times chunks name →
    Engine.cellAt conflictCols rows₁ key name = Engine.cellAt conflictCols rows₂ key name
  stamps : (∀ name ∈ (Engine.targetColumns table).map ColumnInfo.name, name ∉ serverStampedCols →
      ChunksAlike table coercion conflictCols p times chunks name) →
    ∀ key, (∃ name ∈ (Engine.targetColumns table).map ColumnInfo.name, name ∉ serverStampedCols ∧
      Engine.cellAt conflictCols rows₁ key name ≠ Engine.cellAt conflictCols rows key name) →
    ∀ name ∈ (Engine.targetColumns table).map ColumnInfo.name,
      name ∈ ["source_endpoint".str, "source_run_id".str] →
      ChunksAlike table coercion conflictCols p times chunks name →
      Engine.cellAt conflictCols rows₁ key name = Engine.cellAt conflictCols rows₂ key name
  keyless : ∀ row ∈ rows, Engine.keyOf conflictCols row = none → row ∈ rows₁ ∧ row ∈ rows₂

/-- What one call for all records of some chunks leaves, and what their batches leave. -/
theorem sameContent {chunks : List (List Json)} {times : Nat → Prop} {nowIso : Str} {moment : Nat}
    {result : IngestResult} {rows rows₁ rows₂ : List (Engine.Row V)}
    (accepted : ∀ record ∈ chunks.flatten,
      accepts (Engine.metaOf table conflictCols) record = true)
    (whole : ingestRecords unicode (postgres table coercion conflictCols nowIso moment) p
      chunks.flatten rows = (.ok result, rows₁))
    (during : times moment)
    (cut : Engine.Written table coercion (Engine.metaOf table conflictCols) (requestOf p) times
      chunks rows rows₂)
    (noId : "id".str ∉ conflictCols)
    (keyAlike : ∀ name ∈ conflictCols,
      ChunksAlike table coercion conflictCols p times chunks name) :
    SameContent table coercion conflictCols p times chunks rows rows₁ rows₂ := by
  obtain ⟨counts, first⟩ := ingest_writes whole accepted
  have once : Engine.Written table coercion (Engine.metaOf table conflictCols) (requestOf p)
      times [chunks.flatten] rows rows₁ := .cons during first (.nil rows₁)
  have data {name : Str} (target : name ∈ (Engine.targetColumns table).map ColumnInfo.name)
      (free : name ∉ serverStampedCols) : name ∈ conflictCols ∨
        name ∈ (Engine.buildMerge (Engine.targetColumns table) conflictCols).distinctCols :=
    @Engine.compared_of_target V table
      ((requestOf p).call (Engine.metaOf table conflictCols)) name target free
  refine ⟨Engine.rows_alike once cut noId keyAlike, ?_, ?_, ?_⟩
  · intro key name target free alike
    by_cases source : name = "source".str
    · subst source
      exact Engine.sources_alike once cut noId keyAlike key alike
    · refine Engine.cells_alike once cut noId keyAlike key (data target ?_) alike
      intro stamped
      simp only [serverStampedCols, generatedCols, List.mem_cons] at stamped free
      exact free (stamped.resolve_left source)
  · rintro dataAlike key ⟨changed, known, free, differs⟩ name target refreshed stampAlike
    have alike (other : Str) (compared : other ∈
        (Engine.buildMerge (Engine.targetColumns table) conflictCols).distinctCols) :
        ChunksAlike table coercion conflictCols p times chunks other := by
      obtain ⟨inside, plain⟩ := @Engine.distinct_data V table
        ((requestOf p).call (Engine.metaOf table conflictCols)) other compared
      exact dataAlike other inside plain
    have set (among : name ∈ Engine.provRefresh) :
        name ∈ (Engine.buildMerge (Engine.targetColumns table) conflictCols).updateTargets :=
      @Engine.refreshed_updated V table
        ((requestOf p).call (Engine.metaOf table conflictCols)) name among target
    have endpoint : ("source_endpoint".str, p.sourceEndpoint) ∈
        ((requestOf p).call (Engine.metaOf table conflictCols)).stamp.entries :=
      List.mem_cons_of_mem _ List.mem_cons_self
    have run : ("source_run_id".str, p.runId) ∈
        ((requestOf p).call (Engine.metaOf table conflictCols)).stamp.entries :=
      List.mem_cons_of_mem _ (List.mem_cons_of_mem _ List.mem_cons_self)
    simp only [List.mem_cons, List.not_mem_nil, or_false] at refreshed
    rcases refreshed with rfl | rfl
    · have same := Engine.stamps_alike once cut noId keyAlike alike (data known free) differs
        endpoint stampAlike (set (by decide))
      exact same
    · have same := Engine.stamps_alike once cut noId keyAlike alike (data known free) differs
        run stampAlike (set (by decide))
      exact same
  · intro row member keyless
    exact ⟨Engine.keyless_written once member keyless, Engine.keyless_written cut member keyless⟩

/-- A stream leaves the content that one call leaves for the records of all chunks that it has
written, where these chunks stage the key as that call does. They are all its chunks unless one
of them has ended the stream. -/
theorem stream_like_whole {clock : Nat → Str × Nat} {chunks : List (List Json)} {tally : Tally}
    {rows rows₂ : List (Engine.Row V)}
    (accepted : (validateBatch (Engine.metaOf table conflictCols) chunks.flatten).2 = [])
    (streamed : streamChunks unicode (fun n => postgres table coercion conflictCols (clock n).1
      (clock n).2) p 0 chunks {} rows = (tally, rows₂)) :
    ∃ done, done <+: chunks ∧ (tally.error = none ↔ done = chunks) ∧
      ∀ nowIso moment result rows₁,
        ingestRecords unicode (postgres table coercion conflictCols nowIso moment) p done.flatten
          rows = (.ok result, rows₁) →
        "id".str ∉ conflictCols →
        (∀ name ∈ conflictCols, ChunksAlike table coercion conflictCols p
          (moments clock done.length moment) done name) →
        SameContent table coercion conflictCols p (moments clock done.length moment) done rows
          rows₁ rows₂ := by
  have each := validateBatch_rejected_eq_nil.mp accepted
  obtain ⟨done, before, whole, cut⟩ := stream_written rfl streamed each
  refine ⟨done, before, whole, fun nowIso moment result rows₁ ran noId keyAlike => ?_⟩
  have written : Engine.Written table coercion (Engine.metaOf table conflictCols) (requestOf p)
      (moments clock done.length moment) done rows rows₂ := by
    refine cut.mono fun began during => ?_
    obtain ⟨i, -, below, same⟩ := during
    exact Or.inr ⟨i, by omega, same⟩
  refine sameContent (fun record member => each record ?_) ran (Or.inl rfl) written noId keyAlike
  obtain ⟨rest, rfl⟩ := before
  rw [List.flatten_append]
  exact List.mem_append_left _ member

/-! ## Quotes in two chunks -/

open Engine in
/-- Quotes by ticker, with a volume that is zero by default. -/
def quotes : Table Str :=
  textTable [textColumn "ticker".str false false, textColumn "px".str true false,
      textColumn "volume".str true true] [["ticker".str]]
    (fun name _ => if name = "volume".str then some "0".str else none)

def paramsOf (run : Str) : IngestParams :=
  ⟨"md".str, "quote".str, "desk".str, "desk".str, run⟩

/-- A quote with a price, and what it has besides. -/
def quote (ticker px : String) (more : JsonMap) : Json :=
  .object ([("ticker".str, .string ticker.str), ("px".str, .string px.str)] ++ more)

/-- The rows that one call leaves, if it succeeds. -/
def atOnce (table : Engine.Table Str) (run : Str) (records : List Json)
    (rows : List (Engine.Row Str)) : Option (List (Engine.Row Str)) :=
  match ingestRecords Unicode.ascii
      (postgres table Engine.plainCoercion ["ticker".str] "t".str 0) (paramsOf run) records
        rows with
  | (.ok _, rows) => some rows
  | (.error _, _) => none

/-- The rows that a stream leaves, if no chunk ends it. -/
def inChunks (table : Engine.Table Str) (run : Str) (chunks : List (List Json))
    (rows : List (Engine.Row Str)) : Option (List (Engine.Row Str)) :=
  match streamChunks Unicode.ascii
      (fun n => postgres table Engine.plainCoercion ["ticker".str] "t".str (10 * n))
      (paramsOf run) 0 chunks {} rows with
  | (tally, rows) => if tally.error.isNone then some rows else none

/-- What rows hold at a ticker in a column. -/
def held (rows : Option (List (Engine.Row Str))) (ticker name : String) : Option (Option Str) :=
  rows.bind (fun rows => Engine.cellAt ["ticker".str] rows [ticker.str] name.str)

theorem atOnce_eq_some {table : Engine.Table Str} {run : Str} {records : List Json}
    {rows rows' : List (Engine.Row Str)} (left : atOnce table run records rows = some rows') :
    ∃ result, ingestRecords Unicode.ascii
      (postgres table Engine.plainCoercion ["ticker".str] "t".str 0) (paramsOf run) records rows =
        (.ok result, rows') := by
  rw [atOnce] at left
  split at left
  · rename_i result after ran
    obtain rfl := Option.some.inj left
    exact ⟨result, ran⟩
  · cases left

theorem inChunks_eq_some {table : Engine.Table Str} {run : Str} {chunks : List (List Json)}
    {rows rows' : List (Engine.Row Str)} (left : inChunks table run chunks rows = some rows') :
    ∃ tally, streamChunks Unicode.ascii
      (fun n => postgres table Engine.plainCoercion ["ticker".str] "t".str (10 * n))
      (paramsOf run) 0 chunks {} rows = (tally, rows') ∧ tally.error = none := by
  rw [inChunks] at left
  split at left
  rename_i tally after streamed
  split_ifs at left with unbroken
  obtain rfl := Option.some.inj left
  exact ⟨tally, streamed, Option.isNone_iff_eq_none.mp unbroken⟩

/-- Quotes of which each has a volume. -/
def fullQuotes : List (List Json) :=
  [[quote "ACME" "10" [("volume".str, .string "1".str)]],
    [quote "ACME" "11" [("volume".str, .string "2".str)],
      quote "BETA" "20" [("volume".str, .string "3".str)]]]

theorem fullQuotes_sameContent : ∃ rows₁ rows₂,
    atOnce quotes "run".str fullQuotes.flatten [] = some rows₁ ∧
      inChunks quotes "run".str fullQuotes [] = some rows₂ ∧
      SameContent quotes Engine.plainCoercion ["ticker".str] (paramsOf "run".str)
        (moments (fun n => ("t".str, 10 * n)) 2 0) fullQuotes [] rows₁ rows₂ := by
  obtain ⟨rows₁, once⟩ := Option.isSome_iff_exists.mp
    (show (atOnce quotes "run".str fullQuotes.flatten []).isSome = true by decide +kernel)
  obtain ⟨rows₂, cut⟩ := Option.isSome_iff_exists.mp
    (show (inChunks quotes "run".str fullQuotes []).isSome = true by decide +kernel)
  obtain ⟨result, ran⟩ := atOnce_eq_some once
  obtain ⟨tally, streamed, unbroken⟩ := inChunks_eq_some cut
  have accepted : (validateBatch (Engine.metaOf quotes ["ticker".str]) fullQuotes.flatten).2 = [] :=
    List.length_eq_zero_iff.mp (by decide +kernel)
  have supplied : ∀ chunk ∈ fullQuotes, "ticker".str ∈
      Engine.usableCols (Engine.metaOf quotes ["ticker".str]) chunk := by
    decide +kernel
  obtain ⟨done, -, whole, alike⟩ := @stream_like_whole Str _ quotes Engine.plainCoercion
    ["ticker".str] Unicode.ascii (paramsOf "run".str) (fun n => ("t".str, 10 * n)) fullQuotes
    tally [] rows₂ accepted streamed
  obtain rfl := whole.mp unbroken
  refine ⟨rows₁, rows₂, once, cut, alike _ _ _ _ ran (by decide) ?_⟩
  intro name keyed chunk member
  obtain rfl := List.mem_singleton.mp keyed
  -- a text is what it is at any time
  exact Or.inl ⟨supplied chunk member, fun record _ => ⟨Engine.textCell quotes _ _ 0, fun _ _ => rfl⟩⟩

/-- Quotes of which only the second has a volume. -/
def bareQuotes : List (List Json) :=
  [[quote "ACME" "10" []], [quote "BETA" "20" [("volume".str, .string "5".str)]]]

/-- Quotes with a price that the table does not take, corrected by the next chunk. -/
def checkedQuotes : Engine.Table Str :=
  { quotes with admits := fun row => row "px".str ≠ some "bad".str }

/-- Quotes with prices of their own. -/
def distinctQuotes : Engine.Table Str :=
  { quotes with uniques := [["ticker".str], ["px".str]] }

/-- What one call has written before a stream comes. -/
def before (table : Engine.Table Str) (records : List Json) : List (Engine.Row Str) :=
  (atOnce table "old".str records []).getD []

def acme : List Json := [quote "ACME" "10" []]

def acmeAndBeta : List Json := [quote "ACME" "10" [], quote "BETA" "20" []]

/-- A price that the other quote has until it changes. -/
def movedQuotes : List (List Json) := [[quote "BETA" "30" []], [quote "ACME" "20" []]]

/-- A price that changes back. -/
def backQuotes : List (List Json) := [[quote "ACME" "11" []], [quote "ACME" "10" []]]

/-- A price that is not taken, and is corrected. -/
def badQuotes : List (List Json) := [[quote "ACME" "bad" []], [quote "ACME" "10" []]]

/-- How a list is cut decides what a column is that some of its records leave out, whether a row
that is corrected later or a price that moves on is in the way, and from which run a row is that
changes back. -/
theorem chunks_matter :
    (held (atOnce quotes "run".str bareQuotes.flatten []) "ACME" "volume" = some none ∧
      held (inChunks quotes "run".str bareQuotes []) "ACME" "volume" = some (some "0".str)) ∧
    ((atOnce checkedQuotes "run".str badQuotes.flatten []).isSome ∧
      (inChunks checkedQuotes "run".str badQuotes []).isNone) ∧
    ((atOnce distinctQuotes "run".str movedQuotes.flatten
        (before distinctQuotes acmeAndBeta)).isNone ∧
      (inChunks distinctQuotes "run".str movedQuotes (before distinctQuotes acmeAndBeta)).isSome) ∧
    held (atOnce quotes "run".str backQuotes.flatten (before quotes acme)) "ACME"
        "source_run_id" = some (some "old".str) ∧
      held (inChunks quotes "run".str backQuotes (before quotes acme)) "ACME" "source_run_id" =
        some (some "run".str) := by
  refine ⟨⟨?_, ?_⟩, ⟨?_, ?_⟩, ⟨?_, ?_⟩, ?_, ?_⟩
  all_goals decide +kernel

end LumidPlatform.Ingest.Stream
