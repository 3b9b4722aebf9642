import LumidPlatform.Ingest.Gate
import LumidPlatform.Ingest.Stream
import LumidPlatform.Sync.Inbox
import LumidPlatform.Write.JsonEachRow
import LumidPlatform.Write.Spelling

/-!
# The tables that requests write

A request for a table is checked under the names it gives, and the table is looked up under
them. What is written then goes to the table that the engine reads from the names: Postgres from
identifiers without quotes, the writer of ClickHouse from their normal forms.
-/

namespace LumidPlatform.Ingest.Targets

open LumidPlatform.Write LumidPlatform.Ingest.Core
open Engine (Table Row)
open JsonEachRow (JsonPrinter expand)
open Spelling (Keywords SpelledName LookedUp writeRecordsSent)

/-! ## Two engines -/

variable {V : Type}

/-- The rows of all tables, and the rows that ClickHouse has stored. -/
structure Facts (V : Type) where
  rows : TableName → List (Row V)
  stored : TableName → List JsonMap

/-- The tables of both engines by their exact names, and what else writing asks of them. -/
structure Catalog (V : Type) where
  crates : Crates
  keywords : Keywords
  coercion : Coercion
  printer : JsonPrinter
  /-- `Registry::get`. -/
  backendOf : TableName → BackendKind
  tables : TableName → Option (Table V)
  /-- `get_unique_columns`. -/
  naturalKey : TableName → List Str
  houses : TableName → Option TableMeta
  /-- ClickHouse takes rows for a table. -/
  takes : TableName → List JsonMap → Bool
  /-- What ClickHouse makes of a statement, over what it has stored. -/
  execute : Str → (TableName → List JsonMap) → Except Str (TableName → List JsonMap)
  key_columns : ∀ name table, tables name = some table →
    ∀ column ∈ naturalKey name, column ∈ table.columns.map (fun c => c.name)
  /-- Rows are stored in the table that their statement names, each value in the column of its
  key, or the statement fails. -/
  execute_insert : ∀ schema table rows stored,
    (execute (JsonEachRow.opening schema table ++ JsonEachRow.linesOf printer rows)
        stored).toOption =
      if (houses (schema, table)).isSome && takes (schema, table) rows then
        some (Function.update stored (schema, table) (stored (schema, table) ++ rows))
      else none

variable (catalog : Catalog V)

/-- The time of a write, as text and in the order of all moments. -/
structure Clock where
  now : Str
  moment : Nat

/-- What is written for a request, beside its records. -/
structure Stamp where
  source : Str
  sourceEndpoint : Str
  runId : Str

/-- `table_meta` of the engine that owns a table. -/
def Catalog.metaOf (name : TableName) : Option TableMeta :=
  match catalog.backendOf name with
  | .postgres => ((catalog.tables name).map (fun table =>
      Engine.metaOf table (catalog.naturalKey name))).filter (fun found => !found.columns.isEmpty)
  | .clickHouse => catalog.houses name

/-- The row of a record: what it has for the columns of the table, and the stamp. -/
def rowOf (tableMeta : TableMeta) (stamp : Stamp) (now : Str) (record : Json) : JsonMap :=
  JsonEachRow.stampRow catalog.printer (JsonEachRow.writable tableMeta) stamp.source
    stamp.sourceEndpoint stamp.runId now record

/-- The stamp of a write. -/
def stampOf (req : Core.WriteRequest) : Stamp := ⟨req.source, req.sourceEndpoint, req.sourceRunId⟩

/-- `ClickHouseBackend::write_records`. -/
def writeHouse (req : Core.WriteRequest) (now : Str) (facts : Facts V) :
    ApiResult (Nat × Nat) × Facts V :=
  let (answer, stored) := JsonEachRow.sendRows catalog.crates.unicode catalog.printer
    catalog.execute req.schema req.table
    (req.records.map (rowOf catalog req.tableMeta (stampOf req) now)) facts.stored
  (answer, { facts with stored })

/-- The client of ClickHouse hands on the text of some rows as it is, or refuses it. -/
def Catalog.HandsOn (rows : List JsonMap) : Prop :=
  '?' ∉ JsonEachRow.linesOf catalog.printer rows ∨
    ∃ e, expand (JsonEachRow.linesOf catalog.printer rows) = .error e

variable {catalog}

/-- Rows that the client hands on as they are reach the server in their statement. -/
theorem Catalog.HandsOn.expanded {rows : List JsonMap} (handed : catalog.HandsOn rows)
    {unicode : Unicode} {schema table schemaN tableN : Str}
    (schemaEq : normIdent unicode schema = some schemaN)
    (tableEq : normIdent unicode table = some tableN) {text : Str}
    (expanded : expand (JsonEachRow.opening schemaN tableN ++
      JsonEachRow.linesOf catalog.printer rows) = .ok text) :
    text = JsonEachRow.opening schemaN tableN ++ JsonEachRow.linesOf catalog.printer rows := by
  rw [JsonEachRow.expand_append (JsonEachRow.opening_plain schemaEq tableEq)] at expanded
  rcases handed with plain | ⟨e, refused⟩
  · rw [(JsonEachRow.expand_eq_self_iff _).mpr plain] at expanded
    exact (Except.ok.inj expanded).symm
  · rw [refused] at expanded
    cases expanded

/-- A write to ClickHouse fails, or stores the rows of its records. -/
theorem writeHouse_named {name : TableName} {facts after : Facts V} (spelled : ∀ schema table,
      normIdent catalog.crates.unicode name.1 = some schema →
      normIdent catalog.crates.unicode name.2 = some table →
        (schema, table) = name ∨ catalog.houses (schema, table) = none)
    {req : Core.WriteRequest} (target : (req.schema, req.table) = name) {now : Str}
    (handed : catalog.HandsOn (req.records.map (rowOf catalog req.tableMeta (stampOf req) now)))
    {answer : ApiResult (Nat × Nat)}
    (written : writeHouse catalog req now facts = (answer, after)) :
    (∃ error, answer = .error error ∧ after = facts) ∨ ∃ counts, answer = .ok counts ∧
      (after = facts ∨ after = { facts with
        stored := Function.update facts.stored name (facts.stored name ++
          req.records.map (rowOf catalog req.tableMeta (stampOf req) now)) }) := by
  subst target
  rw [writeHouse, JsonEachRow.sendRows] at written
  split at written
  next answer' stored sent =>
  obtain ⟨rfl, rfl⟩ := Prod.mk.inj written
  split at sent
  next error given =>
    obtain ⟨rfl, rfl⟩ := Prod.mk.inj sent
    exact Or.inl ⟨_, rfl, rfl⟩
  next given =>
    obtain ⟨rfl, rfl⟩ := Prod.mk.inj sent
    exact Or.inr ⟨_, rfl, Or.inl rfl⟩
  next template given =>
    obtain ⟨-, schemaN, tableN, schemaEq, tableEq, rfl⟩ := JsonEachRow.statement_ok given
    split at sent
    next e failed =>
      obtain ⟨rfl, rfl⟩ := Prod.mk.inj sent
      exact Or.inl ⟨_, rfl, rfl⟩
    next stored' executed =>
      obtain ⟨rfl, rfl⟩ := Prod.mk.inj sent
      right
      cases expanded : expand (JsonEachRow.opening schemaN tableN ++ JsonEachRow.linesOf
          catalog.printer (req.records.map (rowOf catalog req.tableMeta (stampOf req) now))) with
      | error e =>
        rw [expanded] at executed
        cases executed
      | ok text =>
        rw [expanded, handed.expanded schemaEq tableEq expanded] at executed
        have inserted := catalog.execute_insert schemaN tableN
          (req.records.map (rowOf catalog req.tableMeta (stampOf req) now)) facts.stored
        have done : catalog.execute (JsonEachRow.opening schemaN tableN ++ JsonEachRow.linesOf
            catalog.printer (req.records.map (rowOf catalog req.tableMeta (stampOf req) now)))
              facts.stored = .ok stored' := executed
        rw [done] at inserted
        rcases spelled schemaN tableN schemaEq tableEq with same | absent
        · rw [same] at inserted
          split_ifs at inserted
          · obtain rfl := Option.some.inj inserted
            exact ⟨_, rfl, Or.inr rfl⟩
          · cases inserted
        · rw [absent] at inserted
          cases inserted

/-- What Postgres has looked up for a table. -/
theorem metaOf_postgres {name : TableName} {tableMeta : TableMeta}
    (onPostgres : catalog.backendOf name = .postgres)
    (found : catalog.metaOf name = some tableMeta) :
    ∃ table, catalog.tables name = some table ∧
      tableMeta = Engine.metaOf table (catalog.naturalKey name) := by
  rw [Catalog.metaOf, onPostgres] at found
  obtain ⟨looked, -⟩ := Option.filter_eq_some_iff.mp found
  obtain ⟨table, there, rfl⟩ := Option.map_eq_some_iff.mp looked
  exact ⟨table, there, rfl⟩

variable (catalog) [DecidableEq V]

/-- Both engines behind the registry, at some time. -/
def Catalog.engines (clock : Clock) : Engines (Facts V) where
  tableMeta schema table facts := (.ok (catalog.metaOf (schema, table)), facts)
  writeRecords req facts :=
    match catalog.backendOf (req.schema, req.table) with
    | .postgres =>
      let (answer, rows) := writeRecordsSent catalog.keywords catalog.tables (req.schema, req.table)
        catalog.coercion req.tableMeta
        ⟨req.records, req.source, req.sourceEndpoint, req.sourceRunId⟩ clock.now clock.moment
        facts.rows
      (answer, { facts with rows })
    | .clickHouse => writeHouse catalog req clock.now facts

/-! ## Requests -/

/-- The five ways to write to a table, with the records as they were parsed; those of a stream in
the chunks of its loop. -/
inductive Entry where
  | typed (identity : Identity) (records : List Json)
  | stream (identity : Identity) (chunks : List (List Json))
  | file (identity : Identity) (records : List Json)
  | webhook (records : List Json)
  | sync (identity : Identity) (records : List Json)

/-- What a request has to pass. It says whether the table was seen to exist, where that is asked. -/
def Entry.checked (deployment : Deployment) (labels : List Str) (s : State) (name : TableName) :
    Entry → ApiResult Bool
  | typed identity _ | stream identity _ | file identity _ =>
    (gateTarget deployment identity name s).1
  | webhook _ =>
    match (checkCanWrite deployment.crates.unicode "local".str name s).1 with
    | .ok () => .ok true
    | .error error => .error error
  | sync identity _ =>
    match Sync.requireSyncPeer labels identity with
    | .error error => .error error
    | .ok _ =>
      if Sync.isDeniedSchema name.1 then
        .error (.forbidden ("schema `".str ++ name.1 ++ "` is not a permitted sync target".str))
      else .ok true

/-- The parameters of a request for a table. -/
def Stamp.params (stamp : Stamp) (name : TableName) : IngestParams :=
  ⟨name.1, name.2, stamp.source, stamp.sourceEndpoint, stamp.runId⟩

/-- A single call of `ingest_records`, with the error it ends in. -/
def ingestOnce (clock : Clock) (p : IngestParams) (records : List Json) (facts : Facts V) :
    Option ApiError × Facts V :=
  match ingestRecords catalog.crates.unicode (catalog.engines clock) p records facts with
  | (.ok _, facts) => (none, facts)
  | (.error error, facts) => (some error, facts)

/-- What a request that has passed its checks does to the tables. A table that does not exist is
proposed, by a typed request, or refused. -/
def Entry.write (clock : Nat → Clock) (p : IngestParams) (found : Bool) (facts : Facts V) :
    Entry → Option ApiError × Facts V
  | typed _ records => if found then ingestOnce catalog (clock 0) p records facts
      else (none, facts)
  | file _ records => if found then ingestOnce catalog (clock 0) p records facts
      else (some (.notFound ("unknown table: ".str ++ p.targetSchema ++ '.' :: p.targetTable)), facts)
  | stream _ chunks =>
    if found then
      let streamed := Stream.streamChunks catalog.crates.unicode
        (fun n => catalog.engines (clock n)) p 0 chunks {} facts
      (streamed.1.error, streamed.2)
    else (some (.notFound ("unknown table: ".str ++ p.targetSchema ++ '.' :: p.targetTable)), facts)
  | webhook records | sync _ records => ingestOnce catalog (clock 0) p records facts

/-- A whole request, with the error it ends in. -/
def Entry.perform (deployment : Deployment) (labels : List Str) (s : State) (clock : Nat → Clock)
    (stamp : Stamp) (name : TableName) (facts : Facts V) (entry : Entry) :
    Option ApiError × Facts V :=
  match entry.checked deployment labels s name with
  | .error error => (some error, facts)
  | .ok found => entry.write catalog clock (stamp.params name) found facts

/-! ## What is written as it was named -/

/-- The tables are looked up and spelled so that the engine reads their names as they are, or
reads those of no table. -/
structure Catalog.Spelled (name : TableName) : Prop where
  postgres : catalog.backendOf name = .postgres →
    SpelledName catalog.keywords catalog.tables name
  clickHouse : catalog.backendOf name = .clickHouse → ∀ schema table,
    normIdent catalog.crates.unicode name.1 = some schema →
    normIdent catalog.crates.unicode name.2 = some table →
      (schema, table) = name ∨ catalog.houses (schema, table) = none

/-- Records are written to the table of exactly this name, under exactly the names of its
columns, one write after the other. -/
inductive WrittenAs (name : TableName) : Facts V → Facts V → Prop
  | nil (facts : Facts V) : WrittenAs name facts facts
  | rows {facts after : Facts V} {table : Table V} {req : Engine.WriteRequest} {clock : Clock}
      {counts : Nat × Nat} {own : List (Row V)} (found : catalog.tables name = some table)
      (written : Engine.writeRecords table catalog.coercion
        (Engine.metaOf table (catalog.naturalKey name)) req clock.now clock.moment
        (facts.rows name) = (.ok counts, own))
      (others : WrittenAs name { facts with rows := Function.update facts.rows name own } after) :
      WrittenAs name facts after
  | lines {facts after : Facts V} {tableMeta : TableMeta} {stamp : Stamp} {now : Str}
      {records : List Json} (found : catalog.houses name = some tableMeta)
      (others : WrittenAs name
        { facts with
          stored := Function.update facts.stored name
            (facts.stored name ++ records.map (rowOf catalog tableMeta stamp now)) } after) :
      WrittenAs name facts after

variable {catalog} {name : TableName} {facts after : Facts V}

theorem WrittenAs.trans {between : Facts V} (first : WrittenAs catalog name facts between)
    (second : WrittenAs catalog name between after) : WrittenAs catalog name facts after := by
  induction first with
  | nil => exact second
  | rows found written _ inductionHypothesis =>
    exact .rows found written (inductionHypothesis second)
  | lines found _ inductionHypothesis => exact .lines found (inductionHypothesis second)

/-- No other table changes. -/
theorem WrittenAs.others (written : WrittenAs catalog name facts after) {other : TableName}
    (different : other ≠ name) :
    after.rows other = facts.rows other ∧ after.stored other = facts.stored other := by
  induction written with
  | nil => exact ⟨rfl, rfl⟩
  | rows _ _ _ inductionHypothesis =>
    rw [inductionHypothesis.1, inductionHypothesis.2]
    exact ⟨Function.update_of_ne different _ _, rfl⟩
  | lines _ _ inductionHypothesis =>
    rw [inductionHypothesis.1, inductionHypothesis.2]
    exact ⟨rfl, Function.update_of_ne different _ _⟩

/-- One write under a name that is spelled out. -/
theorem writeRecords_named (spelled : catalog.Spelled name) {req : Core.WriteRequest}
    (target : (req.schema, req.table) = name) (found : catalog.metaOf name = some req.tableMeta)
    {clock : Clock} (handed : catalog.backendOf name = .clickHouse →
      catalog.HandsOn (req.records.map (rowOf catalog req.tableMeta (stampOf req) clock.now)))
    {answer : ApiResult (Nat × Nat)}
    (written : (catalog.engines clock).writeRecords req facts = (answer, after)) :
    (∃ error, answer = .error error ∧ after = facts) ∨
      (∃ counts, answer = .ok counts) ∧ WrittenAs catalog name facts after := by
  change (match catalog.backendOf (req.schema, req.table) with
    | .postgres => _
    | .clickHouse => _ : ApiResult (Nat × Nat) × Facts V) = _ at written
  rw [target] at written
  cases engine : catalog.backendOf name with
  | postgres =>
    rw [engine] at written
    obtain ⟨table, there, looked⟩ := metaOf_postgres engine found
    obtain ⟨rfl, rfl⟩ := Prod.mk.inj written
    have known : ∀ other, catalog.tables name = some other → LookedUp other req.tableMeta := by
      intro other also
      obtain rfl := Option.some.inj (there.symm.trans also)
      exact ⟨catalog.naturalKey name, looked, catalog.key_columns name table there⟩
    rcases Spelling.writeRecordsSent_named (spelled.postgres engine) known (by rw [there]; rfl) rfl
      with ⟨error, failed, same⟩ | ⟨other, counts, own, succeeded, also, through, changed⟩
    · left
      exact ⟨error, failed, by rw [same]⟩
    · right
      obtain rfl := Option.some.inj (there.symm.trans also)
      rw [looked] at through
      have step : WrittenAs catalog name facts
          { facts with rows := Function.update facts.rows name own } :=
        .rows there through (.nil _)
      rw [← changed] at step
      exact ⟨⟨counts, succeeded⟩, step⟩
  | clickHouse =>
    rw [engine] at written
    rcases writeHouse_named (spelled.clickHouse engine) target (handed engine) written with
      failed | ⟨counts, succeeded, same⟩
    · exact Or.inl failed
    · refine Or.inr ⟨⟨counts, succeeded⟩, ?_⟩
      have looked : catalog.houses name = some req.tableMeta := by
        rw [Catalog.metaOf, engine] at found
        exact found
      rcases same with rfl | rfl
      · exact .nil after
      · exact .lines looked (.nil _)

/-- The client of ClickHouse hands on the records of a batch that are accepted as they are, or
refuses them. -/
def Catalog.HandsOnBatch (catalog : Catalog V) (name : TableName) (stamp : Stamp) (clock : Clock)
    (records : List Json) : Prop :=
  catalog.backendOf name = .clickHouse → ∀ tableMeta, catalog.houses name = some tableMeta →
    catalog.HandsOn ((validateBatch tableMeta records).1.map
      (rowOf catalog tableMeta stamp clock.now))

/-- One call of `ingest_records` under a name that is spelled out. -/
theorem ingestRecords_named (spelled : catalog.Spelled name) {stamp : Stamp} {clock : Clock}
    {records : List Json} (handed : catalog.HandsOnBatch name stamp clock records)
    {answer : ApiResult IngestResult}
    (ingested : ingestRecords catalog.crates.unicode (catalog.engines clock) (stamp.params name)
      records facts = (answer, after)) :
    (∃ error, answer = .error error ∧ after = facts) ∨
      (∃ result, answer = .ok result) ∧ WrittenAs catalog name facts after := by
  have looked : (catalog.engines clock).tableMeta (stamp.params name).targetSchema
      (stamp.params name).targetTable facts = (.ok (catalog.metaOf name), facts) := rfl
  rw [ingestRecords, looked] at ingested
  split at ingested
  next => exact Or.inl ⟨_, (Prod.mk.inj ingested).1.symm, (Prod.mk.inj ingested).2.symm⟩
  next =>
    cases found : catalog.metaOf name with
    | none =>
      rw [found] at ingested
      exact Or.inl ⟨_, (Prod.mk.inj ingested).1.symm, (Prod.mk.inj ingested).2.symm⟩
    | some table =>
      rw [found] at ingested
      dsimp only at ingested
      rw [writeTo] at ingested
      dsimp only at ingested
      have onHouse : catalog.backendOf name = .clickHouse → catalog.HandsOn
          ((validateBatch table records).1.map (rowOf catalog table stamp clock.now)) := by
        intro engine
        refine handed engine table ?_
        rw [Catalog.metaOf, engine] at found
        exact found
      by_cases refused : ((validateBatch table records).1.isEmpty &&
          !(validateBatch table records).2.isEmpty) = true
      · rw [if_pos refused] at ingested
        obtain ⟨rfl, rfl⟩ := Prod.mk.inj ingested
        exact Or.inr ⟨⟨_, rfl⟩, .nil _⟩
      · rw [if_neg refused] at ingested
        split at ingested
        next error between written =>
          obtain ⟨rfl, rfl⟩ := Prod.mk.inj ingested
          rcases writeRecords_named spelled rfl found onHouse written with
            ⟨-, -, rfl⟩ | ⟨⟨counts, succeeded⟩, -⟩
          · exact Or.inl ⟨_, rfl, rfl⟩
          · cases succeeded
        next inserted updated between written =>
          obtain ⟨rfl, rfl⟩ := Prod.mk.inj ingested
          rcases writeRecords_named spelled rfl found onHouse written with
            ⟨error, failed, -⟩ | ⟨-, changed⟩
          · cases failed
          · exact Or.inr ⟨⟨_, rfl⟩, changed⟩

/-- The calls of a stream. -/
theorem streamChunks_named (spelled : catalog.Spelled name) {stamp : Stamp} {clock : Nat → Clock}
    {n : Nat} {chunks : List (List Json)}
    (handed : ∀ nth batch, chunks[nth]? = some batch →
      catalog.HandsOnBatch name stamp (clock (n + nth)) batch)
    {tally ended : Stream.Tally}
    (streamed : Stream.streamChunks catalog.crates.unicode (fun n => catalog.engines (clock n))
      (stamp.params name) n chunks tally facts = (ended, after)) :
    WrittenAs catalog name facts after := by
  induction chunks generalizing n tally facts with
  | nil =>
    rw [← (Prod.mk.inj streamed).2]
    exact .nil facts
  | cons chunk rest inductionHypothesis =>
    rw [Stream.streamChunks] at streamed
    have first : catalog.HandsOnBatch name stamp (clock n) chunk := handed 0 chunk rfl
    have others : ∀ nth batch, rest[nth]? = some batch →
        catalog.HandsOnBatch name stamp (clock (n + 1 + nth)) batch := by
      intro nth batch found
      rw [Nat.add_right_comm]
      exact handed (nth + 1) batch found
    split at streamed
    next result between ingested =>
      rcases ingestRecords_named spelled first ingested with ⟨error, failed, -⟩ | ⟨-, changed⟩
      · cases failed
      · exact changed.trans (inductionHypothesis others streamed)
    next error between ingested =>
      obtain ⟨-, rfl⟩ := Prod.mk.inj streamed
      rcases ingestRecords_named spelled first ingested with ⟨-, -, rfl⟩ | ⟨⟨result, succeeded⟩, -⟩
      · exact .nil _
      · cases succeeded

/-- A single call that fails changes nothing. -/
theorem ingestOnce_named (spelled : catalog.Spelled name) {stamp : Stamp} {clock : Clock}
    {records : List Json} (handed : catalog.HandsOnBatch name stamp clock records)
    {failure : Option ApiError}
    (ingested : ingestOnce catalog clock (stamp.params name) records facts = (failure, after)) :
    WrittenAs catalog name facts after ∧ (failure.isSome → after = facts) := by
  rw [ingestOnce] at ingested
  split at ingested
  next result between once =>
    obtain ⟨rfl, rfl⟩ := Prod.mk.inj ingested
    rcases ingestRecords_named spelled handed once with ⟨error, failed, -⟩ | ⟨-, changed⟩
    · cases failed
    · exact ⟨changed, fun failed => by cases failed⟩
  next error between once =>
    obtain ⟨rfl, rfl⟩ := Prod.mk.inj ingested
    rcases ingestRecords_named spelled handed once with ⟨-, -, rfl⟩ | ⟨⟨result, succeeded⟩, -⟩
    · exact ⟨.nil _, fun _ => rfl⟩
    · cases succeeded

/-- The records of a request come in chunks. -/
def Entry.isStream : Entry → Bool
  | stream _ _ => true
  | _ => false

/-- The batches that a request writes one after the other. -/
def Entry.batches : Entry → List (List Json)
  | stream _ chunks => chunks
  | typed _ records | file _ records | webhook records | sync _ records => [records]

/-- A request for a table that is spelled out, whose rows the client hands on, writes to the table
of exactly this name, under the names of its columns, and to no other; one that fails changes
nothing, but for the chunks of a stream that came before. -/
theorem request_named (spelled : catalog.Spelled name) {deployment : Deployment}
    {labels : List Str} {s : State} {clock : Nat → Clock} {stamp : Stamp} {entry : Entry}
    (handed : ∀ nth batch, entry.batches[nth]? = some batch →
      catalog.HandsOnBatch name stamp (clock nth) batch)
    {failure : Option ApiError}
    (performed : entry.perform catalog deployment labels s clock stamp name facts =
      (failure, after)) :
    WrittenAs catalog name facts after ∧
      (∀ other, other ≠ name →
        after.rows other = facts.rows other ∧ after.stored other = facts.stored other) ∧
      (failure.isSome → entry.isStream = false → after = facts) := by
  have settled : WrittenAs catalog name facts after ∧
      (failure.isSome → entry.isStream = false → after = facts) := by
    have unchanged {error : Option ApiError} (same : (error, facts) = (failure, after)) :
        WrittenAs catalog name facts after ∧
          (failure.isSome → entry.isStream = false → after = facts) := by
      obtain ⟨-, rfl⟩ := Prod.mk.inj same
      exact ⟨.nil _, fun _ _ => rfl⟩
    have single {records : List Json} (only : catalog.HandsOnBatch name stamp (clock 0) records)
        (once : ingestOnce catalog (clock 0) (stamp.params name) records facts =
          (failure, after)) : WrittenAs catalog name facts after ∧
          (failure.isSome → entry.isStream = false → after = facts) :=
      ⟨(ingestOnce_named spelled only once).1,
        fun failed _ => (ingestOnce_named spelled only once).2 failed⟩
    rw [Entry.perform] at performed
    split at performed
    next => exact unchanged performed
    next found passed =>
      cases entry with
      | typed identity records | file identity records =>
        rw [Entry.write] at performed
        split_ifs at performed
        · exact single (handed 0 records rfl) performed
        · exact unchanged performed
      | stream identity chunks =>
        rw [Entry.write] at performed
        split_ifs at performed
        · obtain ⟨-, same⟩ := Prod.mk.inj performed
          refine ⟨streamChunks_named spelled (fun nth batch found => ?_) (Prod.ext rfl same),
            fun _ other => by cases other⟩
          rw [Nat.zero_add]
          exact handed nth batch found
        · exact unchanged performed
      | webhook records | sync identity records => exact single (handed 0 records rfl) performed
  exact ⟨settled.1, fun other different => settled.1.others different, settled.2⟩

/-! ## Two names that are read alike -/

/-- Quotes by ticker. -/
def quoteTable : Table Str :=
  Engine.textTable [Engine.textColumn "ticker".str false false,
    Engine.textColumn "px".str true false] [["ticker".str]] (fun _ _ => none)

def lower : TableName := ("obs".str, "events".str)

def upper : TableName := ("obs".str, "Events".str)

/-- Postgres with two tables whose names differ in the case of a letter. -/
def namesakes : Catalog Str where
  crates := Crates.plain
  keywords := ⟨fun _ => false, fun _ _ => rfl⟩
  coercion := Engine.plainCoercion
  printer := JsonPrinter.plain
  backendOf _ := .postgres
  tables name := if name = lower || name = upper then some quoteTable else none
  naturalKey _ := ["ticker".str]
  houses _ := none
  takes _ _ := false
  execute _ _ := .error "UNKNOWN_TABLE".str
  key_columns name table found column member := by
    split_ifs at found
    obtain rfl := Option.some.inj found
    exact (List.subset_def.mp (by decide)) member
  execute_insert _ _ _ _ := rfl

/-- The role `writer` may write to one of them. -/
def mayWrite (name : TableName) : State where
  db :=
    { pgTables := fun other => if other = name then some ["ticker".str, "px".str] else none
      chTables := fun _ => none
      tableBackend := fun _ => none
      acl := [⟨"writer".str, name.1, name.2, true⟩]
      proposals := [] }
  resolveCache _ := none
  metaCache _ := none
  aclCache := none

def quote : Json := .object [("ticker".str, .string "ACME".str), ("px".str, .string "10".str)]

/-- A typed request with one quote, for a table that its caller may write to. -/
def postQuote (name : TableName) : Option ApiError × Facts Str :=
  (Entry.typed { sub := "ana".str, role := "writer".str } [quote]).perform namesakes
      ⟨Crates.plain, false⟩ [] (mayWrite name) (fun _ => ⟨"t".str, 0⟩)
      ⟨"ingress:ana".str, "ingress:ana".str, "run".str⟩ name ⟨fun _ => [], fun _ => []⟩

theorem lower_named : (postQuote lower).1 = none ∧
    WrittenAs namesakes lower ⟨fun _ => [], fun _ => []⟩ (postQuote lower).2 := by
  have columns : Spelling.Spelled namesakes.keywords quoteTable := by
    refine ⟨?_, ?_, ?_⟩
    · decide
    · decide
    · decide
  have spelled : namesakes.Spelled lower := by
    refine ⟨fun _ => ⟨by decide, fun read reads => ?_, fun table found => ?_⟩,
      fun house => by cases house⟩
    · have itself : Spelling.readTarget namesakes.keywords lower = some lower := by decide
      exact Or.inl (Option.some.inj (reads.symm.trans itself))
    · obtain rfl := Option.some.inj found
      exact columns
  have answered : (postQuote lower).1.isNone = true := by decide +kernel
  have performed : postQuote lower = ((postQuote lower).1, (postQuote lower).2) := rfl
  rw [postQuote] at performed
  have handed : ∀ (nth : Nat) (batch : List Json),
      (Entry.typed { sub := "ana".str, role := "writer".str } [quote]).batches[nth]? = some batch →
        namesakes.HandsOnBatch lower ⟨"ingress:ana".str, "ingress:ana".str, "run".str⟩
          ⟨"t".str, 0⟩ batch := by
    intro nth batch found house
    cases house
  exact ⟨Option.isNone_iff_eq_none.mp answered, (request_named spelled handed performed).1⟩

/-- A quote for the table with the capital letter is written to the other one. -/
theorem upper_elsewhere : (postQuote upper).1 = none ∧
    ((postQuote upper).2.rows lower).length = 1 ∧ (postQuote upper).2.rows upper = [] := by
  have ends : ((postQuote upper).1.isNone, ((postQuote upper).2.rows lower).length,
      ((postQuote upper).2.rows upper).length) = (true, 1, 0) := by decide +kernel
  obtain ⟨answered, rest⟩ := Prod.mk.inj ends
  obtain ⟨there, here⟩ := Prod.mk.inj rest
  exact ⟨Option.isNone_iff_eq_none.mp answered, there, List.length_eq_zero_iff.mp here⟩

end LumidPlatform.Ingest.Targets
