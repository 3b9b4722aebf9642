import LumidPlatform.Auth
import LumidPlatform.Error
import LumidPlatform.Ingest.Idents

/-!
# Ingress proposals

Records for a table that does not exist become a proposal; its proposer negotiates the
schema and may approve it, which creates the table and lets the proposer's role write to
it. The state is that of the database, as far as these requests read or write it, and of
the caches of the process.
-/

namespace LumidPlatform.Ingest

/-- Schema and table. -/
abbrev TableName := Str × Str

/-- A row of `provenance.ingress_acl`. -/
structure AclRow where
  role : Str
  targetSchema : Str
  targetTable : Str
  canWrite : Bool
  deriving DecidableEq

inductive Status where
  | pending
  | applied
  | rejected
  deriving DecidableEq

/-- A row of `provenance.ingress_proposals`. Whether the target was a table when the row was
made is kept beside it; nothing is decided by it. -/
structure Proposal where
  proposalId : Str
  declaredSchema : Str
  declaredTable : Str
  proposerSub : Str
  proposerRole : Str
  inferredSchema : JsonMap
  inferredKey : List Str
  suggestedBackend : Str
  status : Status
  appliedTable : Option Str
  reviewerSub : Option Str
  existed : Bool

/-- The table a proposal is for. -/
def Proposal.target (p : Proposal) : TableName := (p.declaredSchema, p.declaredTable)

/-- Both engines and the provenance tables. A table is there with its writable columns. -/
structure Db where
  pgTables : TableName → Option (List Str)
  chTables : TableName → Option (List Str)
  /-- `provenance.table_backend`. -/
  tableBackend : TableName → Option Str
  acl : List AclRow
  proposals : List Proposal

/-- The database and the caches: resolved backends, metadata of Postgres tables, and the
rows of the access list. -/
structure State where
  db : Db
  resolveCache : Str → Option BackendKind
  metaCache : Str → Option (List Str)
  aclCache : Option (List AclRow)

/-- What does not change while the process runs. -/
structure Deployment where
  crates : Crates
  clickhouseConfigured : Bool

/-- The process has just started on a database without proposals. -/
def boot (db : Db) : State := ⟨{ db with proposals := [] }, fun _ => none, fun _ => none, none⟩

namespace Db

variable (db : Db)

/-- The table exists on one of the engines. -/
def tableExists (name : TableName) : Bool :=
  (db.pgTables name).isSome || (db.chTables name).isSome

/-- The engine a table is recorded on, Postgres without a row. -/
def kindOf (name : TableName) : BackendKind :=
  match db.tableBackend name with
  | some backend => BackendKind.ofStrOrPg backend
  | none => .postgres

/-- The tables of an engine. -/
def tablesOn : BackendKind → TableName → Option (List Str)
  | .postgres => db.pgTables
  | .clickHouse => db.chTables

/-- Whether a role has a row for a table, and may write by it. -/
def granted (role : Str) (name : TableName) : Option Bool :=
  (db.acl.find? (fun row =>
    row.role == role && row.targetSchema == name.1 && row.targetTable == name.2)).map
      AclRow.canWrite

end Db

/-- `INSERT … ON CONFLICT DO UPDATE SET can_write`. -/
def upsertAcl (row : AclRow) (rows : List AclRow) : List AclRow :=
  let sameKey (other : AclRow) : Bool := other.role == row.role &&
    other.targetSchema == row.targetSchema && other.targetTable == row.targetTable
  if rows.any sameKey then rows.map (fun other => if sameKey other then row else other)
  else rows ++ [row]

/-! ## Making and countering a proposal -/

/-- `create`. The id is the random one of the new row. -/
def create (deployment : Deployment) (db : Db) (schema table role sub : Str) (records : List Json)
    (newId : Str) : ApiResult (Json × Db) :=
  let unicode := deployment.crates.unicode
  match normIdent unicode schema, normIdent unicode table with
  | none, _ => .error (.badRequest ("invalid schema ".str ++ unicode.debug schema))
  | some _, none => .error (.badRequest ("invalid table ".str ++ unicode.debug table))
  | some schemaN, some tableN =>
    let (columns, skipped) := collectColumns unicode records
    if columns.isEmpty then
      .error (.badRequest "no usable columns inferred from records".str)
    else
      let inferred : JsonMap := columns.map (fun column => (column.1, .string (inferType column.2)))
      let key := inferNaturalKey (columns.map Prod.fst)
      let suggested := (suggestBackend key).asStr
      let row : Proposal := {
        proposalId := newId
        declaredSchema := schemaN
        declaredTable := tableN
        proposerSub := sub
        proposerRole := role
        inferredSchema := inferred
        inferredKey := key
        suggestedBackend := suggested
        status := .pending
        appliedTable := none
        reviewerSub := none
        existed := db.tableExists (schemaN, tableN) }
      .ok (.object [("status".str, .string "proposed".str), ("proposal_id".str, .string newId),
          ("target".str, .string (schemaN ++ '.' :: tableN)),
          ("suggested_columns".str, .object inferred),
          ("suggested_key".str, .array (key.map .string)),
          ("skipped_keys".str, .array (skipped.map .string)),
          ("suggested_backend".str, .string suggested)],
        { db with proposals := db.proposals ++ [row] })

/-- Whether a row is the pending proposal of an id. -/
def isPending (id : Str) (p : Proposal) : Bool := p.proposalId == id && p.status == .pending

/-- An update of the pending proposal of an id; `none` where there is none. -/
def updatePending (id : Str) (change : Proposal → Proposal) (proposals : List Proposal) :
    Option (List Proposal) :=
  if proposals.any (isPending id) then
    some (proposals.map (fun p => if isPending id p then change p else p))
  else none

def noPending : ApiError := .notFound "no pending proposal with that id".str

/-- `counter`. What the language model makes of the proposal, if it is asked, is an
argument. -/
def counter (deployment : Deployment) (db : Db) (id : Str) (columns : Json) (key : List Str)
    (refined : Option (JsonMap × List Str)) : ApiResult (Json × Db) :=
  match validate deployment.crates.unicode columns key with
  | .error text => .error (.badRequest text)
  | .ok builder =>
    let current := refined.getD builder
    match updatePending id
      (fun p => { p with inferredSchema := current.1, inferredKey := current.2 }) db.proposals with
    | none => .error noPending
    | some proposals =>
      .ok (.object [("status".str, .string "countered".str), ("proposal_id".str, .string id),
          ("refined_by".str, .string (if refined.isSome then "rules+ai".str else "rules".str)),
          ("current_columns".str, .object current.1),
          ("current_key".str, .array (current.2.map .string))],
        { db with proposals })

/-! ## Deciding a proposal -/

/-- `reject`. -/
def reject (db : Db) (id reviewer : Str) : ApiResult (Json × Db) :=
  match updatePending id
    (fun p => { p with status := .rejected, reviewerSub := some reviewer }) db.proposals with
  | none => .error noPending
  | some proposals =>
    .ok (.object [("status".str, .string "rejected".str), ("proposal_id".str, .string id)],
      { db with proposals })

/-- A `CREATE TABLE IF NOT EXISTS`, before it is printed: the writable columns with their
types, and the primary key. -/
structure CreateTable where
  schema : Str
  table : Str
  columns : List (Str × Str)
  primaryKey : List Str

/-- `build_create_table_ddl`. Without a key the table gets an identity column instead. -/
def buildCreateTable (unicode : Unicode) (p : Proposal) : ApiResult CreateTable := do
  match normIdent unicode p.declaredSchema, normIdent unicode p.declaredTable with
  | none, _ => .error (.badRequest "bad schema".str)
  | some _, none => .error (.badRequest "bad table".str)
  | some schemaN, some tableN =>
    let columns ← p.inferredSchema.mapM (fun entry =>
      match normIdent unicode entry.1 with
      | none => .error (.badRequest ("bad column ".str ++ unicode.debug entry.1))
      | some c =>
        let ty := entry.2.asStr?.getD "text".str
        .ok (c, if allowedTypes.contains ty then ty else "text".str))
    let key := (p.inferredKey.filterMap (normIdent unicode)).filter
      (fun k => (JsonMap.get p.inferredSchema k).isSome)
    .ok {
      schema := schemaN
      table := tableN
      columns := columns ++ [("source".str, "text".str), ("source_endpoint".str, "text".str),
        ("source_run_id".str, "uuid".str), ("ingest_ts".str, "timestamptz".str),
        ("raw".str, "jsonb".str)]
      primaryKey := if key.isEmpty then ["id".str] else key ++ ["source".str] }

/-- The columns that Postgres has in every table. -/
def systemColumns : List Str :=
  ["tableoid".str, "xmin".str, "cmin".str, "xmax".str, "cmax".str, "ctid".str]

/-- The columns of a statement; on Postgres an identity column stands in for a key. -/
def CreateTable.names (ddl : CreateTable) : BackendKind → List Str
  | .postgres => (if ddl.primaryKey = ["id".str] then ["id".str] else []) ++
      ddl.columns.map Prod.fst
  | .clickHouse => ddl.columns.map Prod.fst

/-- What an engine asks of a new table: distinct columns and distinct columns of the key. Postgres
also has columns of its own, and bounds for both numbers. -/
def CreateTable.wellFormed (ddl : CreateTable) (kind : BackendKind) : Bool :=
  decide (ddl.names kind).Nodup && decide ddl.primaryKey.Nodup && (kind == .clickHouse ||
    (ddl.primaryKey.all (ddl.names kind).contains &&
      (ddl.names kind).all (fun name => !systemColumns.contains name) &&
        ddl.primaryKey.length ≤ 32 && (ddl.names kind).length ≤ 1600))

/-- An engine takes a `CREATE SCHEMA` and a `CREATE TABLE`, both `IF NOT EXISTS`: of a table that
is there nothing is asked, but Postgres keeps the schemas of a prefix to itself. -/
def creatable (kind : BackendKind) (ddl : CreateTable) (there : Bool) : Bool :=
  !(kind == .postgres && "pg_".str.isPrefixOf ddl.schema) && (there || ddl.wellFormed kind)

/-- The columns of a table after a `CREATE TABLE IF NOT EXISTS` that is taken. -/
def createTable (ddl : CreateTable) (tables : TableName → Option (List Str)) :
    TableName → Option (List Str) :=
  if (tables (ddl.schema, ddl.table)).isSome then tables
  else Function.update tables (ddl.schema, ddl.table) (some (ddl.columns.map Prod.fst))

/-- `record_backend_acl_status`. -/
def recordBackendAclStatus (ddl : CreateTable) (role : Str) (backend : BackendKind)
    (id reviewer : Str) (db : Db) : Db :=
  { db with
    tableBackend := Function.update db.tableBackend (ddl.schema, ddl.table) (some backend.asStr)
    acl := upsertAcl ⟨role, ddl.schema, ddl.table, true⟩ db.acl
    proposals := db.proposals.map (fun p =>
      if p.proposalId = id then
        { p with
          status := .applied
          appliedTable := some (ddl.schema ++ '.' :: ddl.table)
          reviewerSub := some reviewer }
      else p) }

/-- Where the databases stop answering during an approval. -/
inductive Outage where
  | creation
  | bookkeeping
  deriving DecidableEq

/-- The key of a table in the caches. -/
def cacheKey (name : TableName) : Str := name.1 ++ '.' :: name.2

/-- `note_backend_cached`. -/
def noteBackendCached (name : TableName) (kind : BackendKind) (s : State) : State :=
  { s with resolveCache := Function.update s.resolveCache (cacheKey name) (some kind) }

def outageError : ApiError := .internal "the database does not answer".str

/-- An engine refused to create a table. -/
def refusedError : BackendKind → ApiError
  | .postgres => .internal "create table".str
  | .clickHouse => .internal "clickhouse create table".str

/-- What is left after the table was created, or was to be, on an engine. -/
def applied (ddl : CreateTable) (p : Proposal) (chosen : BackendKind) (reviewer : Str)
    (outage : Option Outage) (s : State) : ApiResult Unit × State :=
  match chosen, outage with
  | _, some .creation => (.error outageError, s)
  | .clickHouse, some .bookkeeping =>
    (.error outageError, { s with db := { s.db with chTables := createTable ddl s.db.chTables } })
  | .postgres, some .bookkeeping => (.error outageError, s)
  | .clickHouse, none =>
    (.ok (), noteBackendCached (ddl.schema, ddl.table) .clickHouse
      { s with
        db := recordBackendAclStatus ddl p.proposerRole .clickHouse p.proposalId reviewer
          { s.db with chTables := createTable ddl s.db.chTables } })
  | .postgres, none =>
    (.ok (), noteBackendCached (ddl.schema, ddl.table) .postgres
      { s with
        db := recordBackendAclStatus ddl p.proposerRole .postgres p.proposalId reviewer
          { s.db with pgTables := createTable ddl s.db.pgTables } })

/-- `approve`. On ClickHouse the table is created first and stays when the rest fails; on
Postgres all is one transaction. -/
def approve (deployment : Deployment) (id reviewer : Str) (override : Option BackendKind)
    (outage : Option Outage) (s : State) : ApiResult Json × State :=
  match s.db.proposals.find? (isPending id) with
  | none => (.error noPending, s)
  | some p =>
    let chosen := override.getD (BackendKind.ofStrOrPg p.suggestedBackend)
    if chosen = .clickHouse && !deployment.clickhouseConfigured then
      (.error (.unavailable ("ClickHouse backend is not configured on this deployment ".str ++
        "(set LUMID_CLICKHOUSE_URL); cannot approve onto ClickHouse".str)), s)
    else
      match buildCreateTable deployment.crates.unicode p with
      | .error error => (.error error, s)
      | .ok ddl =>
        if !creatable chosen ddl (s.db.tablesOn chosen (ddl.schema, ddl.table)).isSome then
          (.error (refusedError chosen), s)
        else
          match applied ddl p chosen reviewer outage s with
          | (.error error, s) => (.error error, s)
          | (.ok (), s) =>
            (.ok (.object [("status".str, .string "applied".str),
                ("table".str, .string (ddl.schema ++ '.' :: ddl.table)),
                ("granted_role".str, .string p.proposerRole),
                ("backend".str, .string chosen.asStr)]),
              { s with aclCache := none })

end LumidPlatform.Ingest
