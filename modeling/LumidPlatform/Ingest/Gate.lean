import LumidPlatform.Ingest.Proposals

/-!
# Requests of the write plane

Records go to a table that exists, if the caller may write to it, and become a proposal
otherwise, if the caller may propose. Whether a table exists is asked of the engine it is
recorded on, for the path as it was sent. Every action takes the whole state one step on. The
replicas of a deployment work on one database, each with caches of its own.
-/

namespace LumidPlatform.Ingest

/-! ## Looking tables up -/

/-- `Registry::resolve`. -/
def resolve (name : TableName) (s : State) : BackendKind × State :=
  match s.resolveCache (cacheKey name) with
  | some kind => (kind, s)
  | none => (s.db.kindOf name, noteBackendCached name (s.db.kindOf name) s)

/-- `introspect::table_meta`: the writable columns of a Postgres table, if it has any. -/
def pgTableMeta (name : TableName) (s : State) : Option (List Str) × State :=
  match s.metaCache (cacheKey name) with
  | some columns => (some columns, s)
  | none =>
    match s.db.pgTables name with
    | none => (none, s)
    | some [] => (none, s)
    | some columns => (some columns,
        { s with metaCache := Function.update s.metaCache (cacheKey name) (some columns) })

/-- `ClickHouseBackend::table_meta`. -/
def chTableMeta (name : TableName) (s : State) : Option (List Str) :=
  (s.db.chTables name).filter (fun columns => !columns.isEmpty)

/-- The metadata of a table, from the engine the registry names for it. -/
def tableMeta (deployment : Deployment) (name : TableName) (s : State) :
    Option (List Str) × State :=
  match resolve name s with
  | (.clickHouse, s) =>
    if deployment.clickhouseConfigured then (chTableMeta name s, s) else pgTableMeta name s
  | (.postgres, s) => pgTableMeta name s

section

variable {deployment : Deployment}

theorem pgTableMeta_acl (name : TableName) (s : State) :
    (pgTableMeta name s).2.db = s.db ∧ (pgTableMeta name s).2.aclCache = s.aclCache := by
  rw [pgTableMeta]
  repeat' split
  all_goals exact ⟨rfl, rfl⟩

theorem resolve_acl (name : TableName) (s : State) :
    (resolve name s).2.db = s.db ∧ (resolve name s).2.aclCache = s.aclCache := by
  rw [resolve]
  split <;> exact ⟨rfl, rfl⟩

/-- Asking for a table leaves the access list as it is. -/
theorem tableMeta_acl (name : TableName) (s : State) :
    (tableMeta deployment name s).2.db = s.db ∧
      (tableMeta deployment name s).2.aclCache = s.aclCache := by
  have resolved := resolve_acl name s
  rw [tableMeta]
  split
  · rename_i s' found
    rw [found] at resolved
    split_ifs
    · exact resolved
    · exact ⟨(pgTableMeta_acl name s').1.trans resolved.1,
        (pgTableMeta_acl name s').2.trans resolved.2⟩
  · rename_i s' found
    rw [found] at resolved
    exact ⟨(pgTableMeta_acl name s').1.trans resolved.1,
      (pgTableMeta_acl name s').2.trans resolved.2⟩

end

/-- The engine that a process takes a table to be on. -/
def State.routed (s : State) (name : TableName) : BackendKind :=
  (s.resolveCache (cacheKey name)).getD (s.db.kindOf name)

/-- The engine that is asked for a table has it with columns to write, or Postgres had it when its
metadata was cached. -/
def visible (deployment : Deployment) (s : State) (name : TableName) : Bool :=
  if s.routed name = .clickHouse && deployment.clickhouseConfigured then
    (s.db.chTables name).any (fun columns => !columns.isEmpty)
  else
    (s.metaCache (cacheKey name)).isSome ||
      (s.db.pgTables name).any (fun columns => !columns.isEmpty)

/-! ## The access list -/

/-- `cache_snapshot`: an empty list is read again every time. -/
def cacheSnapshot (s : State) : List AclRow × State :=
  match s.aclCache with
  | some (row :: rows) => (row :: rows, s)
  | _ => (s.db.acl, { s with aclCache := some s.db.acl })

def rowAllows (rows : List AclRow) (role schema table : Str) : Bool :=
  rows.any (fun row =>
    row.role == role && row.targetSchema == schema && row.targetTable == table && row.canWrite)

/-- `check_can_write`. -/
def checkCanWrite (unicode : Unicode) (role : Str) (name : TableName) (s : State) :
    ApiResult Unit × State :=
  let (rows, s) := cacheSnapshot s
  if rowAllows rows role name.1 name.2 || rowAllows rows role name.1 "*".str ||
      rowAllows rows role "*".str "*".str
  then (.ok (), s)
  else (.error (.forbidden ("role ".str ++ unicode.debug role ++ " not authorized to write ".str ++
    name.1 ++ '.' :: name.2)), s)

/-- `can_propose`. -/
def canPropose (role : Str) (s : State) : Bool × State :=
  let (rows, s) := cacheSnapshot s
  (rows.any (fun row => row.role == role && row.canWrite), s)

/-- `scope_grants_write`. -/
def scopeGrantsWrite (scopes : List Str) (name : TableName) : Bool :=
  let capGrants : List (Str × TableName) := [
    ("lqt:universe:refresh".str, ("mailbox".str, "lqt_inbox".str)),
    ("lqt:strategy".str, ("mailbox".str, "lqt_inbox".str)),
    ("lqt:trading".str, ("mailbox".str, "lqt_inbox".str))]
  capGrants.any (fun grant => grant.2 == name && scopes.contains grant.1)

/-! ## Handlers -/

/-- `gate_target`: whether the target exists, for a caller who may go on. -/
def gateTarget (deployment : Deployment) (identity : Identity) (name : TableName) (s : State) :
    ApiResult Bool × State :=
  let unicode := deployment.crates.unicode
  match tableMeta deployment name s with
  | (some _, s) =>
    if scopeGrantsWrite identity.scopes name then (.ok true, s)
    else
      match checkCanWrite unicode identity.role name s with
      | (.ok (), s) => (.ok true, s)
      | (.error error, s) => (.error error, s)
  | (none, s) =>
    match canPropose identity.role s with
    | (true, s) => (.ok false, s)
    | (false, s) => (.error (.forbidden ("role ".str ++ unicode.debug identity.role ++
        " has no ingress allowlist entries; cannot write or propose new tables.".str)), s)

/-- The answer of a handler, with the state it leaves. -/
def withDb (result : ApiResult (Json × Db)) (s : State) : ApiResult Json × State :=
  match result with
  | .ok (answer, db) => (.ok answer, { s with db })
  | .error error => (.error error, s)

/-- `post_typed`. What writing the records to an existing table answers is an argument. -/
def postTyped (deployment : Deployment) (identity : Identity) (name : TableName)
    (records : List Json) (newId : Str) (ingested : ApiResult Json) (s : State) :
    ApiResult Json × State :=
  if records.isEmpty then (.error (.badRequest "`records` must be non-empty".str), s)
  else
    match gateTarget deployment identity name s with
    | (.error error, s) => (.error error, s)
    | (.ok true, s) => (ingested, s)
    | (.ok false, s) =>
      withDb (create deployment s.db name.1 name.2 identity.role identity.sub records newId) s

def isAdmin (identity : Identity) : Bool :=
  identity.role == "super_admin".str || identity.role == "local".str

def requireAdmin (identity : Identity) : ApiResult Unit :=
  if isAdmin identity then .ok ()
  else .error (.forbidden "super_admin or local-key required".str)

/-- `is_proposer`. -/
def isProposer (db : Db) (id sub : Str) : Bool :=
  db.proposals.any (fun p => p.proposalId == id && p.proposerSub == sub)

def allowProposerOrAdmin (db : Db) (identity : Identity) (id : Str) : ApiResult Unit :=
  if isAdmin identity || isProposer db id identity.sub then .ok ()
  else .error (.forbidden "not the proposer (or an admin) of this proposal".str)

/-- A handler behind a check of the caller. -/
def behind (check : ApiResult Unit) (handler : State → ApiResult Json × State) (s : State) :
    ApiResult Json × State :=
  match check with
  | .error error => (.error error, s)
  | .ok () => handler s

/-- The backend an administrator names in an approval. -/
def overrideKind (unicode : Unicode) : Option Str → ApiResult (Option BackendKind)
  | none => .ok none
  | some name =>
    let want := Text.toAsciiLowercase (Text.trim name)
    if want = "postgres".str then .ok (some .postgres)
    else if want = "clickhouse".str then .ok (some .clickHouse)
    else .error (.badRequest ("backend must be 'postgres' or 'clickhouse' (got ".str ++
      unicode.debug name ++ ")".str))

/-- `approve_proposal`, behind the check for an administrator. -/
def adminApprove (deployment : Deployment) (id reviewer : Str) (backend : Option Str)
    (outage : Option Outage) (s : State) : ApiResult Json × State :=
  match overrideKind deployment.crates.unicode backend with
  | .error error => (.error error, s)
  | .ok override => approve deployment id reviewer override outage s

/-- `grant_acl`, behind the check for an administrator. -/
def grantAcl (row : AclRow) (s : State) : ApiResult Json × State :=
  (.ok (.object [("role".str, .string row.role), ("target_schema".str, .string row.targetSchema),
      ("target_table".str, .string row.targetTable), ("can_write".str, .bool row.canWrite),
      ("_status".str, .string "applied".str)]),
    { s with db := { s.db with acl := upsertAcl row s.db.acl }, aclCache := none })

/-- `revoke_acl`, behind the check for an administrator. -/
def revokeAcl (role : Str) (name : TableName) (s : State) : ApiResult Json × State :=
  let hit (row : AclRow) : Bool :=
    row.role == role && row.targetSchema == name.1 && row.targetTable == name.2
  let s' : State :=
    { s with db := { s.db with acl := s.db.acl.filter (fun row => !hit row) }, aclCache := none }
  if s.db.acl.any hit then (.ok (.object [("deleted".str, .ofNat (s.db.acl.countP hit))]), s')
  else (.error (.notFound "no ACL row matched".str), s')

/-- `refresh_schemas`, behind the check for an administrator. -/
def refreshSchemas (s : State) : ApiResult Json × State :=
  (.ok (.object [("status".str, .string "cleared".str)]),
    { s with resolveCache := fun _ => none, metaCache := fun _ => none })

/-! ## Actions -/

/-- A request, or something that happens beside the requests. -/
inductive Action where
  | ingest (identity : Identity) (name : TableName) (records : List Json) (newId : Str)
      (ingested : ApiResult Json)
  | counter (identity : Identity) (id : Str) (columns : Json) (key : List Str)
      (refined : Option (JsonMap × List Str))
  | approve (identity : Identity) (id : Str) (outage : Option Outage)
  | reject (identity : Identity) (id : Str)
  | adminApprove (identity : Identity) (id : Str) (backend : Option Str) (outage : Option Outage)
  | adminReject (identity : Identity) (id : Str)
  | grantAcl (identity : Identity) (row : AclRow)
  | revokeAcl (identity : Identity) (role : Str) (name : TableName)
  | refreshSchemas (identity : Identity)
  | refreshAcl (identity : Identity)
  /-- Others create and drop tables. -/
  | ddl (pgTables chTables : TableName → Option (List Str))
  /-- A cache entry is evicted or runs out. -/
  | evictBackend (key : Str)
  | evictMeta (key : Str)
  | expireAcl

/-- The caller of a request. -/
def Action.caller : Action → Option Identity
  | ingest identity _ _ _ _ => some identity
  | counter identity _ _ _ _ => some identity
  | approve identity _ _ => some identity
  | reject identity _ => some identity
  | adminApprove identity _ _ _ => some identity
  | adminReject identity _ => some identity
  | grantAcl identity _ => some identity
  | revokeAcl identity _ _ => some identity
  | refreshSchemas identity => some identity
  | refreshAcl identity => some identity
  | ddl _ _ => none
  | evictBackend _ => none
  | evictMeta _ => none
  | expireAcl => none

/-- What an action answers, with the state it leaves. -/
def perform (deployment : Deployment) (s : State) : Action → ApiResult Json × State
  | .ingest identity name records newId ingested =>
    postTyped deployment identity name records newId ingested s
  | .counter identity id columns key refined =>
    behind (allowProposerOrAdmin s.db identity id)
      (fun s => withDb (counter deployment s.db id columns key refined) s) s
  | .approve identity id outage =>
    behind (allowProposerOrAdmin s.db identity id)
      (approve deployment id identity.sub none outage) s
  | .reject identity id =>
    behind (allowProposerOrAdmin s.db identity id)
      (fun s => withDb (reject s.db id identity.sub) s) s
  | .adminApprove identity id backend outage =>
    behind (requireAdmin identity) (adminApprove deployment id identity.sub backend outage) s
  | .adminReject identity id =>
    behind (requireAdmin identity) (fun s => withDb (reject s.db id identity.sub) s) s
  | .grantAcl identity row => behind (requireAdmin identity) (grantAcl row) s
  | .revokeAcl identity role name => behind (requireAdmin identity) (revokeAcl role name) s
  | .refreshSchemas identity => behind (requireAdmin identity) refreshSchemas s
  | .refreshAcl identity =>
    behind (requireAdmin identity)
      (fun s => (.ok (.object [("status".str, .string "cleared".str)]), { s with aclCache := none }))
      s
  | .ddl pgTables chTables => (.ok .null, { s with db := { s.db with pgTables, chTables } })
  | .evictBackend key =>
    (.ok .null, { s with resolveCache := Function.update s.resolveCache key none })
  | .evictMeta key => (.ok .null, { s with metaCache := Function.update s.metaCache key none })
  | .expireAcl => (.ok .null, { s with aclCache := none })

/-- One step. The id of a new proposal is one that no proposal has. -/
def step (deployment : Deployment) (s : State) (action : Action) : Option State :=
  match action with
  | .ingest _ _ _ newId _ =>
    if s.db.proposals.any (fun p => p.proposalId == newId) then none
    else some (perform deployment s action).2
  | _ => some (perform deployment s action).2

/-! ## Replicas -/

/-- The replicas, counted from zero, and those that have ClickHouse. -/
structure Cluster where
  crates : Crates
  replicas : Nat
  clickhouseConfigured : Nat → Bool

/-- `Registry::get`. -/
def Cluster.get (cluster : Cluster) (replica : Nat) (kind : BackendKind) : BackendKind :=
  if kind = .clickHouse && !cluster.clickhouseConfigured replica then .postgres else kind

/-- A replica, as the requests of one process see it. -/
def Cluster.deployment (cluster : Cluster) (replica : Nat) : Deployment :=
  ⟨cluster.crates, cluster.clickhouseConfigured replica⟩

/-- The caches of a replica: resolved backends, metadata of Postgres tables, and the rows of the
access list. -/
structure Caches where
  resolveCache : Str → Option BackendKind
  metaCache : Str → Option (List Str)
  aclCache : Option (List AclRow)

def Caches.empty : Caches := ⟨fun _ => none, fun _ => none, none⟩

/-- One database, with the caches of every replica on it. -/
structure Fleet where
  db : Db
  caches : Nat → Caches

namespace Fleet

variable (fleet : Fleet)

/-- The replicas have just started on a database without proposals. -/
def boot (db : Db) : Fleet := ⟨{ db with proposals := [] }, fun _ => .empty⟩

/-- What a replica sees. -/
def view (replica : Nat) : State :=
  ⟨fleet.db, (fleet.caches replica).resolveCache, (fleet.caches replica).metaCache,
    (fleet.caches replica).aclCache⟩

/-- What a replica leaves. -/
def leave (replica : Nat) (s : State) : Fleet :=
  ⟨s.db, Function.update fleet.caches replica ⟨s.resolveCache, s.metaCache, s.aclCache⟩⟩

end Fleet

/-- What happens on a replica. -/
inductive Event where
  | acts (replica : Nat) (action : Action)
  | restarts (replica : Nat)

/-- One step of one replica. -/
def Fleet.step (cluster : Cluster) (fleet : Fleet) : Event → Option Fleet
  | .acts replica action =>
    if replica < cluster.replicas then
      (Ingest.step (cluster.deployment replica) (fleet.view replica) action).map
        (fleet.leave replica)
    else none
  | .restarts replica =>
    some { fleet with caches := Function.update fleet.caches replica .empty }

end LumidPlatform.Ingest
