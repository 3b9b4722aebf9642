import LumidPlatform.Ingest.Gate
import LumidPlatform.Lib.Transitions

/-!
# Write authority over existing tables

The gate asks for the table under the names of the path, on the engine that the replica takes it to
be on; a proposal is made for the normalised names. A proposal for a table that exists comes about
exactly where the first finds nothing and the second is there: the two names differ, or the table
is not on that engine, be it by the registry or by what the replica has cached. In a run in which
that does not happen, an approval widens the authority over new tables only.
-/

namespace LumidPlatform.Ingest.WriteAuthority

open LumidPlatform.Ingest Transitions

variable {deployment : Deployment} {cluster : Cluster}

/-- A role gets a row for the table, or may write by a row by which it could not, or the
engine the table is recorded on is another. -/
def Widens (db db' : Db) (name : TableName) : Prop :=
  (∃ role, (db.granted role name = none ∧ db'.granted role name ≠ none) ∨
    (db.granted role name ≠ some true ∧ db'.granted role name = some true)) ∨
  db'.tableBackend name ≠ db.tableBackend name

/-- The proposal an action approves. -/
def approvedId : Action → Option Str
  | .approve _ id _ => some id
  | .adminApprove _ id _ _ => some id
  | _ => none

/-- What a step widens is the authority over the target of the proposal it approves, and
that was no table when the proposal was made. -/
def Narrow (db : Db) (action : Action) (db' : Db) : Prop :=
  ∀ name, Widens db db' name → ∃ p ∈ db.proposals,
    approvedId action = some p.proposalId ∧ p.target = name ∧ p.existed = false

/-- Where the normalised target of records exists, they find the table of their path as it is
spelled, on the engine that the replica asks, or come from a role that may not propose, or have
nothing to make a column of. -/
def plainTargets (deployment : Deployment) (s : State) : Action → Bool
  | .ingest identity name records _ _ =>
    match normIdent deployment.crates.unicode name.1, normIdent deployment.crates.unicode name.2 with
    | some schema, some table => !s.db.tableExists (schema, table) || visible deployment s name ||
        !(canPropose identity.role s).1 ||
          (collectColumns deployment.crates.unicode records).1.isEmpty
    | _, _ => true
  | _ => true

/-- The condition on what happens on a replica, with the caches that it has. -/
def plainEvent (cluster : Cluster) (fleet : Fleet) : Event → Bool
  | .acts replica action => plainTargets (cluster.deployment replica) (fleet.view replica) action
  | .restarts _ => true

/-! ## What is looked up -/

/-- A lookup answers with the engine that the table is routed to. -/
theorem resolve_fst (name : TableName) (s : State) : (resolve name s).1 = s.routed name := by
  rw [resolve, State.routed]
  cases s.resolveCache (cacheKey name) <;> rfl

/-- It leaves the cache of schemas alone. -/
theorem resolve_metaCache (name : TableName) (s : State) :
    (resolve name s).2.metaCache = s.metaCache := by
  rw [resolve]
  cases s.resolveCache (cacheKey name) <;> rfl

/-- A table of Postgres is known if its schema is cached or has columns in the database. -/
theorem pgTableMeta_isSome (name : TableName) (s : State) :
    (pgTableMeta name s).1.isSome = ((s.metaCache (cacheKey name)).isSome ||
      (s.db.pgTables name).any (fun columns => !columns.isEmpty)) := by
  rw [pgTableMeta]
  cases s.metaCache (cacheKey name) with
  | some columns => rfl
  | none =>
    rcases s.db.pgTables name with _ | _ | ⟨first, rest⟩
    · rfl
    · rfl
    · rfl

/-- A table is found exactly where it is visible. -/
theorem tableMeta_isSome (name : TableName) (s : State) :
    (tableMeta deployment name s).1.isSome = visible deployment s name := by
  have routed := resolve_fst name s
  have kept := resolve_metaCache name s
  have same := (resolve_acl name s).1
  have onPostgres : (pgTableMeta name (resolve name s).2).1.isSome =
      ((s.metaCache (cacheKey name)).isSome ||
        (s.db.pgTables name).any (fun columns => !columns.isEmpty)) := by
    rw [pgTableMeta_isSome, kept, same]
  rw [tableMeta, visible]
  split
  · rename_i s' answer
    rw [answer] at routed same onPostgres
    rw [← routed]
    split_ifs with configured both both
    · dsimp only at same
      rw [chTableMeta, same]
      cases s.db.chTables name with
      | none => rfl
      | some columns => cases columns <;> rfl
    · simp [configured] at both
    · simp [configured] at both
    · exact onPostgres
  · rename_i s' answer
    rw [answer] at routed onPostgres
    rw [← routed, if_neg (by simp)]
    exact onPostgres

/-- Reading the access list changes nothing in the database. -/
theorem cacheSnapshot_db (s : State) : (cacheSnapshot s).2.db = s.db := by
  rw [cacheSnapshot]
  split <;> rfl

/-- What is read depends on the rows and on the cached snapshot alone. -/
theorem cacheSnapshot_fst {s s' : State} (db : s'.db = s.db) (acl : s'.aclCache = s.aclCache) :
    (cacheSnapshot s').1 = (cacheSnapshot s).1 := by
  rw [cacheSnapshot, cacheSnapshot, db, acl]
  split <;> rfl

/-- Neither does a check of a role. -/
theorem checkCanWrite_db (unicode : Unicode) (role : Str) (name : TableName) (s : State) :
    (checkCanWrite unicode role name s).2.db = s.db := by
  rw [checkCanWrite]
  dsimp only
  split_ifs
  · exact cacheSnapshot_db s
  · exact cacheSnapshot_db s

/-- The gate only looks. -/
theorem gateTarget_db (identity : Identity) (name : TableName) (s : State) :
    (gateTarget deployment identity name s).2.db = s.db := by
  have first := (@tableMeta_acl deployment name s).1
  rw [gateTarget]
  split
  · rename_i columns s' found
    rw [found] at first
    split_ifs
    · exact first
    · have second := checkCanWrite_db deployment.crates.unicode identity.role name s'
      split
      · rename_i s'' checked
        rw [checked] at second
        exact second.trans first
      · rename_i error s'' checked
        rw [checked] at second
        exact second.trans first
  · rename_i s' found
    rw [found] at first
    have second : (canPropose identity.role s').2.db = s'.db := cacheSnapshot_db s'
    split
    · rename_i s'' may
      rw [may] at second
      exact second.trans first
    · rename_i s'' mayNot
      rw [mayNot] at second
      exact second.trans first

/-- The gate takes a target for a new table exactly where it is not visible and the caller may
propose. -/
theorem gateTarget_new (identity : Identity) (name : TableName) (s : State) :
    (gateTarget deployment identity name s).1 = .ok false ↔
      visible deployment s name = false ∧ (canPropose identity.role s).1 = true := by
  have seen := @tableMeta_isSome deployment name s
  obtain ⟨db, acl⟩ := @tableMeta_acl deployment name s
  rw [gateTarget]
  split
  · rename_i columns s' found
    rw [found] at seen
    rw [← seen]
    split_ifs
    · simp
    · split
      · simp
      · simp
  · rename_i s' found
    rw [found] at seen db acl
    have may : (canPropose identity.role s').1 = (canPropose identity.role s).1 := by
      rw [canPropose, canPropose]
      dsimp only
      rw [cacheSnapshot_fst db acl]
    rw [← seen, ← may]
    split
    · rename_i s'' granted
      simp [granted]
    · rename_i s'' refused
      simp [refused]

/-! ## What a step can do -/

/-- No rights change and no proposal is made. -/
structure Quiet (db db' : Db) : Prop where
  proposals : ∀ p ∈ db'.proposals, ∃ q ∈ db.proposals,
    q.target = p.target ∧ q.existed = p.existed
  acl : db'.acl = db.acl
  backend : db'.tableBackend = db.tableBackend

/-- A database that does not change is quiet. -/
theorem Quiet.refl (db : Db) : Quiet db db := ⟨fun p member => ⟨p, member, rfl, rfl⟩, rfl, rfl⟩

/-- The same, given as an equation. -/
theorem Quiet.of_eq {db db' : Db} (same : db' = db) : Quiet db db' := same ▸ .refl db

/-- What a step can do. -/
inductive Moves (deployment : Deployment) (s : State) (action : Action) (db' : Db) : Prop where
  | quiet (same : Quiet s.db db')
  | created (p : Proposal) (identity : Identity) (name : TableName) (records : List Json)
      (newId : Str) (ingested : ApiResult Json)
      (request : action = .ingest identity name records newId ingested)
      (hidden : visible deployment s name = false)
      (may : (canPropose identity.role s).1 = true)
      (usable : (collectColumns deployment.crates.unicode records).1.isEmpty = false)
      (schema : normIdent deployment.crates.unicode name.1 = some p.declaredSchema)
      (table : normIdent deployment.crates.unicode name.2 = some p.declaredTable)
      (existed : p.existed = s.db.tableExists p.target)
      (next : db' = { s.db with proposals := s.db.proposals ++ [p] })
  | approved (p : Proposal) (ddl : CreateTable) (chosen : BackendKind) (reviewer : Str)
      (inTables : p ∈ s.db.proposals) (approves : approvedId action = some p.proposalId)
      (schema : normIdent deployment.crates.unicode p.declaredSchema = some ddl.schema)
      (table : normIdent deployment.crates.unicode p.declaredTable = some ddl.table)
      (next : ∃ db, db.proposals = s.db.proposals ∧ db.acl = s.db.acl ∧
        db.tableBackend = s.db.tableBackend ∧
        db' = recordBackendAclStatus ddl p.proposerRole chosen p.proposalId reviewer db)
  | listed (admin : action.caller.any isAdmin = true)
      (proposals : db'.proposals = s.db.proposals)
      (backend : db'.tableBackend = s.db.tableBackend)

/-- A proposal that is made is for a normal name, and remembers whether there is a table of that
name. -/
theorem create_ok {db db' : Db} {schema table role sub newId : Str} {records : List Json}
    {answer : Json}
    (made : create deployment db schema table role sub records newId = .ok (answer, db')) :
    ∃ p : Proposal, normIdent deployment.crates.unicode schema = some p.declaredSchema ∧
      normIdent deployment.crates.unicode table = some p.declaredTable ∧
      p.existed = db.tableExists p.target ∧
      db' = { db with proposals := db.proposals ++ [p] } := by
  rw [create] at made
  dsimp only at made
  split at made
  · simp at made
  · simp at made
  · rename_i schemaN tableN schemaNormal tableNormal
    split_ifs at made
    obtain ⟨-, rfl⟩ := Prod.mk.inj (Except.ok.inj made)
    exact ⟨_, schemaNormal, tableNormal, rfl, rfl⟩

/-- Records become a proposal for normal names if there is something to make columns of. -/
theorem create_isOk {db : Db} {schema table role sub newId : Str} {records : List Json} :
    (∃ result, create deployment db schema table role sub records newId = .ok result) ↔
      (normIdent deployment.crates.unicode schema).isSome = true ∧
        (normIdent deployment.crates.unicode table).isSome = true ∧
        (collectColumns deployment.crates.unicode records).1.isEmpty = false := by
  rw [create]
  dsimp only
  split
  · rename_i noSchema
    simp [noSchema]
  · rename_i noTable
    simp [noTable]
  · rename_i schemaN tableN schemaNormal tableNormal
    rw [schemaNormal, tableNormal]
    split_ifs with none
    · simp [none]
    · simp [none]

/-- A post of records proposes a table where it finds none, and otherwise moves nothing. -/
theorem postTyped_moves (identity : Identity) (name : TableName) (records : List Json)
    (newId : Str) (ingested : ApiResult Json) (s : State) :
    Moves deployment s (.ingest identity name records newId ingested)
      (postTyped deployment identity name records newId ingested s).2.db := by
  have same := @gateTarget_db deployment identity name s
  have new := @gateTarget_new deployment identity name s
  rw [postTyped]
  split_ifs
  · exact .quiet (.refl s.db)
  · split
    · rename_i error looked passed
      rw [passed] at same
      exact .quiet (.of_eq same)
    · rename_i looked passed
      rw [passed] at same
      exact .quiet (.of_eq same)
    · rename_i looked passed
      rw [passed] at same new
      obtain ⟨hidden, may⟩ := new.mp rfl
      cases made : create deployment looked.db name.1 name.2 identity.role identity.sub records
          newId with
      | error error => exact .quiet (.of_eq same)
      | ok result =>
        obtain ⟨answer, db'⟩ := result
        obtain ⟨-, -, usable⟩ := create_isOk.mp ⟨_, made⟩
        obtain ⟨p, schema, table, existed, rfl⟩ := create_ok made
        dsimp only at same
        rw [same] at existed
        refine .created p identity name records newId ingested rfl hidden may usable schema table
          existed ?_
        rw [withDb, same]

/-- An update of pending proposals keeps their targets. -/
theorem updatePending_quiet {db : Db} {id : Str} {change : Proposal → Proposal}
    {proposals : List Proposal} (target : ∀ p, (change p).target = p.target)
    (existed : ∀ p, (change p).existed = p.existed)
    (updated : updatePending id change db.proposals = some proposals) :
    Quiet db { db with proposals } where
  proposals p member := by
    rw [updatePending] at updated
    split_ifs at updated
    obtain rfl := Option.some.inj updated
    obtain ⟨q, inTables, rfl⟩ := List.mem_map.mp member
    refine ⟨q, inTables, ?_⟩
    split_ifs
    · exact ⟨(target q).symm, (existed q).symm⟩
    · exact ⟨rfl, rfl⟩
  acl := rfl
  backend := rfl

/-- A counter changes columns and key of a proposal only. -/
theorem counter_quiet (id : Str) (columns : Json) (key : List Str)
    (refined : Option (JsonMap × List Str)) (s : State) :
    Quiet s.db (withDb (counter deployment s.db id columns key refined) s).2.db := by
  rw [counter]
  split
  · exact .refl s.db
  · dsimp only
    split
    · exact .refl s.db
    · rename_i proposals updated
      refine updatePending_quiet ?_ ?_ updated
      · exact fun _ => rfl
      · exact fun _ => rfl

/-- A rejection only closes it. -/
theorem reject_quiet (id reviewer : Str) (s : State) :
    Quiet s.db (withDb (reject s.db id reviewer) s).2.db := by
  rw [reject]
  split
  · exact .refl s.db
  · rename_i proposals updated
    refine updatePending_quiet ?_ ?_ updated
    · exact fun _ => rfl
    · exact fun _ => rfl

/-- A table is created under the normal form of the proposed name. -/
theorem buildCreateTable_ok {p : Proposal} {ddl : CreateTable}
    (built : buildCreateTable deployment.crates.unicode p = .ok ddl) :
    normIdent deployment.crates.unicode p.declaredSchema = some ddl.schema ∧
      normIdent deployment.crates.unicode p.declaredTable = some ddl.table := by
  rw [buildCreateTable] at built
  split at built
  · simp at built
  · simp at built
  · rename_i schemaN tableN schema table
    obtain ⟨columns, -, rest⟩ := ApiResult.bind_eq_ok.mp built
    obtain rfl := Except.ok.inj rest
    exact ⟨schema, table⟩

/-- An approval grants the proposed table to the role that proposed it, unless it fails before. -/
theorem approve_moves {action : Action} {id : Str} (approves : approvedId action = some id)
    (reviewer : Str) (override : Option BackendKind) (outage : Option Outage) (s : State) :
    Moves deployment s action (approve deployment id reviewer override outage s).2.db := by
  rw [approve]
  split
  · exact .quiet (.refl s.db)
  · rename_i p found
    have inTables := List.mem_of_find?_eq_some found
    have pending : isPending id p = true := List.find?_some found
    obtain rfl : p.proposalId = id := by
      rw [isPending, Bool.and_eq_true, beq_iff_eq] at pending
      exact pending.1
    dsimp only
    split_ifs
    · exact .quiet (.refl s.db)
    · cases built : buildCreateTable deployment.crates.unicode p with
      | error error => exact .quiet (.refl s.db)
      | ok ddl =>
        obtain ⟨schema, table⟩ := buildCreateTable_ok built
        dsimp only
        split_ifs
        · exact .quiet (.refl s.db)
        generalize override.getD (BackendKind.ofStrOrPg p.suggestedBackend) = chosen
        cases outage with
        | none =>
          cases chosen with
          | postgres =>
            exact .approved p ddl .postgres reviewer inTables approves schema table
              ⟨{ s.db with pgTables := createTable ddl s.db.pgTables }, rfl, rfl, rfl, rfl⟩
          | clickHouse =>
            exact .approved p ddl .clickHouse reviewer inTables approves schema table
              ⟨{ s.db with chTables := createTable ddl s.db.chTables }, rfl, rfl, rfl, rfl⟩
        | some outage =>
          cases outage with
          | creation => cases chosen <;> exact .quiet (.refl s.db)
          | bookkeeping =>
            cases chosen <;> exact .quiet ⟨fun q member => ⟨q, member, rfl, rfl⟩, rfl, rfl⟩

/-- A handler behind a check that does not pass changes nothing. -/
theorem behind_moves {action : Action} {check : ApiResult Unit}
    {handler : State → ApiResult Json × State} {s : State}
    (moves : check = .ok () → Moves deployment s action (handler s).2.db) :
    Moves deployment s action (behind check handler s).2.db := by
  cases checked : check with
  | error error => exact .quiet (.refl s.db)
  | ok passed => exact moves checked

/-- What is left to administrators is done by one. -/
theorem requireAdmin_ok {identity : Identity} (passed : requireAdmin identity = .ok ()) :
    isAdmin identity = true := by
  rw [requireAdmin] at passed
  split_ifs at passed with admin
  exact admin

/-- A revocation touches neither proposals nor engines. -/
theorem revokeAcl_snd (role : Str) (name : TableName) (s : State) :
    (revokeAcl role name s).2.db.proposals = s.db.proposals ∧
      (revokeAcl role name s).2.db.tableBackend = s.db.tableBackend := by
  rw [revokeAcl]
  dsimp only
  split_ifs
  · exact ⟨rfl, rfl⟩
  · exact ⟨rfl, rfl⟩

/-- What any action does, by kind of action. -/
theorem perform_moves (s : State) (action : Action) :
    Moves deployment s action (perform deployment s action).2.db := by
  cases action with
  | ingest identity name records newId ingested =>
    exact postTyped_moves identity name records newId ingested s
  | counter identity id columns key refined =>
    exact behind_moves (fun _ => .quiet (counter_quiet id columns key refined s))
  | approve identity id outage =>
    exact behind_moves (fun _ => approve_moves rfl identity.sub none outage s)
  | reject identity id =>
    exact behind_moves (fun _ => .quiet (reject_quiet id identity.sub s))
  | adminApprove identity id backend outage =>
    apply behind_moves
    intro _
    rw [adminApprove]
    split
    · exact .quiet (.refl s.db)
    · exact approve_moves rfl identity.sub _ outage s
  | adminReject identity id =>
    exact behind_moves (fun _ => .quiet (reject_quiet id identity.sub s))
  | grantAcl identity row =>
    exact behind_moves (fun passed => .listed (requireAdmin_ok passed) rfl rfl)
  | revokeAcl identity role name =>
    apply behind_moves
    intro passed
    obtain ⟨proposals, backend⟩ := revokeAcl_snd role name s
    exact .listed (requireAdmin_ok passed) proposals backend
  | refreshSchemas identity => exact behind_moves (fun _ => .quiet (.refl s.db))
  | refreshAcl identity => exact behind_moves (fun _ => .quiet (.refl s.db))
  | ddl pgTables chTables =>
    exact .quiet ⟨fun p member => ⟨p, member, rfl, rfl⟩, rfl, rfl⟩
  | evictBackend key => exact .quiet (.refl s.db)
  | evictMeta key => exact .quiet (.refl s.db)
  | expireAcl => exact .quiet (.refl s.db)

/-- A step that is taken is what its handler does. -/
theorem step_eq {s s' : State} {action : Action} (taken : step deployment s action = some s') :
    s' = (perform deployment s action).2 := by
  unfold step at taken
  split at taken
  · split_ifs at taken
    exact (Option.some.inj taken).symm
  · exact (Option.some.inj taken).symm

/-- What a step can do to the database. The cases are those of the actions. -/
theorem step_moves {s s' : State} {action : Action} (taken : step deployment s action = some s') :
    Moves deployment s action s'.db := by
  rw [step_eq taken]
  exact perform_moves s action

/-- Records whose target is not plain become a proposal for a table that exists. -/
theorem existing_of_not_plain {s s' : State} {action : Action}
    (taken : step deployment s action = some s')
    (astray : plainTargets deployment s action = false) :
    ∃ p ∈ s'.db.proposals, p.existed = true := by
  cases action with
  | ingest identity name records newId ingested =>
    rw [plainTargets] at astray
    split at astray
    case h_2 => cases astray
    rename_i schemaN tableN schema table
    simp only [Bool.or_eq_false_iff, Bool.not_eq_false'] at astray
    obtain ⟨⟨⟨there, hidden⟩, may⟩, usable⟩ := astray
    have some : records.isEmpty = false := by
      cases records with
      | nil => cases usable
      | cons first rest => rfl
    have passed := (gateTarget_new identity name s).mpr ⟨hidden, may⟩
    have same := @gateTarget_db deployment identity name s
    rw [step_eq taken, perform, postTyped, some, if_neg Bool.false_ne_true]
    generalize gated : gateTarget deployment identity name s = gate at passed same
    obtain ⟨found, looked⟩ := gate
    obtain rfl : found = .ok false := passed
    obtain ⟨result, made⟩ : ∃ result, create deployment looked.db name.1 name.2 identity.role
        identity.sub records newId = .ok result :=
      create_isOk.mpr ⟨by rw [schema]; rfl, by rw [table]; rfl, usable⟩
    obtain ⟨p, schema', table', existed, next⟩ := create_ok made
    rw [schema, Option.some.injEq] at schema'
    rw [table, Option.some.injEq] at table'
    refine ⟨p, ?_, ?_⟩
    · simp only [made, withDb, next]
      exact List.mem_append_right _ (List.mem_singleton_self p)
    · dsimp only at same
      rw [existed, Proposal.target, ← schema', ← table', same, there]
  | _ => cases astray

/-- What is done on a replica is done to the database it shares. -/
theorem fleet_moves {fleet fleet' : Fleet} {replica : Nat} {action : Action}
    (taken : Fleet.step cluster fleet (.acts replica action) = some fleet') :
    Moves (cluster.deployment replica) (fleet.view replica) action fleet'.db := by
  rw [Fleet.step] at taken
  split_ifs at taken
  obtain ⟨s', stepped, rfl⟩ := Option.map_eq_some_iff.mp taken
  exact step_moves stepped

/-! ## The invariant -/

/-- Both parts of a table's name are in normal form. -/
def NormalName (deployment : Deployment) (name : TableName) : Prop :=
  Normal deployment.crates.unicode name.1 ∧ Normal deployment.crates.unicode name.2

/-- No other pair of path segments has the cache key of a normal name. -/
theorem cacheKey_inj {raw name : TableName} (normal : NormalName deployment name)
    (same : cacheKey name = cacheKey raw) : raw = name := by
  have parts := (List.append_cons_inj_of_notMem normal.1.no_dot normal.2.no_dot).mp same
  exact Prod.ext parts.1.symm parts.2.2.symm

/-- No proposal was made for a table. -/
def AllNew (db : Db) : Prop := ∀ p ∈ db.proposals, p.existed = false

/-- And the names of proposals are in normal form. -/
structure Inv (unicode : Unicode) (db : Db) : Prop where
  absent : AllNew db
  normal : ∀ p ∈ db.proposals, Normal unicode p.declaredSchema ∧ Normal unicode p.declaredTable

/-- A database without proposals satisfies the invariant. -/
theorem inv_boot (unicode : Unicode) (db : Db) : Inv unicode { db with proposals := [] } where
  absent _ member := by cases member
  normal _ member := by cases member

/-- What is kept of the proposals keeps the invariant. -/
theorem Inv.of_kept {unicode : Unicode} {db db' : Db} (inv : Inv unicode db)
    (kept : ∀ p ∈ db'.proposals, ∃ q ∈ db.proposals,
      q.target = p.target ∧ q.existed = p.existed) : Inv unicode db' where
  absent p member := by
    obtain ⟨q, inTables, -, existed⟩ := kept p member
    rw [← existed]
    exact inv.absent q inTables
  normal p member := by
    obtain ⟨q, inTables, target, -⟩ := kept p member
    obtain ⟨schema, table⟩ := Prod.mk.inj target
    rw [← schema, ← table]
    exact inv.normal q inTables

/-- A proposal made under the condition is for no table. -/
theorem not_existed {s : State} {p : Proposal} {identity : Identity} {name : TableName}
    {records : List Json} {newId : Str} {ingested : ApiResult Json}
    (plain : plainTargets deployment s (.ingest identity name records newId ingested) = true)
    (hidden : visible deployment s name = false) (may : (canPropose identity.role s).1 = true)
    (usable : (collectColumns deployment.crates.unicode records).1.isEmpty = false)
    (schema : normIdent deployment.crates.unicode name.1 = some p.declaredSchema)
    (table : normIdent deployment.crates.unicode name.2 = some p.declaredTable)
    (existed : p.existed = s.db.tableExists p.target) : p.existed = false := by
  simp only [plainTargets, schema, table, hidden, may, usable, Bool.not_true, Bool.or_false,
    Bool.not_eq_true'] at plain
  rw [existed, Proposal.target, plain]

/-- An approved proposal creates the table it names. -/
theorem Inv.target_eq {db : Db} (inv : Inv deployment.crates.unicode db) {p : Proposal}
    (inTables : p ∈ db.proposals) {ddl : CreateTable}
    (schema : normIdent deployment.crates.unicode p.declaredSchema = some ddl.schema)
    (table : normIdent deployment.crates.unicode p.declaredTable = some ddl.table) :
    p.target = (ddl.schema, ddl.table) := by
  obtain ⟨schemaNormal, tableNormal⟩ := inv.normal p inTables
  exact Prod.ext (Option.some.inj (schemaNormal.symm.trans schema))
    (Option.some.inj (tableNormal.symm.trans table))

/-- Under the condition no move breaks it. -/
theorem inv_moves {s : State} {db' : Db} {action : Action}
    (inv : Inv deployment.crates.unicode s.db)
    (plain : plainTargets deployment s action = true) (moves : Moves deployment s action db') :
    Inv deployment.crates.unicode db' := by
  cases moves with
  | quiet same => exact inv.of_kept same.proposals
  | created p identity name records newId ingested request hidden may usable schema table existed
      next =>
    subst request
    have fresh := not_existed plain hidden may usable schema table existed
    subst next
    refine ⟨fun q member => ?_, fun q member => ?_⟩
    · rcases List.mem_append.mp member with old | new
      · exact inv.absent q old
      · rw [List.mem_singleton.mp new]
        exact fresh
    · rcases List.mem_append.mp member with old | new
      · exact inv.normal q old
      · rw [List.mem_singleton.mp new]
        exact ⟨normal_of_normIdent schema, normal_of_normIdent table⟩
  | approved p ddl chosen reviewer inTables approves schema table next =>
    obtain ⟨db, proposals, acl, backend, rfl⟩ := next
    refine inv.of_kept (fun q member => ?_)
    rw [recordBackendAclStatus, proposals] at member
    obtain ⟨r, old, rfl⟩ := List.mem_map.mp member
    refine ⟨r, old, ?_⟩
    split_ifs
    · exact ⟨rfl, rfl⟩
    · exact ⟨rfl, rfl⟩
  | listed admin proposals backend =>
    exact inv.of_kept (fun q member => ⟨q, proposals ▸ member, rfl, rfl⟩)

/-- Steps of the replicas keep the invariant exactly where their targets are plain. -/
theorem inv_step {fleet fleet' : Fleet} {event : Event}
    (inv : Inv cluster.crates.unicode fleet.db)
    (taken : Fleet.step cluster fleet event = some fleet') :
    (plainEvent cluster fleet event = true → Inv cluster.crates.unicode fleet'.db) ∧
      (AllNew fleet'.db → plainEvent cluster fleet event = true) := by
  cases event with
  | restarts replica =>
    obtain rfl := Option.some.inj taken
    exact ⟨fun _ => inv, fun _ => rfl⟩
  | acts replica action =>
    refine ⟨fun plain => ?_, fun new => ?_⟩
    · have here : Inv (cluster.deployment replica).crates.unicode (fleet.view replica).db := inv
      exact inv_moves here plain (fleet_moves taken)
    · by_contra astray
      rw [Bool.not_eq_true] at astray
      rw [Fleet.step] at taken
      split_ifs at taken
      obtain ⟨s', stepped, rfl⟩ := Option.map_eq_some_iff.mp taken
      obtain ⟨p, member, existed⟩ := existing_of_not_plain stepped astray
      rw [new p member] at existed
      cases existed

/-- In a run no proposal is ever made for a table that exists exactly if all targets are plain. -/
theorem allNew_iff_plain {db : Db} {fleet : Fleet} {events : List Event}
    (ran : run (Fleet.step cluster) (Fleet.boot db) events = some fleet) :
    (∀ before, before <+: events → ∀ middle,
      run (Fleet.step cluster) (Fleet.boot db) before = some middle → AllNew middle.db) ↔
      (run (guarded (plainEvent cluster) (Fleet.step cluster)) (Fleet.boot db) events).isSome :=
  guarded_observed (fun _ (inv : Inv cluster.crates.unicode _) => inv.absent)
    (fun _ _ _ inv taken => inv_step inv taken) (inv_boot _ db) ran

/-! ## Widening -/

/-- A row of the access list says nothing about other tables. -/
theorem granted_upsertAcl {db db' : Db} {row : AclRow} {name : TableName} (role : Str)
    (acl : db'.acl = upsertAcl row db.acl) (other : name ≠ (row.targetSchema, row.targetTable)) :
    db'.granted role name = db.granted role name := by
  have apart (entry : AclRow) (same : entry.targetSchema = row.targetSchema ∧
      entry.targetTable = row.targetTable) : (entry.role == role &&
        entry.targetSchema == name.1 && entry.targetTable == name.2) = false := by
    by_contra match_
    simp only [Bool.not_eq_false, Bool.and_eq_true, beq_iff_eq] at match_
    exact other (Prod.ext (match_.1.2.symm.trans same.1) (match_.2.symm.trans same.2))
  rw [Db.granted, Db.granted, acl, upsertAcl]
  dsimp only
  split_ifs
  · congr 1
    induction db.acl with
    | nil => rfl
    | cons first rest ih =>
      rw [List.map_cons, List.find?_cons, List.find?_cons, ih]
      split_ifs with sameKey
      · simp only [Bool.and_eq_true, beq_iff_eq] at sameKey
        rw [apart row ⟨rfl, rfl⟩, apart first ⟨sameKey.1.2, sameKey.2⟩]
      · rfl
  · rw [List.find?_append, List.find?_singleton, apart row ⟨rfl, rfl⟩]
    simp

/-- Where the access list and the engines are the same, no access is wider. -/
theorem widens_of_same {db db' : Db} (acl : db'.acl = db.acl)
    (backend : db'.tableBackend = db.tableBackend) (name : TableName) : ¬Widens db db' name := by
  rintro (⟨role, (⟨had, has⟩ | ⟨had, has⟩)⟩ | moved)
  · rw [Db.granted, acl] at has
    exact has had
  · rw [Db.granted, acl] at has
    exact had has
  · exact moved (by rw [backend])

/-- A step of someone who is no administrator widens the authority over the target of a
proposal at most. -/
theorem narrow_of_moves {s : State} {db' : Db} {action : Action}
    (inv : Inv deployment.crates.unicode s.db)
    (plebeian : action.caller.any isAdmin = false) (moves : Moves deployment s action db') :
    Narrow s.db action db' := by
  intro name widens
  cases moves with
  | quiet same => exact absurd widens (widens_of_same same.acl same.backend name)
  | created p identity raw records newId ingested request hidden may usable schema table existed
      next =>
    subst next
    exact absurd widens (widens_of_same rfl rfl name)
  | listed admin proposals backend => rw [plebeian] at admin; cases admin
  | approved p ddl chosen reviewer inTables approves schema table next =>
    have target := inv.target_eq inTables schema table
    obtain ⟨db, proposals, acl, backend, rfl⟩ := next
    refine ⟨p, inTables, approves, ?_, inv.absent p inTables⟩
    by_contra other
    rw [target] at other
    have sameRows (role : Str) : (recordBackendAclStatus ddl p.proposerRole chosen p.proposalId
        reviewer db).granted role name = s.db.granted role name := by
      have rows : (recordBackendAclStatus ddl p.proposerRole chosen p.proposalId reviewer db).acl =
          upsertAcl ⟨p.proposerRole, ddl.schema, ddl.table, true⟩ s.db.acl := by
        rw [recordBackendAclStatus, acl]
      exact granted_upsertAcl role rows (fun same => other same.symm)
    rcases widens with ⟨role, (⟨had, has⟩ | ⟨had, has⟩)⟩ | moved
    · exact has ((sameRows role).trans had)
    · exact had ((sameRows role).symm.trans has)
    · apply moved
      rw [recordBackendAclStatus]
      exact (Function.update_of_ne (fun same => other same.symm) _ _).trans (by rw [backend])

/-- In a run of the replicas in which records come for existing tables only where they are found,
nobody but an administrator widens the authority over a table that was there when it was
proposed. -/
theorem authority_narrow {db : Db} {fleet fleet' : Fleet} {replica : Nat} {action : Action}
    (reached : Reaches (guarded (plainEvent cluster) (Fleet.step cluster)) (Fleet.boot db) fleet)
    (taken : Fleet.step cluster fleet (.acts replica action) = some fleet')
    (plebeian : action.caller.any isAdmin = false) : Narrow fleet.db action fleet'.db := by
  let kept (fleet : Fleet) : Prop := Inv cluster.crates.unicode fleet.db
  have inv : kept fleet := reached.guarded_invariant (inv_boot _ db)
    (fun _ _ _ inv plain taken => (inv_step inv taken).1 plain)
  have here : Inv (cluster.deployment replica).crates.unicode (fleet.view replica).db := inv
  exact narrow_of_moves here plebeian (fleet_moves taken)

/-! ## Two approvals -/

/-- A deployment on Postgres alone. -/
def postgresOnly : Deployment := ⟨Crates.plain, false⟩

/-- Two replicas on Postgres alone. -/
def twoReplicas : Cluster := ⟨Crates.plain, 2, fun _ => false⟩

/-- A proposer who may not write to any table there is. -/
def bob : Identity := { sub := "bob".str, role := "producer".str }

/-- A table that the example proposes. -/
def trades : TableName := ("core".str, "trades".str)

/-- One table, on which nobody has rights. -/
def tradesDb : Db where
  pgTables := Function.update (fun _ => none) trades (some ["id".str])
  chTables _ := none
  tableBackend _ := none
  acl := [⟨"producer".str, "raw".str, "*".str, true⟩]
  proposals := []

/-- Bob sends one record for a table. -/
def bobSends (name : TableName) : Action :=
  .ingest bob name [.object [("id".str, .ofNat 1)]] "p1".str (.ok .null)

/-- Its approval by an administrator. -/
def bobApproves : Action := .approve bob "p1".str none

/-- Bob proposes a new table on one replica and approves it on the other. -/
theorem quotes_narrow : ∃ fleet next,
    Reaches (guarded (plainEvent twoReplicas) (Fleet.step twoReplicas)) (Fleet.boot tradesDb)
        fleet ∧
      Fleet.step twoReplicas fleet (.acts 1 bobApproves) = some next ∧
      next.db.granted "producer".str ("core".str, "quotes".str) = some true ∧
      Narrow fleet.db bobApproves next.db := by
  have ran : ((Transitions.run (guarded (plainEvent twoReplicas) (Fleet.step twoReplicas))
      (Fleet.boot tradesDb) [.acts 0 (bobSends ("core".str, "quotes".str))]).bind (fun fleet =>
        (Fleet.step twoReplicas fleet (.acts 1 bobApproves)).map (fun next =>
          next.db.granted "producer".str ("core".str, "quotes".str)))) = some (some true) := by
    decide +kernel
  obtain ⟨fleet, reached, stepped⟩ := Option.bind_eq_some_iff.mp ran
  obtain ⟨next, taken, granted⟩ := Option.map_eq_some_iff.mp stepped
  exact ⟨fleet, next, ⟨_, reached⟩, taken, granted, authority_narrow ⟨_, reached⟩ taken (by decide)⟩

/-- Bob spells the name of the table with a capital, and may write to it then. -/
theorem trades_widened : ∃ fleet next,
    Reaches (Fleet.step twoReplicas) (Fleet.boot tradesDb) fleet ∧
    Fleet.step twoReplicas fleet (.acts 0 bobApproves) = some next ∧
    bobApproves.caller.any isAdmin = false ∧
      fleet.db.granted "producer".str trades = none ∧
      next.db.granted "producer".str trades = some true ∧
      (∀ p ∈ fleet.db.proposals, p.target = trades ∧ p.existed = true) ∧
      ¬Narrow fleet.db bobApproves next.db := by
  have ran : ((Transitions.run (Fleet.step twoReplicas) (Fleet.boot tradesDb)
      [.acts 0 (bobSends ("core".str, "Trades".str))]).bind (fun fleet =>
        (Fleet.step twoReplicas fleet (.acts 0 bobApproves)).map (fun next =>
          (fleet.db.granted "producer".str trades, next.db.granted "producer".str trades,
            fleet.db.proposals.all (fun p => p.target == trades && p.existed))))) =
      some (none, some true, true) := by decide +kernel
  obtain ⟨fleet, reached, stepped⟩ := Option.bind_eq_some_iff.mp ran
  obtain ⟨next, taken, observed⟩ := Option.map_eq_some_iff.mp stepped
  simp only [Prod.mk.injEq] at observed
  obtain ⟨before, after, made⟩ := observed
  have existing : ∀ p ∈ fleet.db.proposals, p.target = trades ∧ p.existed = true := by
    simpa using made
  refine ⟨fleet, next, ⟨_, reached⟩, taken, by decide, before, after, existing, fun narrow => ?_⟩
  have widens : Widens fleet.db next.db trades :=
    Or.inl ⟨"producer".str, Or.inl ⟨before, by rw [after]; exact Option.some_ne_none _⟩⟩
  obtain ⟨p, member, -, -, absent⟩ := narrow trades widens
  rw [(existing p member).2] at absent
  cases absent

end LumidPlatform.Ingest.WriteAuthority
