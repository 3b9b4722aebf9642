import LumidPlatform.Ingest.WriteAuthority

/-!
# Backend routing on several replicas

Every replica keeps the engine of a table in a cache of its own, without expiry, and Postgres for
a table that has none. An approval writes the engine of its table to the database and then to
the cache of the replica it runs on. Lookups of other requests, whose three steps may lie apart,
go on meanwhile.
-/

namespace LumidPlatform.Ingest.Replicas

open Transitions
open WriteAuthority (NormalName cacheKey_inj buildCreateTable_ok)

/-- How far `Registry::resolve` has come. -/
inductive Phase where
  | asked
  | missed
  | read (kind : BackendKind)
  deriving DecidableEq

/-- A request for a table. When a decision on the table stood as it began, and has not been
replaced since, it is due there; nothing is decided by that. -/
structure Request where
  replica : Nat
  name : TableName
  phase : Phase
  due : Option BackendKind

/-- An approval that has committed and is still to note the engine on its replica. -/
structure Approval where
  replica : Nat
  name : TableName
  chosen : BackendKind

/-- The engine a request was routed to, and whether it found no table there. -/
structure Answer where
  name : TableName
  due : Option BackendKind
  routed : BackendKind
  isNew : Bool

/-- A decision stands from the return of its approval to the commit of another one for the
same table. What stands, and the answers so far, decide nothing. -/
structure World where
  db : Db
  caches : Nat → Str → Option BackendKind
  running : Nat → Option Request
  approvals : Nat → Option Approval
  stands : TableName → Option BackendKind
  answered : List Answer

/-- The replicas have just started. -/
def start (db : Db) : World where
  db := db
  caches _ _ := none
  running _ := none
  approvals _ := none
  stands _ := none
  answered := []

/-- What can happen next, on any replica: the steps of a request, of an approval, and of what drops
entries. -/
inductive Label where
  | begin (id replica : Nat) (name : TableName)
  /-- The cache of the replica is asked. -/
  | look (id : Nat)
  /-- The row of `provenance.table_backend` is read. -/
  | read (id : Nat)
  /-- What was read is cached. -/
  | insert (id : Nat)
  /-- A request fails or is given up. -/
  | abandon (id : Nat)
  /-- An approval creates its table on ClickHouse. -/
  | create (p : Proposal)
  /-- The transaction of an approval commits. -/
  | commit (id replica : Nat) (p : Proposal) (chosen : BackendKind) (reviewer : Str)
  /-- `note_backend_cached`, with which the approval returns. -/
  | note (id : Nat)
  /-- An approval is given up after its commit. -/
  | drop (id : Nat)
  /-- Entries are evicted, or all by `refresh_cache`. -/
  | forget (replica : Nat) (gone : Str → Bool)

/-- `table_meta` finds the table. -/
def tableThere (db : Db) (kind : BackendKind) (name : TableName) : Bool :=
  match kind with
  | .postgres => (db.pgTables name).any (fun columns => !columns.isEmpty)
  | .clickHouse => (db.chTables name).any (fun columns => !columns.isEmpty)

namespace World

variable (cluster : Cluster) (w : World)

/-- A replica puts an engine into its cache. -/
def cache (replica : Nat) (name : TableName) (kind : BackendKind) : World :=
  { w with
    caches := Function.update w.caches replica
      (Function.update (w.caches replica) (cacheKey name) (some kind)) }

/-- A replica gives entries up. -/
def forget (replica : Nat) (gone : Str → Bool) : World :=
  { w with
    caches := Function.update w.caches replica
      (fun key => if gone key then none else w.caches replica key) }

/-- A request goes on, or is over. -/
def put (id : Nat) (request : Option Request) : World :=
  { w with running := Function.update w.running id request }

/-- `gate_target` goes on with the engine that was resolved. -/
def answer (id : Nat) (request : Request) (kind : BackendKind) : World :=
  let routed := cluster.get request.replica kind
  { w.put id none with
    answered :=
      ⟨request.name, request.due, routed, !tableThere w.db routed request.name⟩ :: w.answered }

/-- The engine of a table is written, and another decision on it stands no longer. -/
def decide (name : TableName) (chosen : BackendKind) (db : Db) : World :=
  let replaced (other : TableName) (due : Option BackendKind) : Option BackendKind :=
    if other = name && due != some chosen then none else due
  { w with
    db
    running := fun id =>
      (w.running id).map (fun request => { request with due := replaced request.name request.due })
    stands := fun other => replaced other (w.stands other) }

/-- An approval returns. -/
def settle (id : Nat) (approval : Approval) : World :=
  let noted := w.cache approval.replica approval.name approval.chosen
  { noted with
    approvals := Function.update w.approvals id none
    stands :=
      if w.db.kindOf approval.name = approval.chosen then
        Function.update w.stands approval.name (some approval.chosen)
      else w.stands }

/-- The commit of an approval. On Postgres it creates the table, on ClickHouse the table is
already there. -/
def commit (id replica : Nat) (p : Proposal) (ddl : CreateTable) (chosen : BackendKind)
    (reviewer : Str) : World :=
  let name := (ddl.schema, ddl.table)
  let created : Db := match chosen with
    | .postgres => { w.db with pgTables := createTable ddl w.db.pgTables }
    | .clickHouse => w.db
  { w.decide name chosen
      (recordBackendAclStatus ddl p.proposerRole chosen p.proposalId reviewer created) with
    approvals := Function.update w.approvals id (some ⟨replica, name, chosen⟩) }

end World

/-- One step of a replica. A statement that its engine refuses is not taken. -/
def step (cluster : Cluster) (w : World) : Label → Option World
  | .begin id replica name =>
    if (w.running id).isNone && replica < cluster.replicas then
      some (w.put id (some ⟨replica, name, .asked, w.stands name⟩))
    else none
  | .look id =>
    match w.running id with
    | some request =>
      if request.phase = .asked then
        match w.caches request.replica (cacheKey request.name) with
        | some kind => some (w.answer cluster id request kind)
        | none => some (w.put id (some { request with phase := .missed }))
      else none
    | none => none
  | .read id =>
    match w.running id with
    | some request =>
      if request.phase = .missed then
        some (w.put id (some { request with phase := .read (w.db.kindOf request.name) }))
      else none
    | none => none
  | .insert id =>
    match w.running id with
    | some ⟨replica, name, .read kind, due⟩ =>
      some ((w.cache replica name kind).answer cluster id ⟨replica, name, .read kind, due⟩ kind)
    | _ => none
  | .abandon id => some (w.put id none)
  | .create p =>
    match buildCreateTable cluster.crates.unicode p with
    | .ok ddl =>
      if creatable .clickHouse ddl (w.db.chTables (ddl.schema, ddl.table)).isSome then
        some { w with db := { w.db with chTables := createTable ddl w.db.chTables } }
      else none
    | .error _ => none
  | .commit id replica p chosen reviewer =>
    match buildCreateTable cluster.crates.unicode p with
    | .ok ddl =>
      if (w.approvals id).isNone && replica < cluster.replicas && (chosen = .postgres ||
          (cluster.clickhouseConfigured replica &&
            (w.db.chTables (ddl.schema, ddl.table)).isSome)) && (chosen = .clickHouse ||
          creatable .postgres ddl (w.db.pgTables (ddl.schema, ddl.table)).isSome) then
        some (w.commit id replica p ddl chosen reviewer)
      else none
    | .error _ => none
  | .note id => (w.approvals id).map (w.settle id)
  | .drop id => some { w with approvals := Function.update w.approvals id none }
  | .forget replica gone => some (w.forget replica gone)

/-! ## What is to hold -/

/-- Where a request that began now, and went on alone, would be routed. -/
def World.routeNow (cluster : Cluster) (w : World) (replica : Nat) (name : TableName) :
    BackendKind :=
  cluster.get replica ((w.caches replica (cacheKey name)).getD (w.db.kindOf name))

/-- Every replica routes by the decisions that stand. -/
def UpToDate (cluster : Cluster) (w : World) : Prop :=
  ∀ name chosen, w.stands name = some chosen → ∀ replica, replica < cluster.replicas →
    w.routeNow cluster replica name = chosen

/-- A request that was due at an engine was routed there, and a table on ClickHouse was found. -/
def Answer.Fresh (answer : Answer) : Prop :=
  ∀ chosen, answer.due = some chosen →
    answer.routed = chosen ∧ (chosen = .clickHouse → answer.isNew = false)

/-- A lookup caches what it has read only while the row still says so, or no decision stands. An
approval returns while its row stands and every other replica has nothing else for the table in
its cache, or while no decision stands that it would overrule. -/
def keepsFresh (cluster : Cluster) (w : World) : Label → Bool
  | .insert id =>
    match w.running id with
    | some ⟨replica, name, .read kind, _⟩ =>
      (w.stands name).isNone || cluster.get replica kind == w.db.kindOf name
    | _ => true
  | .note id =>
    match w.approvals id with
    | some approval =>
      if w.db.kindOf approval.name = approval.chosen then
        (List.range cluster.replicas).all (fun replica =>
          cluster.get replica (if replica = approval.replica then approval.chosen
            else (w.caches replica (cacheKey approval.name)).getD approval.chosen) ==
              approval.chosen)
      else (w.stands approval.name).isNone
    | none => true
  | _ => true

/-! ## What the steps write -/

/-- The engine that a replica falls back to is its own choice too. -/
theorem get_get (cluster : Cluster) (replica : Nat) (kind : BackendKind) :
    cluster.get replica (cluster.get replica kind) = cluster.get replica kind := by
  unfold Cluster.get
  split_ifs <;> simp_all

/-- A replica chooses the engine that it is asked for, unless it lacks it. -/
theorem get_configured {cluster : Cluster} {replica : Nat} {kind : BackendKind}
    (house : kind = .clickHouse → cluster.clickhouseConfigured replica = true) :
    cluster.get replica kind = kind := by
  cases kind with
  | postgres => rfl
  | clickHouse =>
    rw [Cluster.get, house rfl]
    rfl

/-- The row of the approved table names the chosen engine, and the other rows are as before. -/
theorem kindOf_recorded (ddl : CreateTable) (role : Str) (chosen : BackendKind)
    (id reviewer : Str) (db : Db) (name : TableName) :
    (recordBackendAclStatus ddl role chosen id reviewer db).kindOf name =
      if name = (ddl.schema, ddl.table) then chosen else db.kindOf name := by
  by_cases same : name = (ddl.schema, ddl.table)
  · rw [if_pos same, Db.kindOf, recordBackendAclStatus, same]
    simp [BackendKind.ofStrOrPg_asStr]
  · rw [if_neg same, Db.kindOf, Db.kindOf, recordBackendAclStatus]
    simp [same]

/-- The tables that approvals create have names in normal form, and columns. -/
theorem buildCreateTable_made {cluster : Cluster} {p : Proposal} {ddl : CreateTable}
    (built : buildCreateTable cluster.crates.unicode p = .ok ddl) :
    NormalName (cluster.deployment 0) (ddl.schema, ddl.table) ∧ ddl.columns ≠ [] := by
  have names := @buildCreateTable_ok (cluster.deployment 0) p ddl built
  refine ⟨⟨normal_of_normIdent names.1, normal_of_normIdent names.2⟩, ?_⟩
  rw [buildCreateTable] at built
  split at built
  · cases built
  · cases built
  · obtain ⟨columns, -, rest⟩ := ApiResult.bind_eq_ok.mp built
    obtain rfl := Except.ok.inj rest
    simp

/-- Creating a table leaves the others. -/
theorem createTable_keeps {ddl : CreateTable} {tables : TableName → Option (List Str)}
    {name : TableName} {columns : List Str} (there : tables name = some columns) :
    createTable ddl tables name = some columns := by
  rw [createTable]
  split_ifs with exists'
  · exact there
  · have other : name ≠ (ddl.schema, ddl.table) := by
      rintro rfl
      exact exists' (by rw [there]; rfl)
    rw [Function.update_of_ne other, there]

/-- A table that is created has columns. -/
theorem createTable_columned {ddl : CreateTable} {tables : TableName → Option (List Str)}
    (made : ddl.columns ≠ []) (columned : ∀ name, tables name ≠ some []) (name : TableName) :
    createTable ddl tables name ≠ some [] := by
  rw [createTable]
  split_ifs
  · exact columned name
  · by_cases same : name = (ddl.schema, ddl.table)
    · rw [same, Function.update_self]
      simpa using made
    · rw [Function.update_of_ne same]
      exact columned name

/-- The decisions that stand are in the table of engines, and requests are due at them; what is
on ClickHouse is there. -/
structure Tracked (cluster : Cluster) (w : World) : Prop where
  stands : ∀ name chosen, w.stands name = some chosen → w.db.kindOf name = chosen ∧
    NormalName (cluster.deployment 0) name ∧
    (chosen = .clickHouse → (w.db.chTables name).isSome = true)
  running : ∀ id request, w.running id = some request → request.replica < cluster.replicas ∧
    ∀ chosen, request.due = some chosen → w.stands request.name = some chosen ∧
      ∀ kind, request.phase = .read kind → kind = chosen
  approvals : ∀ id approval, w.approvals id = some approval →
    approval.replica < cluster.replicas ∧ NormalName (cluster.deployment 0) approval.name ∧
    (approval.chosen = .clickHouse → cluster.clickhouseConfigured approval.replica = true ∧
      (w.db.chTables approval.name).isSome = true)
  columned : ∀ name, w.db.chTables name ≠ some []

/-- At the start nothing runs. -/
theorem tracked_start (cluster : Cluster) {db : Db} (columned : ∀ name, db.chTables name ≠ some []) :
    Tracked cluster (start db) where
  stands _ _ found := by cases found
  running _ _ found := by cases found
  approvals _ _ found := by cases found
  columned := columned

/-- A request that goes on as it should. -/
theorem Tracked.put {cluster : Cluster} {w : World} (tracked : Tracked cluster w) (id : Nat)
    {request : Option Request}
    (good : ∀ r, request = some r → r.replica < cluster.replicas ∧
      ∀ chosen, r.due = some chosen → w.stands r.name = some chosen ∧
        ∀ kind, r.phase = .read kind → kind = chosen) : Tracked cluster (w.put id request) where
  stands := tracked.stands
  running other r found := by
    by_cases same : other = id
    · subst same
      exact good r (by simpa [World.put] using found)
    · exact tracked.running other r (by simpa [World.put, same] using found)
  approvals := tracked.approvals
  columned := tracked.columned

/-- A request that is over is no longer tracked. -/
theorem Tracked.put_none {cluster : Cluster} {w : World} (tracked : Tracked cluster w) (id : Nat) :
    Tracked cluster (w.put id none) :=
  tracked.put id (fun r found => by cases found)

/-- What is cached is not part of what is tracked. -/
theorem Tracked.cache {cluster : Cluster} {w : World} (tracked : Tracked cluster w)
    (replica : Nat) (name : TableName) (kind : BackendKind) :
    Tracked cluster (w.cache replica name kind) :=
  { tracked with }

/-- A request that is answered keeps the answer as it was due. -/
theorem Tracked.answer {cluster : Cluster} {w : World} (tracked : Tracked cluster w) (id : Nat)
    (request : Request) (kind : BackendKind) : Tracked cluster (w.answer cluster id request kind) :=
  { tracked.put_none id with }

/-- What is created besides keeps the rest. -/
theorem Tracked.create {cluster : Cluster} {w : World} (tracked : Tracked cluster w)
    {ddl : CreateTable} (made : ddl.columns ≠ []) :
    Tracked cluster { w with db := { w.db with chTables := createTable ddl w.db.chTables } } := by
  have kept {name : TableName} (there : (w.db.chTables name).isSome = true) :
      (createTable ddl w.db.chTables name).isSome = true := by
    obtain ⟨columns, found⟩ := Option.isSome_iff_exists.mp there
    rw [createTable_keeps found]
    rfl
  constructor
  · intro name chosen found
    obtain ⟨row, normal, there⟩ := tracked.stands name chosen found
    exact ⟨row, normal, fun house => kept (there house)⟩
  · exact tracked.running
  · intro id approval found
    obtain ⟨inside, normal, there⟩ := tracked.approvals id approval found
    exact ⟨inside, normal, fun house => ⟨(there house).1, kept (there house).2⟩⟩
  · exact createTable_columned made tracked.columned

/-- What still stands, or is due, after a commit. -/
theorem replaced_eq_some {name other : TableName} {chosen : BackendKind}
    {due : Option BackendKind} {kind : BackendKind} :
    (if (decide (other = name) && due != some chosen) = true then none else due) = some kind ↔
      due = some kind ∧ (other = name → kind = chosen) := by
  by_cases same : other = name
  · by_cases agrees : due = some chosen
    · simp [same, agrees, eq_comm]
    · have replaced : due = some kind → kind ≠ chosen := by
        rintro rfl rfl
        exact agrees rfl
      simp [same, agrees]
      exact replaced
  · simp [same]

/-- A decision that commits is the one that its table is due at. -/
theorem Tracked.commit {cluster : Cluster} {w : World} (tracked : Tracked cluster w)
    {id replica : Nat} {p : Proposal} {ddl : CreateTable} {chosen : BackendKind} {reviewer : Str}
    (built : buildCreateTable cluster.crates.unicode p = .ok ddl)
    (inside : replica < cluster.replicas)
    (house : chosen = .clickHouse → cluster.clickhouseConfigured replica = true ∧
      (w.db.chTables (ddl.schema, ddl.table)).isSome = true) :
    Tracked cluster (w.commit id replica p ddl chosen reviewer) := by
  have normal := (buildCreateTable_made built).1
  have houses : (w.commit id replica p ddl chosen reviewer).db.chTables = w.db.chTables := by
    cases chosen <;> rfl
  have kinds (name : TableName) : (w.commit id replica p ddl chosen reviewer).db.kindOf name =
      if name = (ddl.schema, ddl.table) then chosen else w.db.kindOf name := by
    cases chosen <;> exact kindOf_recorded ddl p.proposerRole _ p.proposalId reviewer _ name
  constructor
  · intro name kind found
    obtain ⟨stood, agrees⟩ := replaced_eq_some.mp found
    obtain ⟨row, clean, there⟩ := tracked.stands name kind stood
    refine ⟨?_, clean, by rwa [houses]⟩
    rw [kinds]
    split_ifs with same
    · exact (agrees same).symm
    · exact row
  · intro other request found
    obtain ⟨earlier, running, rfl⟩ := Option.map_eq_some_iff.mp found
    obtain ⟨on, due⟩ := tracked.running other earlier running
    refine ⟨on, fun kind isDue => ?_⟩
    obtain ⟨wasDue, agrees⟩ := replaced_eq_some.mp isDue
    obtain ⟨stood, read⟩ := due kind wasDue
    exact ⟨replaced_eq_some.mpr ⟨stood, agrees⟩, read⟩
  · intro other approval found
    rw [houses]
    by_cases same : other = id
    · subst same
      obtain rfl : ⟨replica, (ddl.schema, ddl.table), chosen⟩ = approval := by
        simpa [World.commit] using found
      exact ⟨inside, normal, house⟩
    · exact tracked.approvals other approval (by simpa [World.commit, World.decide, same] using found)
  · rw [houses]
    exact tracked.columned

/-- The replica of an approval caches the engine that was chosen. -/
theorem Tracked.settle {cluster : Cluster} {w : World} (tracked : Tracked cluster w) {id : Nat}
    {approval : Approval} (pending : w.approvals id = some approval) :
    Tracked cluster (w.settle id approval) := by
  obtain ⟨inside, normal, house⟩ := tracked.approvals id approval pending
  have keeps {name : TableName} {chosen : BackendKind} (stood : w.stands name = some chosen) :
      (w.settle id approval).stands name = some chosen := by
    show (if _ then _ else _ : TableName → Option BackendKind) name = some chosen
    split_ifs with row
    · by_cases same : name = approval.name
      · subst same
        rw [Function.update_self, ← row, (tracked.stands _ _ stood).1]
      · rw [Function.update_of_ne same, stood]
    · exact stood
  constructor
  · intro name chosen found
    have cases' : w.stands name = some chosen ∨ (name = approval.name ∧
        approval.chosen = chosen ∧ w.db.kindOf approval.name = approval.chosen) := by
      change (if _ then _ else _ : TableName → Option BackendKind) name = some chosen at found
      split_ifs at found with row
      · by_cases same : name = approval.name
        · subst same
          rw [Function.update_self] at found
          exact Or.inr ⟨rfl, Option.some.inj found, row⟩
        · rw [Function.update_of_ne same] at found
          exact Or.inl found
      · exact Or.inl found
    rcases cases' with stood | ⟨rfl, rfl, row⟩
    · exact tracked.stands name chosen stood
    · exact ⟨row, normal, fun isHouse => (house isHouse).2⟩
  · intro other request found
    obtain ⟨on, due⟩ := tracked.running other request found
    exact ⟨on, fun kind isDue => ⟨keeps (due kind isDue).1, (due kind isDue).2⟩⟩
  · intro other left found
    by_cases same : other = id
    · simp [World.settle, World.cache, same] at found
    · exact tracked.approvals other left (by simpa [World.settle, World.cache, same] using found)
  · exact tracked.columned

/-- What a step does where it is taken. -/
inductive Effect (cluster : Cluster) (w : World) : Label → World → Prop
  | begin {id replica : Nat} {name : TableName} (inside : replica < cluster.replicas) :
      Effect cluster w (.begin id replica name)
        (w.put id (some ⟨replica, name, .asked, w.stands name⟩))
  | hit {id : Nat} {request : Request} {kind : BackendKind}
      (running : w.running id = some request)
      (cached : w.caches request.replica (cacheKey request.name) = some kind) :
      Effect cluster w (.look id) (w.answer cluster id request kind)
  | miss {id : Nat} {request : Request} (running : w.running id = some request) :
      Effect cluster w (.look id) (w.put id (some { request with phase := .missed }))
  | read {id : Nat} {request : Request} (running : w.running id = some request) :
      Effect cluster w (.read id)
        (w.put id (some { request with phase := .read (w.db.kindOf request.name) }))
  | insert {id replica : Nat} {name : TableName} {kind : BackendKind} {due : Option BackendKind}
      (running : w.running id = some ⟨replica, name, .read kind, due⟩) :
      Effect cluster w (.insert id)
        ((w.cache replica name kind).answer cluster id ⟨replica, name, .read kind, due⟩ kind)
  | abandon {id : Nat} : Effect cluster w (.abandon id) (w.put id none)
  | create {p : Proposal} {ddl : CreateTable}
      (built : buildCreateTable cluster.crates.unicode p = .ok ddl) :
      Effect cluster w (.create p)
        { w with db := { w.db with chTables := createTable ddl w.db.chTables } }
  | commit {id replica : Nat} {p : Proposal} {chosen : BackendKind} {reviewer : Str}
      {ddl : CreateTable} (built : buildCreateTable cluster.crates.unicode p = .ok ddl)
      (inside : replica < cluster.replicas)
      (house : chosen = .clickHouse → cluster.clickhouseConfigured replica = true ∧
        (w.db.chTables (ddl.schema, ddl.table)).isSome = true) :
      Effect cluster w (.commit id replica p chosen reviewer)
        (w.commit id replica p ddl chosen reviewer)
  | note {id : Nat} {approval : Approval} (pending : w.approvals id = some approval) :
      Effect cluster w (.note id) (w.settle id approval)
  | drop {id : Nat} :
      Effect cluster w (.drop id) { w with approvals := Function.update w.approvals id none }
  | forget {replica : Nat} {gone : Str → Bool} :
      Effect cluster w (.forget replica gone) (w.forget replica gone)

/-- The inversion of a step, once for all of its labels. -/
theorem effect_of_step {cluster : Cluster} {w next : World} {label : Label}
    (stepped : step cluster w label = some next) : Effect cluster w label next := by
  cases label with
  | begin id replica name =>
    simp only [step] at stepped
    split_ifs at stepped with free
    obtain rfl := Option.some.inj stepped
    rw [Bool.and_eq_true, decide_eq_true_eq] at free
    exact .begin free.2
  | look id =>
    simp only [step] at stepped
    split at stepped
    next request running =>
      split_ifs at stepped
      split at stepped
      next kind cached =>
        obtain rfl := Option.some.inj stepped
        exact .hit running cached
      next missed =>
        obtain rfl := Option.some.inj stepped
        exact .miss running
    next => cases stepped
  | read id =>
    simp only [step] at stepped
    split at stepped
    next request running =>
      split_ifs at stepped
      obtain rfl := Option.some.inj stepped
      exact .read running
    next => cases stepped
  | insert id =>
    simp only [step] at stepped
    split at stepped
    next replica name kind due running =>
      obtain rfl := Option.some.inj stepped
      exact .insert running
    next => cases stepped
  | abandon id =>
    obtain rfl := Option.some.inj stepped
    exact .abandon
  | create p =>
    simp only [step] at stepped
    split at stepped
    next ddl built =>
      split_ifs at stepped
      obtain rfl := Option.some.inj stepped
      exact .create built
    next => cases stepped
  | commit id replica p chosen reviewer =>
    simp only [step] at stepped
    split at stepped
    next ddl built =>
      split_ifs at stepped with free
      obtain rfl := Option.some.inj stepped
      simp only [Bool.and_eq_true, Bool.or_eq_true, decide_eq_true_eq] at free
      refine .commit built free.1.1.2 (fun house => ?_)
      rcases free.1.2 with postgres | configured
      · rw [house] at postgres
        cases postgres
      · exact configured
    next => cases stepped
  | note id =>
    obtain ⟨approval, pending, rfl⟩ := Option.map_eq_some_iff.mp stepped
    exact .note pending
  | drop id =>
    obtain rfl := Option.some.inj stepped
    exact .drop
  | forget replica gone =>
    obtain rfl := Option.some.inj stepped
    exact .forget

/-- Every step keeps track. -/
theorem Tracked.step {cluster : Cluster} {w next : World} {label : Label}
    (tracked : Tracked cluster w) (stepped : step cluster w label = some next) :
    Tracked cluster next := by
  cases effect_of_step stepped with
  | begin inside =>
    refine tracked.put _ (fun r same => ?_)
    obtain rfl := Option.some.inj same
    exact ⟨inside, fun chosen stood => ⟨stood, fun kind read => by cases read⟩⟩
  | @hit id request kind => exact tracked.answer id request kind
  | @miss id request running =>
    refine tracked.put id (fun r same => ?_)
    obtain rfl := Option.some.inj same
    obtain ⟨on, due⟩ := tracked.running id request running
    exact ⟨on, fun chosen isDue => ⟨(due chosen isDue).1, fun kind read => by cases read⟩⟩
  | @read id request running =>
    refine tracked.put id (fun r same => ?_)
    obtain rfl := Option.some.inj same
    obtain ⟨on, due⟩ := tracked.running id request running
    refine ⟨on, fun chosen isDue => ⟨(due chosen isDue).1, fun kind read => ?_⟩⟩
    rw [← Phase.read.inj read]
    exact (tracked.stands _ _ (due chosen isDue).1).1
  | @insert id replica name kind => exact (tracked.cache replica name kind).answer id _ kind
  | @abandon id => exact tracked.put_none id
  | create built => exact tracked.create (buildCreateTable_made built).2
  | commit built inside house => exact tracked.commit built inside house
  | note pending => exact tracked.settle pending
  | @drop id =>
    refine { tracked with approvals := fun other approval found => ?_ }
    by_cases same : other = id
    · simp [same] at found
    · exact tracked.approvals other approval (by simpa [same] using found)
  | forget => exact { tracked with }

/-! ## Staying up to date -/

/-- Where nothing that decides on a routing changes, all stays up to date. -/
theorem UpToDate.same {cluster : Cluster} {w next : World} (current : UpToDate cluster w)
    (caches : next.caches = w.caches) (stands : next.stands = w.stands)
    (kinds : ∀ name, next.db.kindOf name = w.db.kindOf name) : UpToDate cluster next := by
  intro name chosen stood replica inside
  rw [World.routeNow, caches, kinds]
  exact current name chosen (stands ▸ stood) replica inside

/-- The engine of a standing decision is one its table can be routed to. -/
theorem UpToDate.get {cluster : Cluster} {w : World}
    (current : UpToDate cluster w) {name : TableName} {chosen : BackendKind}
    (stood : w.stands name = some chosen) {replica : Nat} (inside : replica < cluster.replicas) :
    cluster.get replica chosen = chosen := by
  have now := current name chosen stood replica inside
  rw [World.routeNow] at now
  rw [← now, get_get]

/-- An entry that is written is read. -/
theorem cache_self (w : World) (replica : Nat) (name : TableName) (kind : BackendKind) :
    (w.cache replica name kind).caches replica (cacheKey name) = some kind := by
  simp [World.cache]

/-- An entry changes no other one that a normal name has. -/
theorem cache_other {cluster : Cluster} {w : World} {replica other : Nat}
    {name otherName : TableName} {kind : BackendKind}
    (normal : NormalName (cluster.deployment 0) otherName)
    (differs : other ≠ replica ∨ otherName ≠ name) :
    (w.cache replica name kind).caches other (cacheKey otherName) =
      w.caches other (cacheKey otherName) := by
  by_cases same : other = replica
  · subst same
    have key : cacheKey otherName ≠ cacheKey name := fun agrees =>
      (differs.resolve_left (fun ne => ne rfl)) (cacheKey_inj normal agrees).symm
    simp [World.cache, key]
  · simp [World.cache, same]

/-- A lookup that caches what it has read. -/
theorem upToDate_insert {cluster : Cluster} {w : World} (tracked : Tracked cluster w)
    (current : UpToDate cluster w) {replica : Nat} (inside : replica < cluster.replicas)
    (name : TableName) (kind : BackendKind) :
    ((w.stands name).isNone || cluster.get replica kind == w.db.kindOf name) = true ↔
      UpToDate cluster (w.cache replica name kind) := by
  rw [Bool.or_eq_true, Option.isNone_iff_eq_none, beq_iff_eq]
  constructor
  · intro allowed other chosen found replica' inside'
    have stood : w.stands other = some chosen := found
    have now := current other chosen stood replica' inside'
    obtain ⟨row, normal, -⟩ := tracked.stands other chosen stood
    by_cases here : replica' = replica ∧ other = name
    · obtain ⟨rfl, rfl⟩ := here
      rw [World.routeNow, cache_self, Option.getD_some]
      rcases allowed with free | agrees
      · rw [stood] at free
        cases free
      · rw [agrees, row]
    · rw [World.routeNow, cache_other normal (by tauto)]
      exact now
  · intro later
    cases stood : w.stands name with
    | none => exact Or.inl rfl
    | some chosen =>
      right
      have now := later name chosen stood replica inside
      rw [World.routeNow, cache_self, Option.getD_some] at now
      rw [now, (tracked.stands name chosen stood).1]

/-- An approval that returns leaves the routes of the other tables. -/
theorem routeNow_settle_other {cluster : Cluster} {w : World} {id : Nat} {approval : Approval}
    {name : TableName} (normal : NormalName (cluster.deployment 0) name)
    (different : name ≠ approval.name) (replica : Nat) :
    (w.settle id approval).routeNow cluster replica name = w.routeNow cluster replica name := by
  have other : (w.cache approval.replica approval.name approval.chosen).caches replica
      (cacheKey name) = w.caches replica (cacheKey name) :=
    cache_other normal (Or.inr different)
  rw [World.routeNow, World.routeNow]
  exact congrArg (fun cached => cluster.get replica (cached.getD (w.db.kindOf name))) other

/-- An approval that returns while its row stands. -/
theorem upToDate_settle {cluster : Cluster} {w : World} (tracked : Tracked cluster w)
    (current : UpToDate cluster w) {id : Nat} {approval : Approval}
    (pending : w.approvals id = some approval) :
    keepsFresh cluster w (.note id) = true ↔ UpToDate cluster (w.settle id approval) := by
  obtain ⟨inside, normal, house⟩ := tracked.approvals id approval pending
  have routes (replica : Nat) : (w.settle id approval).routeNow cluster replica approval.name =
      cluster.get replica (if replica = approval.replica then approval.chosen
        else (w.caches replica (cacheKey approval.name)).getD (w.db.kindOf approval.name)) := by
    show cluster.get replica (((w.cache approval.replica approval.name approval.chosen).caches
      replica (cacheKey approval.name)).getD (w.db.kindOf approval.name)) = _
    split_ifs with same
    · rw [same, cache_self, Option.getD_some]
    · rw [cache_other normal (Or.inl same)]
  rw [keepsFresh, pending]
  dsimp only
  by_cases row : w.db.kindOf approval.name = approval.chosen
  · have stands : (w.settle id approval).stands =
        Function.update w.stands approval.name (some approval.chosen) := if_pos row
    rw [if_pos row, List.all_eq_true]
    constructor
    · intro elsewhere name chosen stood replica inside'
      rw [stands] at stood
      by_cases same : name = approval.name
      · subst same
        obtain rfl := Option.some.inj (Function.update_self (f := w.stands) _ _ ▸ stood)
        rw [routes, row]
        exact beq_iff_eq.mp (elsewhere replica (List.mem_range.mpr inside'))
      · rw [Function.update_of_ne same] at stood
        rw [routeNow_settle_other (tracked.stands name chosen stood).2.1 same]
        exact current name chosen stood replica inside'
    · intro later replica member
      have now := later approval.name approval.chosen (by rw [stands, Function.update_self]) replica
        (List.mem_range.mp member)
      rw [routes, row] at now
      exact beq_iff_eq.mpr now
  · have stands : (w.settle id approval).stands = w.stands := if_neg row
    rw [if_neg row, Option.isNone_iff_eq_none]
    constructor
    · intro free name chosen stood replica inside'
      rw [stands] at stood
      have different : name ≠ approval.name := by
        rintro rfl
        rw [free] at stood
        cases stood
      rw [routeNow_settle_other (tracked.stands name chosen stood).2.1 different]
      exact current name chosen stood replica inside'
    · intro later
      cases stood : w.stands approval.name with
      | none => rfl
      | some chosen =>
        exfalso
        have now := later approval.name chosen (by rw [stands, stood]) approval.replica inside
        rw [routes, if_pos rfl] at now
        refine row ?_
        rw [(tracked.stands _ _ stood).1, ← now, get_configured (fun isHouse => (house isHouse).1)]

/-- An approval that commits: the row is the decision that stands. -/
theorem upToDate_commit {cluster : Cluster} {w : World} (tracked : Tracked cluster w)
    (current : UpToDate cluster w) (id replica : Nat) (p : Proposal) (ddl : CreateTable)
    (chosen : BackendKind) (reviewer : Str) :
    UpToDate cluster (w.commit id replica p ddl chosen reviewer) := by
  intro name kind found replica' inside
  obtain ⟨stood, agrees⟩ := replaced_eq_some.mp found
  have kinds : (w.commit id replica p ddl chosen reviewer).db.kindOf name = w.db.kindOf name := by
    have written : (w.commit id replica p ddl chosen reviewer).db.kindOf name =
        if name = (ddl.schema, ddl.table) then chosen else w.db.kindOf name := by
      cases chosen <;> exact kindOf_recorded ddl p.proposerRole _ p.proposalId reviewer _ name
    rw [written]
    split_ifs with same
    · rw [(tracked.stands name kind stood).1, agrees same]
    · rfl
  rw [World.routeNow, kinds]
  exact current name kind stood replica' inside

/-- Entries that a cache gives up: the row is read again. -/
theorem upToDate_forget {cluster : Cluster} {w : World} (tracked : Tracked cluster w)
    (current : UpToDate cluster w) (replica : Nat) (gone : Str → Bool) :
    UpToDate cluster (w.forget replica gone) := by
  intro name chosen stood replica' inside
  have now := current name chosen stood replica' inside
  have fallback := current.get stood inside
  rw [World.routeNow] at now
  have row : w.db.kindOf name = chosen := (tracked.stands name chosen stood).1
  have kept : (w.forget replica gone).caches replica' (cacheKey name) = none ∨
      (w.forget replica gone).caches replica' (cacheKey name) =
        w.caches replica' (cacheKey name) := by
    by_cases same : replica' = replica
    · by_cases hit : gone (cacheKey name) = true
      · simp [World.forget, same, hit]
      · simp [World.forget, same, hit]
    · simp [World.forget, same]
  rcases kept with empty | same
  · rw [World.routeNow, empty, Option.getD_none]
    exact (congrArg (cluster.get replica') row).trans fallback
  · rw [World.routeNow, same]
    exact now

/-- A step keeps every replica up to date exactly if it meets the condition. -/
theorem keepsFresh_iff {cluster : Cluster} {w next : World} {label : Label}
    (tracked : Tracked cluster w) (current : UpToDate cluster w)
    (stepped : step cluster w label = some next) :
    keepsFresh cluster w label = true ↔ UpToDate cluster next := by
  cases effect_of_step stepped with
  | begin | hit | miss | read | abandon | create | drop =>
    exact iff_of_true rfl (current.same rfl rfl (fun _ => rfl))
  | @insert id replica name kind due running =>
    rw [keepsFresh, running]
    exact upToDate_insert tracked current (tracked.running id _ running).1 name kind
  | @commit id replica p chosen reviewer ddl =>
    exact iff_of_true rfl (upToDate_commit tracked current id replica p ddl chosen reviewer)
  | note pending => exact upToDate_settle tracked current pending
  | @forget replica gone => exact iff_of_true rfl (upToDate_forget tracked current replica gone)

/-! ## Answers -/

/-- A request that goes on with an engine it can be due at. -/
theorem fresh_answer {cluster : Cluster} {w : World} (tracked : Tracked cluster w) {id : Nat}
    {request : Request} {kind : BackendKind}
    (due : ∀ chosen, request.due = some chosen → w.stands request.name = some chosen ∧
      cluster.get request.replica kind = chosen)
    (fresh : ∀ answer ∈ w.answered, answer.Fresh) :
    ∀ answer ∈ (w.answer cluster id request kind).answered, answer.Fresh := by
  intro answer member
  rcases List.mem_cons.mp member with rfl | earlier
  · intro chosen isDue
    obtain ⟨stood, routed⟩ := due chosen isDue
    refine ⟨routed, ?_⟩
    rintro rfl
    obtain ⟨columns, there⟩ := Option.isSome_iff_exists.mp ((tracked.stands _ _ stood).2.2 rfl)
    have some_column : columns ≠ [] := fun empty => tracked.columned _ (empty ▸ there)
    dsimp only
    rw [routed, tableThere, there]
    simp [some_column]
  · exact fresh answer earlier

/-- While all is up to date, requests are answered by the decisions that stand. -/
theorem fresh_step {cluster : Cluster} {w next : World} {label : Label}
    (tracked : Tracked cluster w) (current : UpToDate cluster w)
    (fresh : ∀ answer ∈ w.answered, answer.Fresh)
    (stepped : step cluster w label = some next) : ∀ answer ∈ next.answered, answer.Fresh := by
  cases effect_of_step stepped with
  | @hit id request kind running cached =>
    obtain ⟨inside, due⟩ := tracked.running id request running
    refine fresh_answer tracked (fun chosen isDue => ⟨(due chosen isDue).1, ?_⟩) fresh
    have now := current _ chosen (due chosen isDue).1 _ inside
    rwa [World.routeNow, cached, Option.getD_some] at now
  | @insert id replica name kind isDue running =>
    obtain ⟨inside, due⟩ := tracked.running id _ running
    refine fresh_answer (tracked.cache replica name kind) (fun chosen isDue => ?_) fresh
    obtain ⟨stood, read⟩ := due chosen isDue
    refine ⟨stood, ?_⟩
    rw [read kind rfl]
    exact current.get stood inside
  | begin | miss | read | abandon | create | commit | note | drop | forget => exact fresh

/-- What a run keeps as long as its steps meet the condition. -/
structure Healthy (cluster : Cluster) (w : World) : Prop where
  tracked : Tracked cluster w
  current : UpToDate cluster w
  fresh : ∀ answer ∈ w.answered, answer.Fresh

/-- A step keeps the system healthy exactly if it meets the condition. -/
theorem Healthy.step {cluster : Cluster} {w next : World} {label : Label}
    (healthy : Healthy cluster w) (stepped : step cluster w label = some next) :
    keepsFresh cluster w label = true ↔ Healthy cluster next := by
  rw [keepsFresh_iff healthy.tracked healthy.current stepped]
  constructor
  · intro current
    exact ⟨healthy.tracked.step stepped, current,
      fresh_step healthy.tracked healthy.current healthy.fresh stepped⟩
  · exact Healthy.current

/-- Throughout a run every replica routes by the decisions that stand, and every request is
answered by the decision that it was due at, exactly if every step meets the condition. -/
theorem routing_fresh {cluster : Cluster} {db : Db} {labels : List Label} {w : World}
    (columned : ∀ name, db.chTables name ≠ some [])
    (ran : run (step cluster) (start db) labels = some w) :
    (∀ before, before <+: labels → ∀ state, run (step cluster) (start db) before = some state →
        UpToDate cluster state ∧ ∀ answer ∈ state.answered, answer.Fresh) ↔
      (run (guarded (keepsFresh cluster) (step cluster)) (start db) labels).isSome := by
  have started := tracked_start cluster columned
  have healthy : Healthy cluster (start db) := by
    refine ⟨started, fun name chosen stood => ?_, fun answer member => ?_⟩
    · cases stood
    · cases member
  rw [← guarded_exact (fun state label next holds stepped => Healthy.step holds stepped) healthy
    ran]
  refine forall₄_congr (fun before inside state ends => ?_)
  constructor
  · rintro ⟨current, fresh⟩
    have tracked := run_invariant (fun _ _ _ holds stepped => Tracked.step holds stepped) started
      ends
    exact ⟨tracked, current, fresh⟩
  · intro holds
    exact ⟨holds.current, holds.fresh⟩

/-! ## Two runs -/

/-- Two replicas with ClickHouse, on a database without tables. -/
def pair : Cluster := ⟨Crates.plain, 2, fun _ => true⟩

/-- A database without tables. -/
def noTables : Db where
  pgTables _ := none
  chTables _ := none
  tableBackend _ := none
  acl := []
  proposals := []

/-- A proposal for a table of events. -/
def eventsProposal : Proposal where
  proposalId := "p".str
  declaredSchema := "obs".str
  declaredTable := "events".str
  proposerSub := "ana".str
  proposerRole := "writer".str
  inferredSchema := []
  inferredKey := []
  suggestedBackend := "clickhouse".str
  status := .pending
  appliedTable := none
  reviewerSub := none
  existed := false

/-- The table of the examples. -/
def events : TableName := ("obs".str, "events".str)

/-- A whole request on one replica. -/
def asks (id replica : Nat) : List Label :=
  [.begin id replica events, .look id, .read id, .insert id]

/-- A whole approval onto ClickHouse. -/
def approves (id replica : Nat) : List Label :=
  [.create eventsProposal, .commit id replica eventsProposal .clickHouse "admin".str, .note id]

/-- The replica that approves has cached Postgres for the table, and notes ClickHouse. -/
def sameReplica : List Label := asks 0 0 ++ approves 0 0 ++ [.begin 1 0 events, .look 1]

/-- Another replica has. -/
def otherReplica : List Label := asks 0 1 ++ approves 0 0 ++ [.begin 1 1 events, .look 1]

/-- On the replica that approved, the next request goes to the chosen engine. -/
theorem sameReplica_fresh : ∃ w, run (step pair) (start noTables) sameReplica = some w ∧
    ∀ answer ∈ w.answered, answer.Fresh := by
  have meets : (run (guarded (keepsFresh pair) (step pair)) (start noTables)
      sameReplica).isSome = true := by decide +kernel
  obtain ⟨w, allowed⟩ := Option.isSome_iff_exists.mp meets
  have ran := run_of_guarded allowed
  exact ⟨w, ran, ((routing_fresh (fun _ found => by cases found) ran).mpr meets sameReplica
    (List.prefix_refl _) w ran).2⟩

/-- It goes on with Postgres after the approval, and takes the table for a new one. -/
theorem otherReplica_stale : ∃ w, run (step pair) (start noTables) otherReplica = some w ∧
    w.answered.head?.map (fun answer => (answer.due, answer.routed, answer.isNew)) =
      some (some .clickHouse, .postgres, true) := by
  have ends : (run (step pair) (start noTables) otherReplica).map (fun w =>
      w.answered.head?.map (fun answer => (answer.due, answer.routed, answer.isNew))) =
      some (some (some .clickHouse, .postgres, true)) := by decide +kernel
  exact Option.map_eq_some_iff.mp ends

end LumidPlatform.Ingest.Replicas
