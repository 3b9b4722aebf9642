import LumidPlatform.Ingest.Created

/-!
# Approved tables and the merge engine

The merge engine names the columns of a table without quotes, copies into a clone of the table
without its identity columns, and inserts every column but `id`. A table that an approval
creates has names that were quoted, and an identity column in place of a key that is empty.
-/

namespace LumidPlatform.Ingest.Writable

open LumidPlatform.Write LumidPlatform.Write.Engine WriteAuthority

variable {deployment : Deployment} {V : Type}

/-! ## The catalogue -/

/-- The tables of Postgres by name. -/
abbrev Catalogue := TableName → Option PgTable

/-- The names of a table's columns that can be written. -/
def PgTable.writable (pg : PgTable) : List Str :=
  (pg.columns.filter (fun column => !column.isGenerated &&
    column.identityGeneration != some .always)).map (fun column => column.name)

/-- The catalogue describes the tables of the database. -/
def Describes (catalogue : Catalogue) (tables : TableName → Option (List Str)) : Prop :=
  ∀ name, tables name = (catalogue name).map PgTable.writable

/-- `CREATE TABLE IF NOT EXISTS`. -/
def createIn (ddl : CreateTable) (catalogue : Catalogue) : Catalogue :=
  if (catalogue (ddl.schema, ddl.table)).isSome then catalogue
  else Function.update catalogue (ddl.schema, ddl.table) (some ddl.pgTable)

/-- What `approve` leaves of the catalogue. -/
def approveIn (deployment : Deployment) (id : Str) (override : Option BackendKind)
    (outage : Option Outage) (s : State) (catalogue : Catalogue) : Catalogue :=
  match s.db.proposals.find? (isPending id) with
  | none => catalogue
  | some p =>
    match override.getD (BackendKind.ofStrOrPg p.suggestedBackend), outage,
        buildCreateTable deployment.crates.unicode p with
    | .postgres, none, .ok ddl =>
      if creatable .postgres ddl (s.db.pgTables (ddl.schema, ddl.table)).isSome then
        createIn ddl catalogue
      else catalogue
    | _, _, _ => catalogue

theorem writable_created (ddl : CreateTable) :
    PgTable.writable ddl.pgTable = ddl.columns.map Prod.fst := by
  let base : Table Unit := ⟨[], [], [], [], fun _ _ _ => none, fun _ _ => none, fun _ _ _ => true,
    fun _ => true⟩
  have names : (targetColumns (ddl.pgTable.table base ([], []))).map ColumnInfo.name =
      ddl.columns.map Prod.fst := targetNames_created
  rw [targetColumns, List.map_map] at names
  exact names

theorem Describes.create {catalogue : Catalogue} {tables : TableName → Option (List Str)}
    (describes : Describes catalogue tables) (ddl : CreateTable) :
    Describes (createIn ddl catalogue) (createTable ddl tables) := by
  intro name
  have found := describes (ddl.schema, ddl.table)
  rw [createIn, createTable, found, Option.isSome_map]
  split_ifs
  · exact describes name
  · by_cases here : name = (ddl.schema, ddl.table)
    · subst here
      rw [Function.update_self, Function.update_self, Option.map_some, writable_created]
    · rw [Function.update_of_ne here, Function.update_of_ne here]
      exact describes name

/-- The catalogue keeps describing the tables of the database through an approval. -/
theorem Describes.approve {catalogue : Catalogue} {s : State} (id reviewer : Str)
    (override : Option BackendKind) (outage : Option Outage)
    (describes : Describes catalogue s.db.pgTables) :
    Describes (approveIn deployment id override outage s catalogue)
      (approve deployment id reviewer override outage s).2.db.pgTables := by
  rw [Ingest.approve, approveIn]
  cases s.db.proposals.find? (isPending id) with
  | none => exact describes
  | some p =>
    dsimp only
    cases chosen : override.getD (BackendKind.ofStrOrPg p.suggestedBackend) with
    | clickHouse =>
      split_ifs
      · exact describes
      · cases buildCreateTable deployment.crates.unicode p with
        | error error => exact describes
        | ok ddl =>
          dsimp only
          split_ifs
          · exact describes
          · rcases outage with _ | _ | _
            · exact describes
            · exact describes
            · exact describes
    | postgres =>
      cases buildCreateTable deployment.crates.unicode p with
      | error error => rcases outage with _ | _ | _ <;> exact describes
      | ok ddl =>
        simp only [reduceCtorEq, decide_false, Bool.false_and, Bool.false_eq_true, if_false,
          Db.tablesOn, Bool.not_eq_true']
        by_cases taken : creatable .postgres ddl (s.db.pgTables (ddl.schema, ddl.table)).isSome = true
        · rw [if_neg (by simp [taken])]
          rcases outage with _ | _ | _
          · dsimp only
            rw [if_pos taken]
            exact describes.create ddl
          · exact describes
          · exact describes
        · rw [if_pos (by simpa using taken)]
          rcases outage with _ | _ | _
          · dsimp only
            rw [if_neg taken]
            exact describes
          · exact describes
          · exact describes

/-! ## Writable tables -/

/-- The columns that the engine stamps. -/
def stampedCols (table : Table V) : List Str := fullCols table ⟨[], [], [], [], [], []⟩

/-- The columns of the staging table. -/
def Staged (table : Table V) (name : Str) : Prop :=
  (stagedColumns table).any (fun column => column.name == name) = true

/-- A name that stands for itself without quotes: it is a lower-case identifier and no reserved
word. -/
def Plain (unicode : Unicode) (reserved : Str → Bool) (name : Str) : Prop :=
  Normal unicode name ∧ reserved name = false

/-- The merge engine can write a table with these constraints. -/
structure Mergeable (unicode : Unicode) (reserved : Str → Bool) (table : Table V)
    (usages : List KeyUsage) : Prop where
  /-- There are conflict columns. -/
  key : getUniqueColumns usages ≠ []
  /-- The `COPY` of any records names columns of the staging table, each of them plainly. -/
  copied : ∀ req : WriteRequest,
    ∀ name ∈ fullCols table (req.call (metaOf table (getUniqueColumns usages))),
      Staged table name ∧ Plain unicode reserved name
  /-- As do the `SELECT DISTINCT ON` and the target of the `ON CONFLICT`. -/
  selected : ∀ name ∈ (buildMerge (targetColumns table) (getUniqueColumns usages)).insertCols ++
    (buildMerge (targetColumns table) (getUniqueColumns usages)).conflictCols,
      Staged table name ∧ Plain unicode reserved name
  /-- The schema and the columns that the update sets and compares are plain names too. -/
  schema : Plain unicode reserved table.schema
  /-- Beside the new row, which the update calls `EXCLUDED`, nothing has that name. -/
  target : table.name ≠ "excluded".str
  updated : ∀ name ∈ (buildMerge (targetColumns table) (getUniqueColumns usages)).updateTargets ++
    (buildMerge (targetColumns table) (getUniqueColumns usages)).distinctCols,
      Plain unicode reserved name
  /-- A column of the primary key is inserted, and comes from the engine or from records that the
  validator accepts. -/
  primary : ∀ usage ∈ usages, usage.constraintType = "PRIMARY KEY".str →
    usage.columnName ∈ (buildMerge (targetColumns table) (getUniqueColumns usages)).insertCols ∧
      (usage.columnName ∈ stampedCols table ∨
        keyError (metaOf table (getUniqueColumns usages)) usage.columnName = none)

/-! ## Staged columns -/

theorem not_staged_of_generated {table : Table V} {name : Str}
    (generated : name ∈ generatedColumns table) : ¬Staged table name := by
  intro staged
  obtain ⟨column, member, same⟩ := List.any_eq_true.mp staged
  obtain ⟨source, kept, rfl⟩ := List.mem_map.mp member
  obtain ⟨-, free⟩ := List.mem_filter.mp kept
  rw [beq_iff_eq] at same
  rw [same, List.contains_iff_mem.mpr generated] at free
  cases free

/-- Without generated columns the staging table has all. -/
theorem staged_of_mem {table : Table V} {name : Str} (none : generatedColumns table = [])
    (member : name ∈ (targetColumns table).map ColumnInfo.name) : Staged table name := by
  obtain ⟨column, target, rfl⟩ := List.mem_map.mp member
  obtain ⟨source, kept, rfl⟩ := List.mem_map.mp target
  apply List.any_eq_true.mpr
  refine ⟨source.toColumnInfo, List.mem_map_of_mem (List.mem_filter.mpr ?_), beq_self_eq_true _⟩
  rw [none]
  exact ⟨(List.mem_filter.mp kept).1, rfl⟩

/-- What an update sets is a column of the target. -/
theorem mem_of_updated {targetCols : List ColumnInfo} {conflictCols : List Str} {name : Str}
    (updated : name ∈ (buildMerge targetCols conflictCols).updateTargets) :
    name ∈ targetCols.map ColumnInfo.name := by
  simp only [buildMerge, List.mem_append, List.mem_filter] at updated
  rcases updated with (flat | refreshed) | payload
  · exact flat.1
  · exact List.contains_iff_mem.mp refreshed.2
  · split_ifs at payload with here
    · rw [List.mem_singleton] at payload
      exact payload ▸ List.contains_iff_mem.mp here
    · cases payload

theorem mem_insertCols {targetCols : List ColumnInfo} {conflictCols : List Str} {name : Str} :
    name ∈ (buildMerge targetCols conflictCols).insertCols ↔
      name ∈ targetCols.map ColumnInfo.name ∧ name ≠ "id".str := by
  simp [buildMerge]

/-! ## Tables of an approval -/

section

variable {unicode : Unicode} {base : Table V} {name : TableName} {p : Proposal} {ddl : CreateTable}

theorem primaryKey_ne_nil (laysOut : LaysOut p ddl) : ddl.primaryKey ≠ [] := by
  rw [laysOut.primaryKey]
  split_ifs
  · exact List.cons_ne_nil _ _
  · exact List.append_ne_nil_of_right_ne_nil _ (List.cons_ne_nil _ _)

/-- With a key there is no identity column. -/
theorem generatedColumns_keyed (laysOut : LaysOut p ddl) (key : p.inferredKey ≠ []) :
    generatedColumns (ddl.pgTable.table base name) = [] := by
  have keyed : ddl.primaryKey ≠ ["id".str] := by
    rw [laysOut.primaryKey, if_neg key]
    intro same
    have last := congrArg List.getLast? same
    rw [List.getLast?_append, List.getLast?_singleton, Option.some_or, List.getLast?_singleton]
      at last
    exact absurd last (by decide)
  rw [generatedColumns, List.map_eq_nil_iff, List.filter_eq_nil_iff]
  intro column member
  rw [PgTable.table, CreateTable.pgTable, if_neg keyed, List.nil_append] at member
  obtain ⟨entry, -, rfl⟩ := List.mem_map.mp member
  exact Bool.false_ne_true

/-- Without a key the identity column is generated. -/
theorem generatedColumns_keyless (laysOut : LaysOut p ddl) (key : p.inferredKey = []) :
    "id".str ∈ generatedColumns (ddl.pgTable.table base name) := by
  refine List.mem_map.mpr ⟨surrogateId, List.mem_filter.mpr ⟨?_, rfl⟩, rfl⟩
  rw [PgTable.table, CreateTable.pgTable, laysOut.primaryKey, if_pos key, if_pos rfl]
  exact List.mem_cons_self

theorem mem_target (laysOut : LaysOut p ddl) {column : Str} :
    column ∈ (targetColumns (ddl.pgTable.table base name)).map ColumnInfo.name ↔
      column ∈ p.inferredSchema.map Prod.fst ∨ column ∈ provenanceCols := by
  rw [targetNames_created, laysOut.columns, List.mem_append]

theorem normal_provenance {column : Str} (provenance : column ∈ provenanceCols) :
    Normal unicode column := by
  apply normal_of_letters
  revert column
  decide

/-- The columns of a `COPY` are columns of the target, where it has those of the provenance. -/
theorem mem_of_copied {table : Table V} {req : WriteRequest} {conflictCols : List Str}
    (provenance : ∀ column ∈ provenanceCols, column ∈ (targetColumns table).map ColumnInfo.name)
    {column : Str} (copied : column ∈ fullCols table (req.call (metaOf table conflictCols))) :
    column ∈ (targetColumns table).map ColumnInfo.name := by
  rw [fullCols, List.mem_append, List.mem_append] at copied
  rcases copied with (payload | stamped) | moment
  · exact (List.mem_filter.mp payload).1
  · apply provenance
    revert column
    decide
  · split_ifs at moment
    · rw [List.mem_singleton] at moment
      exact provenance column (moment ▸ (by decide))
    · cases moment

/-- With a key the primary key's columns are columns of the target. -/
theorem mem_target_of_key (clean : Clean unicode p) (laysOut : LaysOut p ddl)
    (keyed : p.inferredKey ≠ []) {column : Str} (key : column ∈ ddl.primaryKey) :
    column ∈ (targetColumns (ddl.pgTable.table base name)).map ColumnInfo.name := by
  rw [laysOut.primaryKey, if_neg keyed, List.mem_append, List.mem_singleton] at key
  rcases key with declared | rfl
  · exact (mem_target laysOut).mpr (Or.inl (clean.key column declared))
  · exact (mem_target laysOut).mpr (Or.inr (by decide))

/-- With a key that is free of `id`, its columns are inserted, from records or by the engine. -/
theorem inserted_of_key (clean : Clean unicode p) (laysOut : LaysOut p ddl)
    (keyed : p.inferredKey ≠ []) (free : "id".str ∉ p.inferredKey) {column : Str}
    (key : column ∈ ddl.primaryKey) :
    column ∈ (buildMerge (targetColumns (ddl.pgTable.table base p.target))
        (getUniqueColumns ddl.pgTable.usages)).insertCols ∧
      (column ∈ stampedCols (ddl.pgTable.table base p.target) ∨
        keyError (metaOf (ddl.pgTable.table base p.target)
          (getUniqueColumns ddl.pgTable.usages)) column = none) := by
  have target := @mem_target_of_key _ unicode base p.target p ddl clean laysOut keyed column key
  rw [laysOut.primaryKey, if_neg keyed, List.mem_append, List.mem_singleton] at key
  rcases key with declared | rfl
  · have other : column ≠ "id".str := by
      rintro rfl
      exact free declared
    have unstamped : column ∉ serverStampedCols := by
      have outside := (clean.names column (clean.key column declared)).2
      simp only [provenanceCols, serverStampedCols, List.mem_cons, List.not_mem_nil, or_false,
        not_or] at outside ⊢
      exact ⟨outside.1, outside.2.1, outside.2.2.1, outside.2.2.2.1, other⟩
    have found : (metaOf (ddl.pgTable.table base p.target)
        (getUniqueColumns ddl.pgTable.usages)).columns.any
          (fun info => info.name == column) = true := by
      obtain ⟨info, listed, rfl⟩ := List.mem_map.mp target
      exact List.any_eq_true.mpr ⟨info, listed, beq_self_eq_true _⟩
    refine ⟨mem_insertCols.mpr ⟨target, other⟩, Or.inr ?_⟩
    rw [keyError, if_neg (by rw [List.contains_iff_mem]; exact unstamped), found]
    rfl
  · have stamped : "source".str ∈ ["source".str, "source_endpoint".str, "source_run_id".str] :=
      List.mem_cons_self
    refine ⟨mem_insertCols.mpr ⟨target, by decide⟩, Or.inl ?_⟩
    rw [stampedCols, fullCols]
    exact List.mem_append_left _ (List.mem_append_right _ stamped)

/-- A created table that can be written has a key, which is free of `id`. -/
theorem keyed_of_mergeable {reserved : Str → Bool} (laysOut : LaysOut p ddl)
    (mergeable : Mergeable unicode reserved (ddl.pgTable.table base p.target)
      ddl.pgTable.usages) : p.inferredKey ≠ [] ∧ "id".str ∉ p.inferredKey := by
  have keyed : p.inferredKey ≠ [] := by
    intro key
    have staged := (mergeable.selected "id".str (List.mem_append_right _ (by
      rw [conflictCols_created (primaryKey_ne_nil laysOut), buildMerge, laysOut.primaryKey,
        if_pos key]
      exact List.mem_cons_self))).1
    exact not_staged_of_generated (generatedColumns_keyless laysOut key) staged
  refine ⟨keyed, fun member => ?_⟩
  have inserted := (mergeable.primary ⟨"id".str, "PRIMARY KEY".str, ddl.table ++ "_pkey".str⟩
    (List.mem_map_of_mem (by
      rw [laysOut.primaryKey, if_neg keyed]
      exact List.mem_append_left _ member)) rfl).1
  exact (mem_insertCols.mp inserted).2 rfl

/-- The merge engine can write a created table exactly where its key is not empty and without
`id`, no name is a reserved word, and the table is not called `excluded`. -/
theorem mergeable_created {reserved : Str → Bool}
    (own : ∀ column ∈ provenanceCols, reserved column = false) (clean : Clean unicode p)
    (schema : Normal unicode p.declaredSchema) (laysOut : LaysOut p ddl) :
    Mergeable unicode reserved (ddl.pgTable.table base p.target) ddl.pgTable.usages ↔
      p.inferredKey ≠ [] ∧ "id".str ∉ p.inferredKey ∧ p.declaredTable ≠ "excluded".str ∧
        reserved p.declaredSchema = false ∧
          ∀ column ∈ p.inferredSchema.map Prod.fst, reserved column = false := by
  have conflicts : getUniqueColumns ddl.pgTable.usages = ddl.primaryKey :=
    conflictCols_created (primaryKey_ne_nil laysOut)
  constructor
  · intro mergeable
    obtain ⟨keyed, free⟩ := keyed_of_mergeable laysOut mergeable
    refine ⟨keyed, free, mergeable.target, mergeable.schema.2, ?_⟩
    intro column member
    have inserted : column ∈ (buildMerge (targetColumns (ddl.pgTable.table base p.target))
        (getUniqueColumns ddl.pgTable.usages)).insertCols := by
      refine mem_insertCols.mpr ⟨(mem_target laysOut).mpr (Or.inl member), ?_⟩
      rintro rfl
      exact free (clean.id member)
    exact (mergeable.selected column (List.mem_append_left _ inserted)).2.2
  · rintro ⟨keyed, free, distinguished, schemaFree, columnsFree⟩
    have none : generatedColumns (ddl.pgTable.table base p.target) = [] :=
      generatedColumns_keyed laysOut keyed
    have fine : ∀ column ∈ (targetColumns (ddl.pgTable.table base p.target)).map ColumnInfo.name,
        Staged (ddl.pgTable.table base p.target) column ∧ Plain unicode reserved column := by
      intro column member
      refine ⟨staged_of_mem none member, ?_⟩
      rcases (mem_target laysOut).mp member with declared | provenance
      · exact ⟨(clean.names column declared).1, columnsFree column declared⟩
      · exact ⟨normal_provenance provenance, own column provenance⟩
    have provenance : ∀ column ∈ provenanceCols,
        column ∈ (targetColumns (ddl.pgTable.table base p.target)).map ColumnInfo.name :=
      fun column member => (mem_target laysOut).mpr (Or.inr member)
    refine ⟨?_, ?_, ?_, ?_, distinguished, ?_, ?_⟩
    · rw [conflicts]
      exact primaryKey_ne_nil laysOut
    · intro req column copied
      exact fine column (mem_of_copied provenance copied)
    · intro column selected
      rcases List.mem_append.mp selected with inserted | key
      · exact fine column (mem_insertCols.mp inserted).1
      · rw [conflicts] at key
        exact fine column (mem_target_of_key clean laysOut keyed key)
    · exact ⟨schema, schemaFree⟩
    · intro column updated
      rcases List.mem_append.mp updated with set | compared
      · exact (fine column (mem_of_updated set)).2
      · exact (fine column (mem_of_updated (distinctCols_subset compared))).2
    · intro usage member _
      obtain ⟨column, key, rfl⟩ := List.mem_map.mp member
      exact inserted_of_key clean laysOut keyed free key

end

/-- The statement of an approval on Postgres that succeeds. -/
theorem approveIn_ok {s : State} {id reviewer : Str} {override : Option BackendKind}
    {outage : Option Outage} {p : Proposal} {answer : Json} (catalogue : Catalogue)
    (pending : s.db.proposals.find? (isPending id) = some p)
    (onto : override.getD (BackendKind.ofStrOrPg p.suggestedBackend) = .postgres)
    (approved : (approve deployment id reviewer override outage s).1 = .ok answer) :
    ∃ ddl, buildCreateTable deployment.crates.unicode p = .ok ddl ∧
      approveIn deployment id override outage s catalogue = createIn ddl catalogue := by
  rw [approve, pending] at approved
  simp only [onto, reduceCtorEq, decide_false, Bool.false_and, Bool.false_eq_true, if_false]
    at approved
  cases built : buildCreateTable deployment.crates.unicode p with
  | error error =>
    rw [built] at approved
    cases approved
  | ok ddl =>
    rw [built] at approved
    dsimp only at approved
    split_ifs at approved with taken
    have taken' : creatable .postgres ddl (s.db.pgTables (ddl.schema, ddl.table)).isSome = true := by
      simpa [Db.tablesOn] using taken
    rcases outage with _ | _ | _
    · refine ⟨ddl, rfl, ?_⟩
      rw [approveIn, pending]
      simp only [onto, built, taken', if_true]
    · cases approved
    · cases approved

/-- The merge engine can write the table of an approval onto Postgres exactly where the table was
there and could be written, or the negotiated key is not empty and without `id`, no name is a
reserved word, and the table is not called `excluded`. The words that the engine writes itself are
not reserved. -/
theorem mergeable_iff_keyed {reserved : Str → Bool}
    (own : ∀ column ∈ provenanceCols, reserved column = false) {p : Proposal}
    (negotiated : Negotiated deployment p) {s : State} {id reviewer : Str}
    {override : Option BackendKind} {outage : Option Outage} {answer : Json}
    (catalogue : Catalogue) (base : Table V)
    (pending : s.db.proposals.find? (isPending id) = some p)
    (onto : override.getD (BackendKind.ofStrOrPg p.suggestedBackend) = .postgres)
    (approved : (approve deployment id reviewer override outage s).1 = .ok answer) :
    ∃ pg, approveIn deployment id override outage s catalogue p.target = some pg ∧
      (Mergeable deployment.crates.unicode reserved (pg.table base p.target) pg.usages ↔
        (∀ old, catalogue p.target = some old →
          Mergeable deployment.crates.unicode reserved (old.table base p.target) old.usages) ∧
        (catalogue p.target = none →
          p.inferredKey ≠ [] ∧ "id".str ∉ p.inferredKey ∧ p.declaredTable ≠ "excluded".str ∧
            reserved p.declaredSchema = false ∧
              ∀ column ∈ p.inferredSchema.map Prod.fst, reserved column = false)) := by
  obtain ⟨ddl, built, created⟩ := approveIn_ok catalogue pending onto approved
  obtain ⟨clean, schema, -⟩ := negotiated.clean
  have laysOut := negotiated.laysOut built
  have target : (ddl.schema, ddl.table) = p.target := by
    rw [laysOut.schema, laysOut.table, Proposal.target]
  rw [created, createIn, target]
  cases existing : catalogue p.target with
  | some old =>
    refine ⟨old, by rw [Option.isSome_some, if_pos rfl, existing], ?_⟩
    constructor
    · intro mergeable
      exact ⟨fun other same => Option.some.inj same ▸ mergeable, fun absent => (by cases absent)⟩
    · intro condition
      exact condition.1 old rfl
  | none =>
    refine ⟨ddl.pgTable, ?_, ?_⟩
    · rw [Option.isSome_none, if_neg Bool.false_ne_true, Function.update_self]
    · rw [mergeable_created own clean schema laysOut]
      constructor
      · intro condition
        exact ⟨fun old same => (by cases same), fun _ => condition⟩
      · intro condition
        exact condition.2 rfl

/-! ## Two proposals -/

/-- A database without tables. -/
def noTables : Db where
  pgTables _ := none
  chTables _ := none
  tableBackend _ := none
  acl := []
  proposals := []

/-- The process after a proposal is made from some records. -/
def proposedFrom (records : List Json) : Option State :=
  match create postgresOnly noTables "md".str "quote".str "producer".str "bob".str records
      "p1".str with
  | .ok (_, db) => some ⟨db, fun _ => none, fun _ => none, none⟩
  | .error _ => none

/-- The answer to an approval. -/
def approval (s : State) : Option Json :=
  match (approve postgresOnly "p1".str "ann".str none none s).1 with
  | .ok answer => some answer
  | .error _ => none

theorem approve_of_approval {s : State} (succeeds : (approval s).isSome = true) :
    ∃ answer, (approve postgresOnly "p1".str "ann".str none none s).1 = .ok answer := by
  rw [approval] at succeeds
  split at succeeds
  · rename_i answer approved
    exact ⟨answer, approved⟩
  · cases succeeds

/-- What is proposed is negotiated. -/
theorem proposedFrom_negotiated {records : List Json} {s : State} {p : Proposal}
    (proposed : proposedFrom records = some s)
    (pending : s.db.proposals.find? (isPending "p1".str) = some p) :
    Negotiated postgresOnly p := by
  rw [proposedFrom] at proposed
  split at proposed
  · rename_i answer db made
    obtain rfl := Option.some.inj proposed
    obtain ⟨q, -, -, -, rfl⟩ := create_ok made
    have member : p ∈ [q] := List.mem_of_find?_eq_some pending
    obtain rfl := List.mem_singleton.mp member
    exact .created made rfl
  · cases proposed

/-- Quotes with a symbol that names them. -/
def symbolQuotes : List Json :=
  [.object [("price".str, .ofNat 7), ("symbol_id".str, .string "A".str)]]

/-- Quotes with an `id`. -/
def idQuotes : List Json := [.object [("id".str, .ofNat 1), ("price".str, .ofNat 7)]]

/-- Some reserved words of Postgres. -/
def reservedWord (name : Str) : Bool := ["order".str, "select".str, "user".str].contains name

/-- A table in which nothing is. -/
def emptyTable : Table Str := textTable [] [] (fun _ _ => none)

/-- The table for quotes with a symbol can be written. -/
theorem symbolQuotes_mergeable : ∃ s p pg, proposedFrom symbolQuotes = some s ∧
    s.db.proposals.find? (isPending "p1".str) = some p ∧
    approveIn postgresOnly "p1".str none none s (fun _ => none) p.target = some pg ∧
    Mergeable postgresOnly.crates.unicode reservedWord (pg.table emptyTable p.target) pg.usages := by
  have ran : ((proposedFrom symbolQuotes).bind (fun s =>
      (s.db.proposals.find? (isPending "p1".str)).map (fun p =>
        ((approval s).isSome && BackendKind.ofStrOrPg p.suggestedBackend == .postgres,
          p.inferredKey, p.inferredSchema.map Prod.fst, p.declaredSchema, p.declaredTable)))) =
      some (true, ["symbol_id".str], ["price".str, "symbol_id".str], "md".str, "quote".str) := by
    decide +kernel
  obtain ⟨s, proposed, found⟩ := Option.bind_eq_some_iff.mp ran
  obtain ⟨p, pending, observed⟩ := Option.map_eq_some_iff.mp found
  simp only [Prod.mk.injEq, Bool.and_eq_true, beq_iff_eq] at observed
  obtain ⟨⟨succeeds, suggested⟩, key, names, schema, table⟩ := observed
  have onto : (none : Option BackendKind).getD (BackendKind.ofStrOrPg p.suggestedBackend) =
      .postgres := suggested
  obtain ⟨answer, approved⟩ := approve_of_approval succeeds
  have own : ∀ column ∈ provenanceCols, reservedWord column = false := by decide
  obtain ⟨pg, created, mergeable⟩ := mergeable_iff_keyed own
    (proposedFrom_negotiated proposed pending) (fun _ => none) emptyTable pending onto approved
  refine ⟨s, p, pg, proposed, pending, created, mergeable.mpr ⟨fun old absent => ?_, fun _ => ?_⟩⟩
  · cases absent
  · rw [key, names, schema, table]
    decide

/-- The table for quotes with an `id` has it in its primary key, and cannot. -/
theorem idQuotes_unmergeable : ∃ s p answer pg, Negotiated postgresOnly p ∧
    s.db.proposals.find? (isPending "p1".str) = some p ∧
    (approve postgresOnly "p1".str "ann".str none none s).1 = .ok answer ∧
    approveIn postgresOnly "p1".str none none s (fun _ => none) p.target = some pg ∧
    (⟨"id".str, "PRIMARY KEY".str, "quote_pkey".str⟩ : KeyUsage) ∈ pg.usages ∧
    ¬Mergeable postgresOnly.crates.unicode reservedWord (pg.table emptyTable p.target) pg.usages := by
  have ran : ((proposedFrom idQuotes).bind (fun s =>
      (s.db.proposals.find? (isPending "p1".str)).bind (fun p =>
        (approveIn postgresOnly "p1".str none none s (fun _ => none) p.target).map (fun pg =>
          ((approval s).isSome, pg.usages))))) =
      some (true, [⟨"id".str, "PRIMARY KEY".str, "quote_pkey".str⟩,
        ⟨"source".str, "PRIMARY KEY".str, "quote_pkey".str⟩]) := by
    decide +kernel
  obtain ⟨s, proposed, found⟩ := Option.bind_eq_some_iff.mp ran
  obtain ⟨p, pending, approval⟩ := Option.bind_eq_some_iff.mp found
  obtain ⟨pg, created, observed⟩ := Option.map_eq_some_iff.mp approval
  simp only [Prod.mk.injEq] at observed
  obtain ⟨succeeds, usages⟩ := observed
  obtain ⟨answer, approved⟩ := approve_of_approval succeeds
  have primary : (⟨"id".str, "PRIMARY KEY".str, "quote_pkey".str⟩ : KeyUsage) ∈ pg.usages := by
    rw [usages]
    exact List.mem_cons_self
  refine ⟨s, p, answer, pg, proposedFrom_negotiated proposed pending, pending,
    approved, created, primary, fun mergeable => ?_⟩
  exact (mem_insertCols.mp (mergeable.primary _ primary rfl).1).2 rfl

end LumidPlatform.Ingest.Writable
