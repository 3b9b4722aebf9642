import LumidPlatform.Ingest.WriteAuthority
import LumidPlatform.Write.Engine

/-!
# Negotiated schemas and the tables made from them

A proposal is created from records and countered any number of times; each time its columns
and its key are brought into a normal form. The table that an approval creates has these
columns, those of the provenance, and a primary key of the negotiated key and the source, or
an identity column where there is no key.
-/

namespace LumidPlatform.Ingest

open LumidPlatform.Write LumidPlatform.Write.Engine

variable {deployment : Deployment} {unicode : Unicode}

/-! ## Normal schemas -/

/-- Names that are normal, and none of a column that the platform adds itself. -/
def CleanNames (unicode : Unicode) (names : List Str) : Prop :=
  ∀ name ∈ names, Normal unicode name ∧ name ∉ provenanceCols

/-- The columns of a proposal are clean, and its key is among them, with `id` if there is such a
column. -/
structure Clean (unicode : Unicode) (p : Proposal) : Prop where
  names : CleanNames unicode (p.inferredSchema.map Prod.fst)
  key : ∀ name ∈ p.inferredKey, name ∈ p.inferredSchema.map Prod.fst
  id : "id".str ∈ p.inferredSchema.map Prod.fst → "id".str ∈ p.inferredKey

theorem mem_push {columns : Columns} {column name : Str} {value : Json} :
    name ∈ (columns.push column value).map Prod.fst ↔
      name = column ∨ name ∈ columns.map Prod.fst := by
  induction columns with
  | nil => simp [Columns.push]
  | cons entry rest inductionHypothesis =>
    obtain ⟨first, values⟩ := entry
    rw [Columns.push]
    split_ifs with same below
    · subst same
      simp
    · simp
    · rw [List.map_cons, List.mem_cons, inductionHypothesis, List.map_cons, List.mem_cons]
      tauto

/-- A usable key of a record adds its normal form to the columns, any other adds nothing. -/
theorem mem_collectEntry {collected : Columns × List Str} {entry : Str × Json} {name : Str} :
    name ∈ (collectEntry unicode collected entry).1.map Prod.fst ↔
      (normIdent unicode entry.1 = some name ∧ name ∉ provenanceCols) ∨
        name ∈ collected.1.map Prod.fst := by
  rw [collectEntry]
  split
  · rename_i c normal
    split_ifs with reserved
    · rw [List.contains_iff_mem] at reserved
      rw [normal, Option.some.injEq]
      constructor
      · exact Or.inr
      · rintro (⟨rfl, free⟩ | old)
        · exact absurd reserved free
        · exact old
    · rw [List.contains_iff_mem] at reserved
      rw [mem_push, normal, Option.some.injEq]
      constructor
      · rintro (rfl | old)
        · exact Or.inl ⟨rfl, reserved⟩
        · exact Or.inr old
      · rintro (⟨rfl, -⟩ | old)
        · exact Or.inl rfl
        · exact Or.inr old
  · rename_i none
    rw [none]
    split_ifs
    · simp
    · simp

theorem mem_collectEntries {collected : Columns × List Str} {record : JsonMap} {name : Str} :
    name ∈ (record.foldl (collectEntry unicode) collected).1.map Prod.fst ↔
      (∃ entry ∈ record, normIdent unicode entry.1 = some name ∧ name ∉ provenanceCols) ∨
        name ∈ collected.1.map Prod.fst := by
  induction record generalizing collected with
  | nil => simp
  | cons entry rest inductionHypothesis =>
    rw [List.foldl_cons, inductionHypothesis, mem_collectEntry]
    simp only [List.mem_cons, exists_eq_or_imp]
    exact or_left_comm.trans or_assoc.symm

/-- The columns collected from records are the normal forms of their keys, apart from those of
the provenance. -/
theorem mem_collectColumns {records : List Json} {name : Str} :
    name ∈ (collectColumns unicode records).1.map Prod.fst ↔
      ∃ record ∈ records.filterMap Json.asObject?, ∃ entry ∈ record,
        normIdent unicode entry.1 = some name ∧ name ∉ provenanceCols := by
  have collected (members : List JsonMap) (start : Columns × List Str) :
      name ∈ (members.foldl (fun collected record =>
          record.foldl (collectEntry unicode) collected) start).1.map Prod.fst ↔
        (∃ record ∈ members, ∃ entry ∈ record,
          normIdent unicode entry.1 = some name ∧ name ∉ provenanceCols) ∨
          name ∈ start.1.map Prod.fst := by
    induction members generalizing start with
    | nil => simp
    | cons record rest inductionHypothesis =>
      rw [List.foldl_cons, inductionHypothesis, mem_collectEntries]
      simp only [List.mem_cons, exists_eq_or_imp]
      exact or_left_comm.trans or_assoc.symm
  rw [collectColumns, collected]
  simp

/-- The natural key is made of columns, is there if there are any, and has `id` if that is one
of them. -/
theorem inferNaturalKey_facts (names : List Str) :
    (∀ name ∈ inferNaturalKey names, name ∈ names) ∧
      (names ≠ [] → inferNaturalKey names ≠ []) ∧
      ("id".str ∈ names → "id".str ∈ inferNaturalKey names) := by
  rw [inferNaturalKey]
  dsimp only
  split_ifs with none
  · exact ⟨fun name member => member, id, id⟩
  · refine ⟨?_, ?_, ?_⟩
    · intro name member
      rcases List.mem_append.mp member with entity | time
      · exact (List.mem_filter.mp entity).1
      · rw [Option.mem_toList] at time
        exact List.contains_iff_mem.mp (List.find?_some time)
    · intro _ empty
      rw [List.append_eq_nil_iff] at empty
      rw [empty.1] at none
      exact none rfl
    · intro member
      exact List.mem_append_left _ (List.mem_filter.mpr ⟨member, by decide⟩)

/-- What `create` infers is clean and has a key. -/
theorem create_clean {db db' : Db} {schema table role sub newId : Str} {records : List Json}
    {answer : Json} {p : Proposal}
    (made : create deployment db schema table role sub records newId = .ok (answer, db'))
    (appended : db'.proposals = db.proposals ++ [p]) :
    Clean deployment.crates.unicode p ∧ p.inferredKey ≠ [] ∧
      Normal deployment.crates.unicode p.declaredSchema ∧
      Normal deployment.crates.unicode p.declaredTable ∧
      p.inferredSchema.map Prod.fst =
        (collectColumns deployment.crates.unicode records).1.map Prod.fst := by
  rw [create] at made
  dsimp only at made
  split at made
  · cases made
  · cases made
  · rename_i schemaN tableN schemaNormal tableNormal
    split_ifs at made with empty
    obtain ⟨-, rfl⟩ := Prod.mk.inj (Except.ok.inj made)
    obtain rfl := List.singleton_inj.mp (List.append_cancel_left appended)
    obtain ⟨inside, filled, idKey⟩ := inferNaturalKey_facts
      ((collectColumns deployment.crates.unicode records).1.map Prod.fst)
    have names : ((collectColumns deployment.crates.unicode records).1.map (fun column =>
        (column.1, Json.string (inferType column.2)))).map Prod.fst =
          (collectColumns deployment.crates.unicode records).1.map Prod.fst := by
      rw [List.map_map]
      rfl
    refine ⟨⟨?_, ?_, ?_⟩, ?_, normal_of_normIdent schemaNormal, normal_of_normIdent tableNormal,
      names⟩
    · intro name member
      rw [names] at member
      obtain ⟨record, -, entry, -, normal, free⟩ := mem_collectColumns.mp member
      exact ⟨normal_of_normIdent normal, free⟩
    · intro name member
      rw [names]
      exact inside name member
    · intro member
      rw [names] at member
      exact idKey member
    · apply filled
      rw [ne_eq, List.map_eq_nil_iff]
      rintro none
      rw [none] at empty
      exact empty rfl

/-! ## Countered schemas -/

theorem mem_insert {map : JsonMap} {key name : Str} {value : Json} :
    name ∈ (JsonMap.insert key value map).map Prod.fst ↔
      name = key ∨ name ∈ map.map Prod.fst := by
  induction map with
  | nil => simp [JsonMap.insert]
  | cons entry rest inductionHypothesis =>
    obtain ⟨first, old⟩ := entry
    rw [JsonMap.insert]
    split_ifs with same
    · subst same
      simp
    · rw [List.map_cons, List.mem_cons, inductionHypothesis, List.map_cons, List.mem_cons]
      tauto

theorem get_isSome_iff {map : JsonMap} {name : Str} :
    (JsonMap.get map name).isSome = true ↔ name ∈ map.map Prod.fst := by
  rw [JsonMap.get]
  induction map with
  | nil => simp
  | cons entry rest inductionHypothesis =>
    obtain ⟨first, value⟩ := entry
    rw [List.lookup_cons, List.map_cons, List.mem_cons]
    cases same : name == first with
    | true => simp [beq_iff_eq.mp same]
    | false =>
      rw [beq_eq_false_iff_ne] at same
      rw [inductionHypothesis, or_iff_right same]

/-- Inserting the entries with a clean name keeps the names clean. -/
theorem insert_clean (entries start : JsonMap)
    (clean : ∀ name ∈ start.map Prod.fst, Normal unicode name ∧ name ∉ reservedCols)
    (typeOf : Json → Str) :
    ∀ name ∈ (entries.foldl (fun out (entry : Str × Json) =>
        match normIdent unicode entry.1 with
        | some cn =>
          if reservedCols.contains cn then out
          else JsonMap.insert cn (.string (typeOf entry.2)) out
        | none => out) start).map Prod.fst, Normal unicode name ∧ name ∉ reservedCols := by
  induction entries generalizing start with
  | nil => exact clean
  | cons entry rest inductionHypothesis =>
    rw [List.foldl_cons]
    apply inductionHypothesis
    split
    · rename_i cn normal
      split_ifs with reserved
      · exact clean
      · rw [List.contains_iff_mem] at reserved
        intro name member
        rcases mem_insert.mp member with rfl | old
        · exact ⟨normal_of_normIdent normal, reserved⟩
        · exact clean name old
    · exact clean

/-- What `validate` returns has normal names, none of them reserved, and a key among them. -/
theorem validate_clean {columns : Json} {key : List Str} {result : JsonMap × List Str}
    (validated : validate unicode columns key = .ok result) :
    (∀ name ∈ result.1.map Prod.fst, Normal unicode name ∧ name ∉ reservedCols) ∧
      ∀ name ∈ result.2, name ∈ result.1.map Prod.fst := by
  rw [validate] at validated
  split at validated
  · cases validated
  · rename_i proposed isObject
    dsimp only at validated
    split_ifs at validated with empty
    obtain rfl := Except.ok.inj validated
    constructor
    · exact insert_clean proposed [] (fun name member => by cases member) (fun ty =>
        let wanted := unicode.toLowercase (Text.trim (ty.asStr?.getD "text".str))
        if allowedTypes.contains wanted then wanted else "text".str)
    · intro name member
      exact get_isSome_iff.mp (List.mem_filter.mp member).2

/-! ## Negotiations -/

/-- A proposal as `create` and any number of calls of `counter` leave it. What the language model
makes of one went through `validate`. -/
inductive Negotiated (deployment : Deployment) : Proposal → Prop where
  | created {db db' : Db} {schema table role sub newId : Str} {records : List Json} {answer : Json}
      {p : Proposal} (made : create deployment db schema table role sub records newId =
        .ok (answer, db')) (appended : db'.proposals = db.proposals ++ [p]) :
      Negotiated deployment p
  | countered {db db' : Db} {id : Str} {columns : Json} {key : List Str}
      {refined : Option (JsonMap × List Str)} {answer : Json} {p p' : Proposal} {place : Nat}
      (earlier : Negotiated deployment p) (row : db.proposals[place]? = some p)
      (validated : ∀ result, refined = some result → ∃ columns key,
        validate deployment.crates.unicode columns key = .ok result)
      (made : counter deployment db id columns key refined = .ok (answer, db'))
      (row' : db'.proposals[place]? = some p') : Negotiated deployment p'

/-- A counter-proposal leaves a row, or gives it the columns and the key of a validated schema. -/
theorem counter_row {db db' : Db} {id : Str} {columns : Json} {key : List Str}
    {refined : Option (JsonMap × List Str)} {answer : Json} {p p' : Proposal} {place : Nat}
    (row : db.proposals[place]? = some p)
    (validated : ∀ result, refined = some result → ∃ columns key,
      validate deployment.crates.unicode columns key = .ok result)
    (made : counter deployment db id columns key refined = .ok (answer, db'))
    (row' : db'.proposals[place]? = some p') :
    p' = p ∨ ∃ columns key result, validate deployment.crates.unicode columns key = .ok result ∧
      p' = { p with inferredSchema := result.1, inferredKey := result.2 } := by
  rw [counter] at made
  cases valid : validate deployment.crates.unicode columns key with
  | error text =>
    rw [valid] at made
    cases made
  | ok builder =>
    rw [valid] at made
    dsimp only at made
    rw [updatePending] at made
    by_cases pending : db.proposals.any (isPending id) = true
    case neg =>
      rw [if_neg pending] at made
      cases made
    rw [if_pos pending] at made
    obtain ⟨-, rfl⟩ := Prod.mk.inj (Except.ok.inj made)
    simp only [List.getElem?_map, row, Option.map_some, Option.some.injEq] at row'
    split_ifs at row' with here
    · right
      cases refined with
      | none => exact ⟨columns, key, builder, valid, row'.symm⟩
      | some result =>
        obtain ⟨columns', key', valid'⟩ := validated result rfl
        exact ⟨columns', key', result, valid', row'.symm⟩
    · exact Or.inl row'.symm

/-- What a negotiation keeps: a clean schema, for a table of normal names. -/
theorem Negotiated.clean {p : Proposal} (negotiated : Negotiated deployment p) :
    Clean deployment.crates.unicode p ∧ Normal deployment.crates.unicode p.declaredSchema ∧
      Normal deployment.crates.unicode p.declaredTable := by
  induction negotiated with
  | created made appended =>
    obtain ⟨clean, -, schema, table, -⟩ := create_clean made appended
    exact ⟨clean, schema, table⟩
  | countered earlier row validated made row' inductionHypothesis =>
    obtain ⟨clean, schema, table⟩ := inductionHypothesis
    rcases counter_row row validated made row' with rfl | ⟨columns, key, result, valid, rfl⟩
    · exact ⟨clean, schema, table⟩
    · obtain ⟨names, inside⟩ := validate_clean valid
      refine ⟨⟨?_, inside, ?_⟩, schema, table⟩
      · intro name member
        obtain ⟨normal, free⟩ := names name member
        exact ⟨normal, fun provenance => free (List.mem_append_left _ provenance)⟩
      · intro member
        exact absurd (by decide) (names "id".str member).2

/-! ## The statement that creates a table -/

/-- A map that succeeds on every element. -/
theorem mapM_eq_ok {α β : Type} {f : α → ApiResult β} {g : α → β} {items : List α}
    (succeeds : ∀ item ∈ items, f item = .ok (g item)) : items.mapM f = .ok (items.map g) := by
  induction items with
  | nil => rfl
  | cons item rest inductionHypothesis =>
    rw [List.mapM_cons, succeeds item List.mem_cons_self,
      inductionHypothesis (fun later member => succeeds later (List.mem_cons_of_mem _ member))]
    rfl

/-- A statement has the columns of the proposal and of the provenance, and the negotiated key. -/
structure LaysOut (p : Proposal) (ddl : CreateTable) : Prop where
  schema : ddl.schema = p.declaredSchema
  table : ddl.table = p.declaredTable
  columns : ddl.columns.map Prod.fst = p.inferredSchema.map Prod.fst ++ provenanceCols
  primaryKey : ddl.primaryKey =
    if p.inferredKey = [] then ["id".str] else p.inferredKey ++ ["source".str]

/-- A column of a proposal with its type in the statement. -/
def typed (entry : Str × Json) : Str × Str :=
  let ty := entry.2.asStr?.getD "text".str
  (entry.1, if allowedTypes.contains ty then ty else "text".str)

/-- A clean key is left as it is. -/
theorem Clean.key_normal {p : Proposal} (clean : Clean unicode p) :
    (p.inferredKey.filterMap (normIdent unicode)).filter
      (fun k => (JsonMap.get p.inferredSchema k).isSome) = p.inferredKey := by
  have normal : p.inferredKey.filterMap (normIdent unicode) = p.inferredKey := by
    calc p.inferredKey.filterMap (normIdent unicode)
        = p.inferredKey.filterMap some :=
          List.filterMap_congr fun name member => (clean.names name (clean.key name member)).1
      _ = p.inferredKey := List.filterMap_some
  rw [normal, List.filter_eq_self]
  intro name member
  exact get_isSome_iff.mpr (clean.key name member)

theorem columns_typed {p : Proposal} (clean : Clean unicode p) :
    p.inferredSchema.mapM (fun entry : Str × Json =>
        (match normIdent unicode entry.1 with
        | none => .error (.badRequest ("bad column ".str ++ unicode.debug entry.1))
        | some c =>
          let ty := entry.2.asStr?.getD "text".str
          .ok (c, if allowedTypes.contains ty then ty else "text".str) : ApiResult (Str × Str))) =
      .ok (p.inferredSchema.map typed) := by
  apply mapM_eq_ok
  intro entry member
  rw [(clean.names entry.1 (List.mem_map_of_mem member)).1]
  rfl

theorem buildCreateTable_eq {p : Proposal} (clean : Clean unicode p)
    (schema : Normal unicode p.declaredSchema) (table : Normal unicode p.declaredTable) :
    buildCreateTable unicode p = .ok {
      schema := p.declaredSchema
      table := p.declaredTable
      columns := p.inferredSchema.map typed ++
        [("source".str, "text".str), ("source_endpoint".str, "text".str),
          ("source_run_id".str, "uuid".str), ("ingest_ts".str, "timestamptz".str),
          ("raw".str, "jsonb".str)]
      primaryKey :=
        if p.inferredKey = [] then ["id".str] else p.inferredKey ++ ["source".str] } := by
  rw [buildCreateTable, schema, table]
  refine ApiResult.bind_eq_ok.mpr ⟨_, columns_typed clean, ?_⟩
  rw [clean.key_normal]
  simp only [List.isEmpty_iff]

theorem buildCreateTable_clean {p : Proposal} (clean : Clean unicode p)
    (schema : Normal unicode p.declaredSchema) (table : Normal unicode p.declaredTable) :
    ∃ ddl, buildCreateTable unicode p = .ok ddl ∧ LaysOut p ddl := by
  refine ⟨_, buildCreateTable_eq clean schema table, ⟨rfl, rfl, ?_, rfl⟩⟩
  rw [List.map_append, List.map_map]
  rfl

/-- The statement for a negotiated proposal. -/
theorem Negotiated.laysOut {p : Proposal} {ddl : CreateTable}
    (negotiated : Negotiated deployment p)
    (built : buildCreateTable deployment.crates.unicode p = .ok ddl) : LaysOut p ddl := by
  obtain ⟨clean, schema, table⟩ := negotiated.clean
  obtain ⟨ddl', built', laysOut⟩ := buildCreateTable_clean clean schema table
  obtain rfl := Except.ok.inj (built'.symm.trans built)
  exact laysOut

/-! ## Created tables -/

/-- A table in the catalogue of Postgres: its columns, and those of its constraints in the order
in which `get_unique_columns` asks for them. -/
structure PgTable where
  columns : List TableColumn
  usages : List KeyUsage

/-- The `data_type` of a type under the name that a statement gives it. -/
def dataTypeOf (ty : Str) : Str :=
  if ty = "timestamptz".str then "timestamp with time zone".str else ty

/-- A column of the statement in the catalogue. What is in the primary key is `NOT NULL`, as is
the provenance apart from `raw`. -/
def CreateTable.column (ddl : CreateTable) (entry : Str × Str) : TableColumn where
  name := entry.1
  dataType := dataTypeOf entry.2
  isNullable := !(ddl.primaryKey ++ ["source".str, "source_endpoint".str, "source_run_id".str,
    "ingest_ts".str]).contains entry.1
  hasDefault := entry.1 == "ingest_ts".str
  isGenerated := false
  identityGeneration := none

/-- `id bigint GENERATED ALWAYS AS IDENTITY`. -/
def surrogateId : TableColumn where
  name := "id".str
  dataType := "bigint".str
  isNullable := false
  hasDefault := false
  isGenerated := false
  identityGeneration := some .always

/-- The table that the statement creates on Postgres. -/
def CreateTable.pgTable (ddl : CreateTable) : PgTable where
  columns := (if ddl.primaryKey = ["id".str] then [surrogateId] else []) ++
    ddl.columns.map ddl.column
  usages := ddl.primaryKey.map (fun name => ⟨name, "PRIMARY KEY".str, ddl.table ++ "_pkey".str⟩)

/-- `pg_type_to_ch`. -/
def pgTypeToCh (pg : Str) : Str :=
  if pg = "bigint".str then "Int64".str
  else if pg = "double precision".str then "Float64".str
  else if pg = "boolean".str then "Bool".str
  else "String".str

/-- What `table_meta` reads of the table that is created on ClickHouse, where no column is
nullable or has a default. The rows are sorted by the key and the source. -/
def CreateTable.chMeta (ddl : CreateTable) : TableMeta where
  columns := ddl.columns.map (fun entry => {
    name := entry.1
    dataType := if entry.1 = "ingest_ts".str then "DateTime64(6)".str else pgTypeToCh entry.2
    isNullable := false
    hasDefault := false })
  conflictCols := if ddl.primaryKey = ["id".str] then ["source".str] else ddl.primaryKey

section

variable {V : Type}

/-- A table of the catalogue under its name, with what Postgres does besides. -/
def PgTable.table (base : Table V) (name : TableName) (pg : PgTable) : Table V :=
  { base with
    schema := name.1
    name := name.2
    columns := pg.columns
    uniques := (pg.usages.foldl addUsage []).map Prod.snd }

/-- What `table_meta` reads of a table on Postgres. -/
def PgTable.tableMeta (pg : PgTable) (base : Table V) (name : TableName) : TableMeta :=
  metaOf (pg.table base name) (getUniqueColumns pg.usages)

variable {base : Table V} {name : TableName} {ddl : CreateTable}

/-- All columns of the statement can be written, and no other. -/
theorem targetColumns_created : targetColumns (ddl.pgTable.table base name) =
    ddl.columns.map (fun entry => (ddl.column entry).toColumnInfo) := by
  have plain : (ddl.columns.map ddl.column).filter (fun column => !column.isGenerated &&
      column.identityGeneration != some .always) = ddl.columns.map ddl.column := by
    rw [List.filter_eq_self]
    intro column member
    obtain ⟨entry, -, rfl⟩ := List.mem_map.mp member
    rfl
  have surrogate : (if ddl.primaryKey = ["id".str] then [surrogateId] else []).filter
      (fun column => !column.isGenerated && column.identityGeneration != some .always) = [] := by
    split_ifs
    · rfl
    · rfl
  rw [targetColumns, PgTable.table, CreateTable.pgTable, List.filter_append, surrogate,
    List.nil_append, plain, List.map_map]
  rfl

theorem targetNames_created : (targetColumns (ddl.pgTable.table base name)).map ColumnInfo.name =
    ddl.columns.map Prod.fst := by
  rw [targetColumns_created, List.map_map]
  rfl

/-- The natural key of a created table is its primary key. -/
theorem conflictCols_created (some_col : ddl.primaryKey ≠ []) :
    getUniqueColumns ddl.pgTable.usages = ddl.primaryKey := by
  have primary : ("PRIMARY KEY".str, ddl.table ++ "_pkey".str).1 ≠ "UNIQUE".str :=
    show "PRIMARY KEY".str ≠ "UNIQUE".str by decide
  exact getUniqueColumns_single primary some_col

end

end LumidPlatform.Ingest
