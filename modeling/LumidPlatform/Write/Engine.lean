import Mathlib.Data.List.Nodup
import Mathlib.Data.List.Sort
import LumidPlatform.Error
import LumidPlatform.Lib.Upsert
import LumidPlatform.Write.Coerce

/-!
# The merge engine

Records are copied into a staging table that is made like the target, and merged from there
into the target by one statement: the last staged row of each key is inserted, or updates
the row that has its key. The statement is put together from the columns of the target and
from its natural key. The statements themselves run on Postgres, which is modelled as far
as they go: a value stands for all that the equality of its type does not tell apart, and
what types read, what defaults yield and which rows are refused besides is left open.
-/

namespace LumidPlatform.Write.Engine

/-! ## Tables -/

/-- `identity_generation`. -/
inductive IdentityGeneration where
  | always
  | byDefault
  deriving DecidableEq

/-- A column in the information schema. -/
structure TableColumn extends ColumnInfo where
  /-- `is_generated = 'ALWAYS'`. -/
  isGenerated : Bool
  identityGeneration : Option IdentityGeneration
  deriving DecidableEq

/-- A row, by the names of its columns. Generated columns follow from the others and are left
out. -/
abbrev Row (V : Type) := Str → Option V

/-- A table, and what Postgres does with it. -/
structure Table (V : Type) where
  schema : Str
  name : Str
  columns : List TableColumn
  /-- The columns of its `UNIQUE` and `PRIMARY KEY` constraints. -/
  uniques : List (List Str)
  /-- The type of a column reads a text, in a transaction that began at a moment: `'now'` and
  `'today'` are other values later. -/
  input : ColumnInfo → Str → Nat → Option V
  /-- What a column that is not written gets at a moment: its default, or the next number of
  its identity. -/
  default_ : Str → Nat → Option V
  /-- The order of rows by some columns. -/
  before : List Str → Row V → Row V → Bool
  /-- Other constraints on a row: checks and foreign keys. -/
  admits : Row V → Bool

variable {V : Type} (table : Table V)

/-- `get_target_columns`. -/
def targetColumns : List ColumnInfo :=
  (table.columns.filter (fun column => !column.isGenerated &&
    column.identityGeneration != some .always)).map TableColumn.toColumnInfo

/-- `generated_columns`. -/
def generatedColumns : List Str :=
  (table.columns.filter (fun column => column.isGenerated ||
    column.identityGeneration.isSome)).map (fun column => column.name)

/-- The staging table: a clone of the target without its generated columns. -/
def stagedColumns : List ColumnInfo :=
  (table.columns.filter (fun column => !(generatedColumns table).contains column.name)).map
    TableColumn.toColumnInfo

/-- The metadata of a table, with a natural key. -/
def metaOf (conflictCols : List Str) : TableMeta := ⟨targetColumns table, conflictCols⟩

/-- A column of a `UNIQUE` or `PRIMARY KEY` constraint. -/
structure KeyUsage where
  columnName : Str
  constraintType : Str
  constraintName : Str
  deriving DecidableEq

/-- The columns of one constraint, by its type and name. -/
abbrev KeyGroup := (Str × Str) × List Str

/-- A column joins the group of its constraint, or opens it. -/
def addUsage (groups : List KeyGroup) (usage : KeyUsage) : List KeyGroup :=
  let key := (usage.constraintType, usage.constraintName)
  if groups.any (fun group => group.1 == key) then
    groups.map (fun group => if group.1 == key then (key, group.2 ++ [usage.columnName]) else group)
  else groups ++ [(key, [usage.columnName])]

/-- `get_unique_columns`, on the usages in the order of its query. -/
def getUniqueColumns (usages : List KeyUsage) : List Str :=
  let groups := usages.foldl addUsage []
  match groups.find? (fun group => group.1.1 == "UNIQUE".str && !group.2.contains "id".str) with
  | some group => group.2
  | none => (groups.head?.map Prod.snd).getD []

/-- A single constraint that is a primary key is the natural key. -/
theorem getUniqueColumns_single {key : Str × Str} (primary : key.1 ≠ "UNIQUE".str)
    {cols : List Str} (some_col : cols ≠ []) :
    getUniqueColumns (cols.map (fun name => ⟨name, key.1, key.2⟩)) = cols := by
  have grouped (before after : List Str) :
      (after.map (fun name => KeyUsage.mk name key.1 key.2)).foldl addUsage [(key, before)] =
        [(key, before ++ after)] := by
    induction after generalizing before with
    | nil => rw [List.map_nil, List.foldl_nil, List.append_nil]
    | cons name rest inductionHypothesis =>
      have joined : addUsage [(key, before)] ⟨name, key.1, key.2⟩ = [(key, before ++ [name])] := by
        simp [addUsage]
      rw [List.map_cons, List.foldl_cons, joined, inductionHypothesis, List.append_assoc,
        List.singleton_append]
  obtain ⟨name, rest, rfl⟩ := List.exists_cons_of_ne_nil some_col
  have opened : addUsage [] ⟨name, key.1, key.2⟩ = [(key, [name])] := by
    simp [addUsage]
  rw [getUniqueColumns, List.map_cons, List.foldl_cons, opened, grouped]
  simp [primary]

/-! ## Staging -/

/-- The arguments of `copy_and_merge` that the caller chooses. -/
structure Call where
  /-- The payload columns. -/
  cols : List Str
  records : List Json
  source : Str
  sourceEndpoint : Str
  sourceRunId : Str
  conflictCols : List Str

def hasIngestTs : Bool := (targetColumns table).any (fun column => column.name == "ingest_ts".str)

/-- The columns of the `COPY`. -/
def fullCols (call : Call) : List Str :=
  call.cols ++ ["source".str, "source_endpoint".str, "source_run_id".str] ++
    if hasIngestTs table then ["ingest_ts".str] else []

/-- `dtype_of`. -/
def dtypeOf (name : Str) : Str :=
  (((targetColumns table).find? (fun column => column.name == name)).map
    ColumnInfo.dataType).getD "text".str

/-- The value of a record at a column. -/
def valueAt (record : Json) (name : Str) : Json :=
  ((record.asObject?.bind (fun members => JsonMap.get members name))).getD .null

/-- The fields of one record. -/
def fieldsOf (coercion : Coercion) (dtype : Str → Str) (call : Call) (ingestTs : Option Str)
    (record : Json) : List Str :=
  call.cols.map (fun name =>
      (cellFor coercion (valueAt record name) (dtype name)).getD nullToken) ++
    [call.source, call.sourceEndpoint, call.sourceRunId] ++ ingestTs.toList

/-- `build_csv`. `COPY` reads the same fields from the text that the writer makes of them; it
has no reason to quote the token. -/
def buildCsv (coercion : Coercion) (dtype : Str → Str) (call : Call) (ingestTs : Option Str) :
    List (List Str) :=
  call.records.map (fieldsOf coercion dtype call ingestTs)

/-- What a column of the staging table holds: the field that was copied, as it is read in the
transaction, or its default at the moment of its line. `none` where its type does not read the
field. -/
def copyValue (entry : Option Str) (column : ColumnInfo) (began moment : Nat) :
    Option (Option V) :=
  match entry with
  | some field =>
    if field = nullToken then some none else (table.input column field began).map some
  | none => some (table.default_ column.name moment)

/-- One line of the `COPY`. The clone keeps the `NOT NULL` constraints of the target. -/
def copyRow (names fields : List Str) (began moment : Nat) : Option (Row V) :=
  let value (column : ColumnInfo) : Option (Option V) :=
    copyValue table ((names.zip fields).lookup column.name) column began moment
  if (stagedColumns table).all (fun column =>
      (value column).any (fun v => v.isSome || column.isNullable)) then
    some (fun name =>
      ((stagedColumns table).find? (fun column => column.name == name)).bind
        (fun column => (value column).join))
  else none

/-- All lines of the `COPY`; the moment moves on with each. -/
def copyRows (names : List Str) (began : Nat) : Nat → List (List Str) → Option (List (Row V))
  | _, [] => some []
  | moment, fields :: rest =>
    match copyRow table names fields began moment, copyRows names began (moment + 1) rest with
    | some row, some rows => some (row :: rows)
    | _, _ => none

/-- The `COPY` names columns of the staging table, each of them once. -/
def copies (names : List Str) : Bool :=
  decide names.Nodup && names.all (fun name =>
    (stagedColumns table).any (fun column => column.name == name))

/-- The staged rows of a call, whose transaction begins with it. -/
def stage (coercion : Coercion) (call : Call) (nowIso : Str) (moment : Nat) :
    Option (List (Row V)) :=
  let names := fullCols table call
  if copies table names then
    copyRows table names moment moment (buildCsv coercion (dtypeOf table) call
      (if hasIngestTs table then some nowIso else none))
  else none

/-! ## The statement -/

/-- `PROV_REFRESH`. -/
def provRefresh : List Str :=
  ["source_endpoint".str, "source_run_id".str, "ingest_ts".str, "raw".str]

/-- `is_prov_or_id`. -/
def isProvOrId (name : Str) : Bool :=
  ["source".str, "source_endpoint".str, "source_run_id".str, "ingest_ts".str, "raw".str,
    "payload".str, "id".str].contains name

/-- The columns in the parts of the merge statement. -/
structure Merge where
  /-- Those that an update sets from the new row. -/
  updateTargets : List Str
  /-- Those of which one has to be distinct. -/
  distinctCols : List Str
  insertCols : List Str
  conflictCols : List Str
  notNullKeys : List Str

/-- `merge`, up to where its statement is sent. -/
def buildMerge (targetCols : List ColumnInfo) (conflictCols : List Str) : Merge :=
  let allCols := targetCols.map ColumnInfo.name
  let flatCols := allCols.filter (fun name => !conflictCols.contains name && !isProvOrId name)
  let payload := if allCols.contains "payload".str then ["payload".str] else []
  { updateTargets := flatCols ++ provRefresh.filter allCols.contains ++ payload
    distinctCols := flatCols ++
      (if allCols.contains "raw".str && !flatCols.contains "raw".str then ["raw".str] else []) ++
      payload
    insertCols := allCols.filter (fun name => name != "id".str)
    conflictCols := conflictCols
    notNullKeys := conflictCols.filter (fun name =>
      !((targetCols.find? (fun column => column.name == name)).map
        ColumnInfo.isNullable).getD true) }

/-- The merge statement of a call. -/
def mergeOf (call : Call) : Merge := buildMerge (targetColumns table) call.conflictCols

/-- The statement names columns of the staging table, and its key is that of a constraint. -/
def prepares (merge : Merge) : Bool :=
  !merge.conflictCols.isEmpty && !merge.updateTargets.isEmpty &&
    (merge.conflictCols ++ merge.insertCols).all (fun name =>
      (stagedColumns table).any (fun column => column.name == name)) &&
    table.uniques.any (fun unique =>
      unique.all merge.conflictCols.contains && merge.conflictCols.all unique.contains)

/-- The values of a row at the columns of a key, if none of them is `NULL`. -/
def keyOf (cols : List Str) (row : Row V) : Option (List V) := cols.mapM row

/-- The values of a row at some columns. -/
def valuesOf (cols : List Str) (row : Row V) : List (Option V) := cols.map row

/-- A row as it would be inserted: columns that the statement leaves out get their own
values. -/
def complete (merge : Merge) (row : Row V) (moment : Nat) : Row V := fun name =>
  if merge.insertCols.contains name then row name
  else if table.columns.any (fun column => column.name == name) then table.default_ name moment
  else none

variable [DecidableEq V]

/-- `SELECT DISTINCT ON … ORDER BY …, ctid DESC`, before it is ordered: of the rows that are
alike in some columns, `NULL` being like `NULL`, the last. -/
def distinctOn (cols : List Str) : List (Row V) → List (Row V)
  | [] => []
  | row :: rest =>
    if rest.any (fun later => valuesOf cols later = valuesOf cols row) then distinctOn cols rest
    else row :: distinctOn cols rest

/-- The rows that the statement selects from the staged ones. -/
def selected (merge : Merge) (staged : List (Row V)) : List (Row V) :=
  (distinctOn merge.conflictCols
    (staged.filter (fun row => merge.notNullKeys.all (fun name => (row name).isSome)))).insertionSort
      (fun row later => table.before merge.conflictCols row later = true)

/-- The rows that the statement proposes for insertion. -/
def proposed (merge : Merge) (staged : List (Row V)) (moment : Nat) : List (Row V) :=
  ((selected table merge staged).zipIdx moment).map
    (fun entry => complete table merge entry.1 entry.2)

/-- A row is complete in its columns and meets the other constraints on it. -/
def rowFits (row : Row V) : Bool :=
  table.columns.all (fun column =>
    column.isNullable || column.isGenerated || (row column.name).isSome) && table.admits row

/-- No two rows have the same key, in any of the constraints. -/
def uniquesHold (rows : List (Row V)) : Bool :=
  table.uniques.all (fun unique => decide (rows.filterMap (keyOf unique)).Nodup)

/-- `ON CONFLICT … DO UPDATE SET … WHERE …`. -/
def rules (merge : Merge) : Upsert.Rules (Row V) (List V) (List (Option V)) where
  key := keyOf merge.conflictCols
  compared := valuesOf merge.distinctCols
  update old new name := if merge.updateTargets.contains name then new name else old name
  accepts rows := rows.all (rowFits table) && uniquesHold table rows

/-! ## Calls -/

inductive MergeError where
  /-- `no columns found for …`. -/
  | noColumns (schema table : Str)
  /-- Postgres refuses a statement. -/
  | refused

/-- What a call leaves: the rows of the table, and what became of each selected row. -/
structure Merged (V : Type) where
  rows : List (Row V)
  outcomes : List Upsert.Outcome

/-- Rows that were freshly inserted, by `xmax = 0`. -/
def Merged.inserted (merged : Merged V) : Nat := merged.outcomes.count .inserted

def Merged.updated (merged : Merged V) : Nat := merged.outcomes.count .updated

/-- No two rows that are proposed have the same key: the statement may not affect a row a
second time. -/
def affectsOnce (merge : Merge) (news : List (Row V)) : Bool :=
  decide (news.filterMap (keyOf merge.conflictCols)).Nodup

/-- `merge`, on the staged rows. -/
def merge (call : Call) (staged rows : List (Row V)) (moment : Nat) :
    Except MergeError (Merged V) :=
  if prepares table (mergeOf table call) &&
      affectsOnce (mergeOf table call) (proposed table (mergeOf table call) staged moment) then
    match Upsert.putAll (rules table (mergeOf table call))
        (proposed table (mergeOf table call) staged moment) rows with
    | some (rows, outcomes) => .ok ⟨rows, outcomes⟩
    | none => .error .refused
  else .error .refused

/-- `copy_and_merge`. It is one transaction: where it fails the rows stay. The moments of the
insertions come after those of the copying. -/
def copyAndMerge (coercion : Coercion) (call : Call) (nowIso : Str) (moment : Nat)
    (rows : List (Row V)) : Except MergeError (Merged V) :=
  if (targetColumns table).isEmpty then .error (.noColumns table.schema table.name)
  else
    match stage table coercion call nowIso moment with
    | some staged => merge table call staged rows (moment + call.records.length)
    | none => .error .refused

/-! ## Writing records -/

/-- The payload columns that `write_records` chooses for a batch. -/
def usableCols (tableMeta : TableMeta) (records : List Json) : List Str :=
  (tableMeta.columns.map ColumnInfo.name).filter (fun name =>
    records.any (fun record => (record.asObject?.getD []).any (fun entry => entry.1 == name)) &&
      !serverStampedCols.contains name)

/-- What `write_records` is given beside the metadata of its table. -/
structure WriteRequest where
  records : List Json
  source : Str
  sourceEndpoint : Str
  sourceRunId : Str

/-- The call that `write_records` makes. -/
def WriteRequest.call (req : WriteRequest) (tableMeta : TableMeta) : Call where
  cols := usableCols tableMeta req.records
  records := req.records
  source := req.source
  sourceEndpoint := req.sourceEndpoint
  sourceRunId := req.sourceRunId
  conflictCols := tableMeta.conflictCols

/-- `PostgresBackend::write_records`. -/
def writeRecords (coercion : Coercion) (tableMeta : TableMeta) (req : WriteRequest) (nowIso : Str)
    (moment : Nat) (rows : List (Row V)) : ApiResult (Nat × Nat) × List (Row V) :=
  if req.records.isEmpty then (.ok (0, 0), rows)
  else if (usableCols tableMeta req.records).isEmpty then
    (.error (.internal ("no usable columns after intersection with ".str ++ table.schema ++
      '.' :: table.name)), rows)
  else if tableMeta.conflictCols.isEmpty then
    (.error (.internal (table.schema ++ '.' :: table.name ++
      " has no UNIQUE/PRIMARY KEY — refusing to upsert".str)), rows)
  else
    match copyAndMerge table coercion (req.call tableMeta) nowIso moment rows with
    | .ok merged => (.ok (merged.inserted, merged.updated), merged.rows)
    | .error (.noColumns schema name) =>
      (.error (.internal ("no columns found for ".str ++ schema ++ '.' :: name)), rows)
    | .error .refused => (.error (.internal "db error".str), rows)

/-! ## The rules of a merge -/

section

variable {V : Type} {table : Table V} {call : Call} {row : Row V}

/-- A key is full where it is that of a row in all of its columns. -/
theorem keyOf_eq_some {cols : List Str} {key : List V} :
    keyOf cols row = some key ↔ valuesOf cols row = key.map some := by
  induction cols generalizing key with
  | nil => cases key <;> simp [keyOf, valuesOf]
  | cons name rest inductionHypothesis =>
    have unfolded : keyOf (name :: rest) row =
        (row name).bind (fun v => (keyOf rest row).map (fun vs => v :: vs)) := by
      simp only [keyOf, List.mapM_cons, Option.pure_def, Option.bind_eq_bind]
      cases row name with
      | none => rfl
      | some v => cases List.mapM row rest <;> rfl
    rw [unfolded]
    constructor
    · intro whole
      obtain ⟨v, first, more⟩ := Option.bind_eq_some_iff.mp whole
      obtain ⟨vs, others, rfl⟩ := Option.map_eq_some_iff.mp more
      have later := inductionHypothesis.mp others
      simp only [valuesOf, List.map_cons] at later ⊢
      rw [first, later]
    · intro whole
      cases key with
      | nil => simp [valuesOf] at whole
      | cons v vs =>
        simp only [valuesOf, List.map_cons, List.cons.injEq] at whole
        rw [whole.1, Option.bind_some, inductionHypothesis.mpr whole.2]
        rfl

/-- What is compared is also set. -/
theorem distinctCols_subset {targetCols : List ColumnInfo} {conflictCols : List Str} {name : Str}
    (compared : name ∈ (buildMerge targetCols conflictCols).distinctCols) :
    name ∈ (buildMerge targetCols conflictCols).updateTargets := by
  simp only [buildMerge, List.mem_append] at compared ⊢
  rcases compared with (flat | raw) | payload
  · exact Or.inl (Or.inl flat)
  · split_ifs at raw with there
    · obtain rfl := List.mem_singleton.mp raw
      rw [Bool.and_eq_true] at there
      exact Or.inl (Or.inr (List.mem_filter.mpr ⟨by decide, there.1⟩))
    · cases raw
  · exact Or.inr payload

variable [DecidableEq V]

theorem lawful (table : Table V) (call : Call) :
    Upsert.Lawful (rules table (mergeOf table call)) where
  key_update := by
    intro old new key oldKey newKey
    have olds := keyOf_eq_some.mp oldKey
    have news := keyOf_eq_some.mp newKey
    refine keyOf_eq_some.mpr (Eq.trans ?_ olds)
    have agree := List.map_inj_left.mp (news.trans olds.symm)
    apply List.map_congr_left
    intro name member
    simp only [rules]
    split_ifs
    · exact agree name member
    · rfl
  compared_update := by
    intro old new
    apply List.map_congr_left
    intro name member
    have set : (mergeOf table call).updateTargets.contains name = true :=
      List.contains_iff_mem.mpr (distinctCols_subset member)
    simp only [rules]
    rw [if_pos set]

/-! ## Calls that succeed -/

variable {coercion : Coercion} {nowIso : Str} {moment : Nat} {rows : List (Row V)}
  {merged : Merged V}

/-- A call succeeds where its records can be staged and the merge can be prepared and carried
out. -/
theorem copyAndMerge_ok :
    copyAndMerge table coercion call nowIso moment rows = .ok merged ↔
      (targetColumns table).isEmpty = false ∧ prepares table (mergeOf table call) = true ∧
        ∃ staged, stage table coercion call nowIso moment = some staged ∧
          affectsOnce (mergeOf table call)
            (proposed table (mergeOf table call) staged (moment + call.records.length)) = true ∧
          Upsert.putAll (rules table (mergeOf table call))
            (proposed table (mergeOf table call) staged (moment + call.records.length)) rows =
              some (merged.rows, merged.outcomes) := by
  rw [copyAndMerge]
  by_cases known : (targetColumns table).isEmpty = true
  · rw [if_pos known]
    simp [known]
  · rw [if_neg known]
    rw [Bool.not_eq_true] at known
    cases staging : stage table coercion call nowIso moment with
    | none => simp
    | some staged =>
      simp only [merge, known, true_and, Option.some.injEq, exists_eq_left', Bool.and_eq_true]
      by_cases ready : prepares table (mergeOf table call) = true ∧
          affectsOnce (mergeOf table call)
            (proposed table (mergeOf table call) staged (moment + call.records.length)) = true
      · rw [if_pos ready]
        simp only [ready, true_and]
        cases placed : Upsert.putAll (rules table (mergeOf table call))
            (proposed table (mergeOf table call) staged (moment + call.records.length)) rows with
        | none => simp
        | some result =>
          simp only [Except.ok.injEq, Option.some.injEq]
          constructor
          · rintro rfl
            rfl
          · intro same
            rw [same]
      · rw [if_neg ready, ← and_assoc]
        simp [ready]

end

/-! ## Concrete tables

Tables of texts, to run the model on. -/

/-- The coercion of texts and integers. -/
def plainCoercion : Coercion where
  unicode := Unicode.ascii
  showNumber
    | .int n => Text.showInt n
    | .float x => x.toText
  showJson value := Text.fromUtf8Lossy (Crates.Plain.render value)
  epochToIso _ := none

/-- A column of type `text`. -/
def textColumn (name : Str) (isNullable hasDefault : Bool) : TableColumn where
  name := name
  dataType := "text".str
  isNullable := isNullable
  hasDefault := hasDefault
  isGenerated := false
  identityGeneration := none

/-- The provenance columns of a table. -/
def provenanceColumns : List TableColumn := [
  textColumn "source".str false false, textColumn "source_endpoint".str false false,
  textColumn "source_run_id".str false false]

/-- A table of texts with the provenance columns, where every text is read as it is. -/
def textTable (columns : List TableColumn) (uniques : List (List Str))
    (default_ : Str → Nat → Option Str) : Table Str where
  schema := "md".str
  name := "quote".str
  columns := columns ++ provenanceColumns
  uniques := uniques
  input _ text _ := some text
  default_ := default_
  before cols row later :=
    decide ((valuesOf cols row).map (fun v => v.getD []) ≤
      (valuesOf cols later).map (fun v => v.getD []))
  admits _ := true

end LumidPlatform.Write.Engine
