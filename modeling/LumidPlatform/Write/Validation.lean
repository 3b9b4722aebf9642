import LumidPlatform.Crates

/-!
# Validation of records

A record is held against the columns of its table before anything is written: it must be an
object without columns that the server stamps and without columns the table does not have,
and it must carry a value for every column that has to have one.
-/

namespace LumidPlatform.Write

/-- One writable column of a table. The type is the `data_type` of the information schema. -/
structure ColumnInfo where
  name : Str
  dataType : Str
  isNullable : Bool
  hasDefault : Bool
  deriving DecidableEq

/-- The writable columns and the natural key. -/
structure TableMeta where
  columns : List ColumnInfo
  conflictCols : List Str
  deriving DecidableEq

/-- `SERVER_STAMPED_COLS`. -/
def serverStampedCols : List Str :=
  ["source".str, "source_endpoint".str, "source_run_id".str, "ingest_ts".str, "id".str]

/-- One rejected record. -/
structure Rejected where
  index : Nat
  error : Str
  record : Json

/-- `NOT NULL`, without default, not stamped by the server and not `raw`. -/
def ColumnInfo.required (column : ColumnInfo) : Bool :=
  !serverStampedCols.contains column.name && column.name != "raw".str &&
    !column.isNullable && !column.hasDefault

/-- What is wrong with a key of a record. -/
def keyError (table : TableMeta) (key : Str) : Option Str :=
  if serverStampedCols.contains key then
    some ("field '".str ++ key ++ "' is set server-side and must not be supplied".str)
  else if !(table.columns.any (fun column => column.name == key)) then
    some ("unknown field '".str ++ key ++ "'".str)
  else none

/-- What is wrong with a record at a column. -/
def columnError (members : JsonMap) (column : ColumnInfo) : Option Str :=
  if column.required then
    match JsonMap.get members column.name with
    | none => some ("missing required field '".str ++ column.name ++ "'".str)
    | some .null => some ("field '".str ++ column.name ++ "' must not be null".str)
    | some _ => none
  else none

/-- `validate_one`: the first thing that is wrong with a record. -/
def validateOne (table : TableMeta) (record : Json) : Option Str :=
  match record.asObject? with
  | none => some "record must be a JSON object".str
  | some members =>
    match members.findSome? (fun entry => keyError table entry.1) with
    | some error => some error
    | none => table.columns.findSome? (columnError members)

/-- A record is accepted. -/
def accepts (table : TableMeta) (record : Json) : Bool := (validateOne table record).isNone

/-- `validate_batch`, from an index on. -/
def validateFrom (table : TableMeta) : Nat → List Json → List Json × List Rejected
  | _, [] => ([], [])
  | index, record :: rest =>
    let (parsed, rejected) := validateFrom table (index + 1) rest
    match validateOne table record with
    | none => (record :: parsed, rejected)
    | some error => (parsed, ⟨index, error, record⟩ :: rejected)

/-- `validate_batch`: the accepted records and the rejected ones. -/
def validateBatch (table : TableMeta) (records : List Json) : List Json × List Rejected :=
  validateFrom table 0 records

/-- The validator takes the columns of the table, apart from those that are stamped. -/
theorem keyError_eq_none {table : TableMeta} {key : Str} : keyError table key = none ↔
    key ∉ serverStampedCols ∧ key ∈ table.columns.map ColumnInfo.name := by
  have known : (table.columns.any (fun column => column.name == key)) = true ↔
      key ∈ table.columns.map ColumnInfo.name := by
    rw [List.any_eq_true, List.mem_map]
    simp only [beq_iff_eq]
  rw [keyError, ← known, ← List.contains_iff_mem]
  split_ifs with stamped unknown
  · exact iff_of_false not_false (fun free => free.1 stamped)
  · rw [Bool.not_eq_true'] at unknown
    exact iff_of_false not_false (fun there => by
      rw [unknown] at there
      exact Bool.false_ne_true there.2)
  · rw [Bool.not_eq_true', Bool.not_eq_false] at unknown
    exact iff_of_true rfl ⟨stamped, unknown⟩

theorem ColumnInfo.required_iff {column : ColumnInfo} : column.required = true ↔
    column.name ∉ serverStampedCols ∧ column.name ≠ "raw".str ∧ column.isNullable = false ∧
      column.hasDefault = false := by
  simp [ColumnInfo.required, and_assoc]

/-- A column that has to have a value gets one, or nothing is wrong with it. -/
theorem columnError_eq_none {members : JsonMap} {column : ColumnInfo} :
    columnError members column = none ↔ (column.required = true →
      ∃ value, JsonMap.get members column.name = some value ∧ value ≠ .null) := by
  rw [columnError]
  split_ifs with required
  · constructor
    · intro right _
      split at right
      · cases right
      · cases right
      · rename_i value notNull found
        exact ⟨value, found, notNull⟩
    · intro supplied
      obtain ⟨value, found, notNull⟩ := supplied required
      rw [found]
      cases value with
      | null => exact absurd rfl notNull
      | _ => rfl
  · exact iff_of_true rfl (fun wanted => absurd wanted required)

/-- A record is accepted where none of its keys is wrong and none of the columns. -/
theorem accepts_iff {table : TableMeta} {record : Json} {members : JsonMap}
    (isObject : record.asObject? = some members) :
    accepts table record = true ↔ (∀ entry ∈ members, keyError table entry.1 = none) ∧
      ∀ column ∈ table.columns, columnError members column = none := by
  rw [accepts, validateOne, isObject, Option.isNone_iff_eq_none]
  dsimp only
  rw [← List.findSome?_eq_none_iff, ← List.findSome?_eq_none_iff]
  split
  · rename_i error wrong
    simp [wrong]
  · rename_i right
    simp [right]

theorem validateFrom_parsed (table : TableMeta) (index : Nat) (records : List Json) :
    (validateFrom table index records).1 = records.filter (accepts table) := by
  induction records generalizing index with
  | nil => rfl
  | cons record rest inductionHypothesis =>
    rw [validateFrom]
    dsimp only
    cases wrong : validateOne table record with
    | none => simp [accepts, wrong, inductionHypothesis]
    | some error => simp [accepts, wrong, inductionHypothesis]

theorem validateFrom_rejected (table : TableMeta) (index : Nat) (records : List Json) :
    (validateFrom table index records).2.map Rejected.record =
      records.filter (fun record => !accepts table record) := by
  induction records generalizing index with
  | nil => rfl
  | cons record rest inductionHypothesis =>
    rw [validateFrom]
    dsimp only
    cases wrong : validateOne table record with
    | none => simp [accepts, wrong, inductionHypothesis]
    | some error => simp [accepts, wrong, inductionHypothesis]

/-- What is parsed is what is accepted. -/
theorem validateBatch_parsed (table : TableMeta) (records : List Json) :
    (validateBatch table records).1 = records.filter (accepts table) :=
  validateFrom_parsed table 0 records

theorem validateBatch_rejected_eq_nil {table : TableMeta} {records : List Json} :
    (validateBatch table records).2 = [] ↔ ∀ record ∈ records, accepts table record = true := by
  rw [← List.map_eq_nil_iff (f := Rejected.record), validateBatch, validateFrom_rejected]
  simp

theorem validateBatch_parsed_eq_nil {table : TableMeta} {records : List Json} :
    (validateBatch table records).1 = [] ↔ ∀ record ∈ records, accepts table record = false := by
  rw [validateBatch_parsed]
  simp

/-- Every record is parsed or rejected. -/
theorem validateBatch_length (table : TableMeta) (records : List Json) :
    (validateBatch table records).1.length + (validateBatch table records).2.length =
      records.length := by
  have rejected : (validateBatch table records).2.length =
      (records.filter (fun record => !accepts table record)).length := by
    rw [← validateFrom_rejected table 0 records, List.length_map, validateBatch]
  rw [validateBatch_parsed, rejected]
  exact (List.length_eq_length_filter_add (accepts table)).symm

end LumidPlatform.Write
