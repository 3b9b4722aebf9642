import LumidPlatform.Sync.Push
import LumidPlatform.Write.Coerce

/-!
# Replicated rows

A row leaves the source as what `to_jsonb` makes of it and reaches the table of the target
as the cells of a staged copy. Postgres itself is assumed: which values a column can hold,
their JSON form, and what the type of a column reads from a text.
-/

namespace LumidPlatform.Sync

open LumidPlatform.Write

/-! ## Values -/

/-- JSON as Postgres sends it: a number is the text of its decimal digits. -/
inductive PgJson where
  | null
  | bool (b : Bool)
  | number (text : Str)
  | string (s : Str)
  | array (items : List PgJson)
  | object (members : List (Str × PgJson))

/-- The types of columns, by what `to_jsonb` makes of their values: booleans, numbers, JSON
documents, arrays and composites, and all others, whose values become strings. -/
inductive Kind where
  | boolean
  | number
  | json
  | nested
  | other
  deriving DecidableEq

inductive Generation where
  | none
  | computed
  | identityAlways
  | identityByDefault
  deriving DecidableEq

/-- A column, with the `data_type` of the information schema. -/
structure Column where
  name : Str
  dataType : Str
  kind : Kind
  isNullable : Bool
  hasDefault : Bool
  generation : Generation
  deriving DecidableEq

/-- A value: a number by its digits, a number that is none by its name, and a value of most
types by its text. -/
inductive SqlValue where
  | null
  | bool (b : Bool)
  | number (text : Str)
  | special (name : Str)
  | json (doc : PgJson)
  | nested (doc : PgJson)
  | text (s : Str)

/-- `to_jsonb` of a value. -/
def SqlValue.toJsonb : SqlValue → PgJson
  | null => .null
  | bool b => .bool b
  | number digits => .number digits
  | special name => .string name
  | json doc => doc
  | nested doc => doc
  | text s => .string s

/-- A type name that the coercion takes for none of a boolean, a number and JSON. -/
def isPlainType (t : Str) : Bool := !isJson t && !isBoolean t && !isNumeric t && !isInteger t

/-- The name of a column's type fits its kind. -/
def Column.typed (unicode : Unicode) (column : Column) : Bool :=
  let t := unicode.toLowercase column.dataType
  match column.kind with
  | .boolean => isBoolean t
  | .number => isNumeric t || isInteger t
  | .json => isJson t
  | .nested => isPlainType t
  | .other => isPlainType t

/-- The values of a kind. -/
def SqlValue.fits : SqlValue → Kind → Bool
  | null, _ => true
  | bool _, kind => kind = .boolean
  | number _, kind => kind = .number
  | special name, kind =>
    kind = .number && ["NaN".str, "Infinity".str, "-Infinity".str].contains name
  | json _, kind => kind = .json
  | nested (.array _), kind => kind = .nested
  | nested (.object _), kind => kind = .nested
  | nested _, _ => false
  | text _, kind => kind = .other

/-! ## Reading JSON -/

/-- The coercion, with how `serde_json` reads a number. -/
structure Wire extends Coercion where
  readNumber : Str → Option JsonNumber
  /-- No JSON text is the token for `NULL`. -/
  showNumber_ne : ∀ n, showNumber n ≠ nullToken
  showJson_ne : ∀ value, showJson value ≠ nullToken

mutual

/-- How deep the arrays and objects of a document are nested. -/
def PgJson.depth : PgJson → Nat
  | .array items => PgJson.depthItems items + 1
  | .object members => PgJson.depthMembers members + 1
  | _ => 0

def PgJson.depthItems : List PgJson → Nat
  | [] => 0
  | item :: rest => max (PgJson.depth item) (PgJson.depthItems rest)

def PgJson.depthMembers : List (Str × PgJson) → Nat
  | [] => 0
  | (_, item) :: rest => max (PgJson.depth item) (PgJson.depthMembers rest)

end

variable (wire : Wire)

mutual

/-- A document as a `serde_json::Value`, if its numbers can be read, whatever its depth. -/
def Wire.readJson : PgJson → Option Json
  | .null => some .null
  | .bool b => some (.bool b)
  | .number text => (wire.readNumber text).map .number
  | .string s => some (.string s)
  | .array items => (Wire.readItems items).map .array
  | .object members => (Wire.readMembers members).map .object

def Wire.readItems : List PgJson → Option (List Json)
  | [] => some []
  | item :: rest =>
    match Wire.readJson item, Wire.readItems rest with
    | some value, some values => some (value :: values)
    | _, _ => none

def Wire.readMembers : List (Str × PgJson) → Option (List (Str × Json))
  | [] => some []
  | (key, item) :: rest =>
    match Wire.readJson item, Wire.readMembers rest with
    | some value, some values => some ((key, value) :: values)
    | _, _ => none

end

/-- `serde_json::from_slice`. -/
def Wire.read (doc : PgJson) : Option Json :=
  if doc.depth < recursionLimit then wire.readJson doc else none

mutual

/-- Every number of a document is, read and printed again, the same number. -/
def Wire.Survives (sameNumber : Str → Str → Prop) : PgJson → Prop
  | .number text => ∃ n, wire.readNumber text = some n ∧ sameNumber (wire.showNumber n) text
  | .array items => Wire.SurviveItems sameNumber items
  | .object members => Wire.SurviveMembers sameNumber members
  | _ => True

def Wire.SurviveItems (sameNumber : Str → Str → Prop) : List PgJson → Prop
  | [] => True
  | item :: rest => Wire.Survives sameNumber item ∧ Wire.SurviveItems sameNumber rest

def Wire.SurviveMembers (sameNumber : Str → Str → Prop) : List (Str × PgJson) → Prop
  | [] => True
  | (_, item) :: rest => Wire.Survives sameNumber item ∧ Wire.SurviveMembers sameNumber rest

end

mutual

/-- A value is, as it is printed, the same document. -/
def Wire.Prints (sameNumber : Str → Str → Prop) : Json → PgJson → Prop
  | .null, .null => True
  | .bool b, .bool c => b = c
  | .number n, .number text => sameNumber (wire.showNumber n) text
  | .string s, .string t => s = t
  | .array items, .array others => Wire.PrintItems sameNumber items others
  | .object members, .object others => Wire.PrintMembers sameNumber members others
  | _, _ => False

def Wire.PrintItems (sameNumber : Str → Str → Prop) : List Json → List PgJson → Prop
  | [], [] => True
  | value :: values, item :: items =>
    Wire.Prints sameNumber value item ∧ Wire.PrintItems sameNumber values items
  | _, _ => False

def Wire.PrintMembers (sameNumber : Str → Str → Prop) :
    List (Str × Json) → List (Str × PgJson) → Prop
  | [], [] => True
  | (key, value) :: values, (name, item) :: items =>
    key = name ∧ Wire.Prints sameNumber value item ∧ Wire.PrintMembers sameNumber values items
  | _, _ => False

end

/-! ## Postgres -/

/-- What is assumed of Postgres. -/
structure Postgres (wire : Wire) where
  /-- The column can hold the value. -/
  Holds : Column → SqlValue → Prop
  /-- The type of the column reads the text, as a value not distinct from this one. -/
  Reads : Column → Str → SqlValue → Prop
  /-- Two number texts inside JSON are of one number. -/
  sameNumber : Str → Str → Prop
  /-- Written without quotes, the name is that of the column. -/
  unquoted : Str → Bool
  holds_typed : ∀ {column value}, Holds column value →
    column.typed wire.unicode = true ∧ value.fits column.kind = true
  /-- A row is complete. -/
  holds_null : ∀ {column}, Holds column .null → column.isNullable = true
  reads_bool : ∀ {column b}, Holds column (.bool b) → Reads column (Text.showBool b) (.bool b)
  reads_special : ∀ {column name}, Holds column (.special name) →
    Reads column name (.special name)
  /-- The output of a type reads back. -/
  reads_text : ∀ {column s}, Holds column (.text s) → Reads column s (.text s)
  /-- A date stands without blanks, and cut off before its era it is another date. -/
  reads_date : ∀ {column s}, Holds column (.text s) →
    wire.unicode.toLowercase column.dataType = "date".str →
      Text.trim s = s ∧ ∀ day, datePrefix s = some day → Reads column day (.text s) → day = s
  /-- JSON text reads as the document it prints. -/
  reads_json : ∀ {column doc value}, Holds column (.json doc) → wire.readJson doc = some value →
    (∀ s, doc ≠ .string s) → (Reads column (wire.showJson value) (.json doc) ↔
      wire.Prints sameNumber value doc)
  /-- A JSON string is written in quotes. -/
  reads_string : ∀ {column s}, Holds column (.json (.string s)) →
    ¬Reads column s (.json (.string s))
  /-- Arrays and composites are not written as JSON. -/
  reads_nested : ∀ {column doc value}, Holds column (.nested doc) →
    ¬Reads column (wire.showJson value) (.nested doc)

/-- A row of a table: its columns, each with the value it holds. -/
structure StoredRow {wire : Wire} (pg : Postgres wire) where
  entries : List (Column × SqlValue)
  names : (entries.map (fun entry => entry.1.name)).Nodup
  holds : ∀ entry ∈ entries, pg.Holds entry.1 entry.2

/-! ## The way of a row -/

def Column.stamped (column : Column) : Bool := serverStampedCols.contains column.name

/-- `get_target_columns`: not those that are always generated. -/
def Column.writable (column : Column) : Bool :=
  column.generation != .computed && column.generation != .identityAlways

/-- A column that the staging table keeps: `generated_columns` are dropped from it. -/
def Column.staged (column : Column) : Bool := column.generation = .none

def Column.info (column : Column) : ColumnInfo :=
  ⟨column.name, column.dataType, column.isNullable, column.hasDefault⟩

variable {wire} {pg : Postgres wire}

namespace StoredRow

variable (row : StoredRow pg)

def columns : List Column := row.entries.map Prod.fst

/-- The metadata of the target, whose table is defined as that of the source. -/
def tableMeta : TableMeta := ⟨(row.columns.filter Column.writable).map Column.info, []⟩

/-- `to_jsonb` of the row. -/
def document : PgJson := .object (row.entries.map (fun entry => (entry.1.name, entry.2.toJsonb)))

/-- The row, as the source reads and sends it. -/
def pushed : Option Json := (wire.read row.document).map stripServerSideCols

end StoredRow

/-- The keys of a record. -/
def keysOf (record : Json) : List Str := (record.asObject?.getD []).map Prod.fst

/-- The payload columns of a write, as `write_records` picks them for one record. -/
def payloadCols (table : TableMeta) (record : Json) : List Str :=
  (table.columns.map ColumnInfo.name).filter (fun name =>
    (keysOf record).contains name && !serverStampedCols.contains name)

/-- The columns of the `COPY`. -/
def fullCols (table : TableMeta) (record : Json) : List Str :=
  payloadCols table record ++ ["source".str, "source_endpoint".str, "source_run_id".str] ++
    if table.columns.any (fun column => column.name == "ingest_ts".str) then ["ingest_ts".str]
    else []

/-- The staging table has every column of the `COPY` under its unquoted name. -/
def copies (pg : Postgres wire) (columns : List Column) (names : List Str) : Bool :=
  names.all (fun name => pg.unquoted name &&
    columns.any (fun column => column.name == name && column.staged))

/-- The cell of a column, in `build_csv`. -/
def cellOf (wire : Wire) (record : Json) (column : Column) : Option Str :=
  cellFor wire.toCoercion ((field record column.name).getD .null) column.dataType

/-- What a cell holds once it is copied is the value. -/
def ParsesBack (pg : Postgres wire) (column : Column) (value : SqlValue) (cell : Option Str) :
    Prop :=
  match copied cell with
  | none => value = .null
  | some text => pg.Reads column text value

/-- The row is accepted, and its cells parse back in every column that is not stamped. -/
def Replicates (row : StoredRow pg) : Prop :=
  ∃ record, row.pushed = some record ∧ validateOne row.tableMeta record = none ∧
    copies pg row.columns (fullCols row.tableMeta record) = true ∧
      ∀ entry ∈ row.entries, entry.1.stamped = false →
        entry.1.name ∈ payloadCols row.tableMeta record ∧
          ParsesBack pg entry.1 entry.2 (cellOf wire record entry.1)

end LumidPlatform.Sync
