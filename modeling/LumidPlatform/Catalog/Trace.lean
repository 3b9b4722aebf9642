import LumidPlatform.Db.KeptCells
import LumidPlatform.Ingest.Advertised
import LumidPlatform.Write.Spelling

/-!
# The lineage trace

A row of a table is looked up by the texts of some of its columns, and answered with where it
came from. The texts are turned into Rust values by the declared types of their columns. The
driver then sends a value only as a type of the database that its Rust type stands for.
-/

namespace LumidPlatform.Catalog

open Db Write.Spelling

/-! ## Rust values -/

/-- The instant is of a day within the calendar. -/
def Knows (formats : Formats) (t : DateTime) : Prop :=
  formats.firstDay ≤ t.seconds / 86400 + 719163 ∧ t.seconds / 86400 + 719163 ≤ formats.lastDay ∧
    t.nanos < 1000000000

/-- The instant is of a year that is written with four digits. -/
def FourDigits (t : DateTime) : Prop :=
  -365 ≤ t.seconds / 86400 + 719163 ∧ t.seconds / 86400 + 719163 ≤ 3652059

instance (t : DateTime) : Decidable (FourDigits t) :=
  inferInstanceAs (Decidable (_ ∧ _))

/-- What the trace takes from `chrono`, `uuid`, `serde_json` and the standard library, beside what
the rows are shown with. RFC 3339 has years of four digits only. -/
structure Library extends Formats where
  unicode : Unicode
  /-- `DateTime::parse_from_rfc3339`, moved to UTC. -/
  parseRfc3339 : Str → Option DateTime
  /-- `NaiveDateTime::parse_from_str(_, "%Y-%m-%dT%H:%M:%S")`, taken as UTC. -/
  parseNaive : Str → Option DateTime
  /-- `NaiveDate::parse_from_str(_, "%Y-%m-%d")`. -/
  parseDate : Str → Option NaiveDate
  /-- `Uuid::parse_str`. -/
  parseUuid : Str → Option Uuid
  /-- `Value::to_string`. -/
  jsonText : Json → Str
  rfc3339Secs_parts : ∀ t, Knows toFormats t → ∃ body, rfc3339Secs t = body ++ ['Z'] ∧ 'Z' ∉ body ∧
    parseRfc3339 (body ++ "+00:00".str) = (if FourDigits t then some ⟨t.seconds, 0⟩ else none) ∧
    parseNaive body = some ⟨t.seconds, 0⟩
  rfc3339Micros_parts : ∀ t, Knows toFormats t →
    ∃ body, rfc3339Micros t = body ++ ['Z'] ∧ 'Z' ∉ body ∧
      parseRfc3339 (body ++ "+00:00".str) =
        (if FourDigits t then some ⟨t.seconds, t.nanos / 1000 * 1000⟩ else none) ∧
      parseNaive body = none
  parseDate_showDate : ∀ d, firstDay ≤ d.days → d.days ≤ lastDay → parseDate (showDate d) = some d
  parseRfc3339_null : parseRfc3339 "null".str = none
  parseNaive_null : parseNaive "null".str = none
  parseDate_null : parseDate "null".str = none
  jsonText_null : jsonText .null = "null".str
  jsonText_bool : ∀ b, jsonText (.bool b) = Text.showBool b
  jsonText_int : ∀ n, jsonText (.number (.int n)) = Text.showInt n
  /-- A floating number is printed so that it reads back. -/
  parse_jsonText : ∀ x, x.isNan = false → x.isInfinite = false →
    F64.parse (jsonText (.number (.float x))) = some x

/-- `Param`. -/
inductive Param where
  | text (s : Str)
  | ts (t : DateTime)
  | date (d : NaiveDate)
  | int (n : Int64)
  | float (x : F64)
  | bool (b : Bool)

/-- `str::replace('Z', _)`. -/
def replaceZ (replacement s : Str) : Str :=
  s.flatMap (fun c => if c = 'Z' then replacement else [c])

/-- An offset of hours alone, made one of hours and minutes. -/
def lengthenOffset (s : Str) : Option Str :=
  match s.reverse with
  | second :: first :: sign :: _ =>
    if (sign = '+' ∨ sign = '-') ∧ Text.isAsciiDigit first ∧ Text.isAsciiDigit second then
      some (s ++ ":00".str)
    else none
  | _ => none

/-- `coerce_param` for a column of instants. -/
def coerceInstant (lib : Library) (value : Str) : Param :=
  let s := replaceZ "+00:00".str value
  match lib.parseRfc3339 s with
  | some t => .ts t
  | none =>
    match (lengthenOffset s).bind lib.parseRfc3339 with
    | some t => .ts t
    | none =>
      match lib.parseNaive (replaceZ [] value) with
      | some t => .ts t
      | none => .text value

/-- `coerce_param` for a column of truth values. -/
def coerceBool (lib : Library) (value : Str) : Param :=
  let word := Text.trim (lib.unicode.toLowercase value)
  if word = "true".str ∨ word = "t".str ∨ word = "1".str ∨ word = "yes".str then .bool true
  else if word = "false".str ∨ word = "f".str ∨ word = "0".str ∨ word = "no".str then .bool false
  else .text value

/-- `coerce_param`. -/
def coerceParam (lib : Library) (value pgType : Str) : Param :=
  let t := lib.unicode.toLowercase pgType
  if t = "timestamp with time zone".str ∨ t = "timestamp without time zone".str then
    coerceInstant lib value
  else if t = "date".str then ((lib.parseDate value).map Param.date).getD (.text value)
  else if t = "integer".str ∨ t = "bigint".str ∨ t = "smallint".str then
    ((Text.parseI64 value).map (fun n => Param.int (Int64.ofInt n))).getD (.text value)
  else if t = "numeric".str ∨ t = "real".str ∨ t = "double precision".str then
    ((F64.parse value).map Param.float).getD (.text value)
  else if t = "boolean".str then coerceBool lib value
  else .text value

/-! ## What the driver sends -/

/-- A value with its type. -/
abbrev Value := (type : PgType) × type.Stored

/-- The types that a `String` is sent as. -/
def TextType.takesString (type : TextType) : Bool :=
  match type with
  | .text | .varchar | .bpchar | .name | .citext => true
  | .char | .tsvector => false

/-- `ToSql` of each Rust type; `none` is an error, that the type is not accepted. -/
def Param.toSql : Param → (type : PgType) → Option type.Stored
  | .text s, .text type => if TextType.takesString type then some s else none
  | .ts t, .timestamptz => some (.finite (t.seconds * 1000000 + t.nanos / 1000))
  | .date d, .date => some (.finite d.days)
  | .int n, .int8 => some n
  | .float x, .float8 => some x
  | .bool b, .bool => some b
  | _, _ => none

/-- The parameters of a statement, sent as the types that it has for them. -/
def bindAll : List Param → List PgType → Option (List Value)
  | [], [] => some []
  | param :: params, type :: types =>
    (param.toSql type).bind (fun v => (bindAll params types).map (⟨type, v⟩ :: ·))
  | _, _ => none

/-! ## The warehouse -/

/-- The columns of a row. -/
def shape (row : Row) : List (Str × PgType) := row.map (fun column => (column.name, column.type))

/-- A table as the catalogue knows it: its columns have different names. -/
structure Table where
  columns : List (Str × PgType)
  named : (columns.map Prod.fst).Nodup

/-- The tables, with their rows. -/
structure Warehouse where
  tables : Str × Str → Option Table
  rows : Str × Str → List Row
  shaped : ∀ {name table}, tables name = some table → ∀ row ∈ rows name, shape row = table.columns

/-- `information_schema.columns.data_type`. For the other types it is a text that nothing is
coerced for. -/
def dataType : PgType → Str
  | .text .text => "text".str
  | .text .varchar => "character varying".str
  | .text .bpchar => "character".str
  | .text .char => "\"char\"".str
  | .text .name => "name".str
  | .text .tsvector => "tsvector".str
  | .int2 => "smallint".str
  | .int4 => "integer".str
  | .int8 => "bigint".str
  | .float4 => "real".str
  | .float8 => "double precision".str
  | .numeric => "numeric".str
  | .bool => "boolean".str
  | .date => "date".str
  | .timestamp => "timestamp without time zone".str
  | .timestamptz => "timestamp with time zone".str
  | .json => "json".str
  | .jsonb => "jsonb".str
  | .uuid => "uuid".str
  | .array _ => "ARRAY".str
  | .text .citext | .other _ => "USER-DEFINED".str

/-- A condition on the rows of a table, with parameters of these types. -/
structure Filter where
  types : List PgType
  holds : Row → List Value → Bool

/-- The types that the results are about: those that `db::rows` reads as one scalar. -/
def isScalar : PgType → Bool
  | .text type => TextType.takesString type
  | .json | .jsonb | .array _ | .other _ => false
  | _ => true

/-- What Postgres makes of a statement. -/
structure Postgres where
  keywords : Keywords
  /-- `=`. -/
  equal : Value → Value → Bool
  /-- Whether the values of another type can be compared, and ordered. -/
  comparesOther : Str → Bool
  ordersOther : Str → Bool
  /-- A condition that is not made of names of columns alone. -/
  readOther : List (Str × PgType) → List Str → Option Filter
  /-- `ORDER BY ingest_ts DESC`. -/
  order : List Row → List Row
  /-- A value, cast to a text. -/
  castText : Value → Str
  /-- The rows of `provenance.runs`, as `serialize_run` shows them. -/
  runs : Uuid → Option Json
  equal_refl : ∀ value, isScalar value.1 = true → equal value value = true
  order_perm : ∀ rows, (order rows).Perm rows

section

variable (lib : Library) (readers : Readers) (db : Postgres)

/-- `=` is there for the type. -/
def compares : PgType → Bool
  | .json => false
  | .other name => db.comparesOther name
  | _ => true

/-- The types of which Postgres can order values; documents and some others have no order. -/
def orders : PgType → Bool
  | .json => false
  | .other name => db.ordersOther name
  | _ => true

/-- The column of a row is equal to a value. -/
def cellEquals (row : Row) (name : Str) (value : Value) : Bool :=
  row.any (fun column =>
    column.name == name && column.cell.any (fun v => db.equal ⟨column.type, v⟩ value))

/-- Columns, each equal to a parameter of its type. -/
def comparing (columns : List (Str × PgType)) : Filter where
  types := columns.map Prod.snd
  holds row values :=
    (columns.zip values).all (fun entry => cellEquals db row entry.1.1 entry.2)

/-- The column of the table that a name is read as. -/
def readKey (columns : List (Str × PgType)) (key : Str) : Option (Str × PgType) :=
  (readColumn db.keywords key).bind (fun name =>
    columns.find? (fun column => column.1 == name && compares db column.2))

/-- The condition `a = $1 AND b = $2 ...`, with the keys put in as they are. -/
def readFilter (columns : List (Str × PgType)) (keys : List Str) : Option Filter :=
  if keys.all (fun key => (readColumn db.keywords key).isSome) then
    (keys.mapM (readKey db columns)).map (comparing db)
  else db.readOther columns keys

/-- The table has the columns that the trace selects and orders by. -/
def hasLineage (columns : List (Str × PgType)) : Bool :=
  columns.any (fun column => column.1 == "source".str) &&
    columns.any (fun column => column.1 == "source_endpoint".str) &&
    columns.any (fun column => column.1 == "source_run_id".str) &&
    columns.any (fun column => column.1 == "ingest_ts".str && orders db column.2)

/-- The statement, prepared: the table that it reads and its condition. -/
def prepare (tables : Str × Str → Option Table) (target : Str × Str) (keys : List Str) :
    Option ((Str × Str) × Filter) :=
  match readTarget db.keywords target with
  | none => none
  | some read =>
    match tables read with
    | none => none
    | some table =>
      if hasLineage db table.columns then
        (readFilter db table.columns keys).map (fun filter => (read, filter))
      else none

/-- Why a statement fails. -/
inductive Failure where
  /-- Postgres does not take the statement. -/
  | refused
  /-- A parameter is not sent as the type of its column. -/
  | wrongType

/-- The rows that the statement selects, before it is limited. -/
def selected (warehouse : Warehouse) (target : Str × Str) (keys : List Str)
    (params : List Param) : Except Failure (List Row) :=
  match prepare db warehouse.tables target keys with
  | none => .error .refused
  | some (read, filter) =>
    match bindAll params filter.types with
    | none => .error .wrongType
    | some values =>
      .ok (db.order ((warehouse.rows read).filter (fun row => filter.holds row values)))

/-! ## The answer -/

/-- A column of a row that was selected. -/
def columnOf (row : Row) (name : Str) : Option Column :=
  row.find? (fun column => column.name == name)

/-- `source_run_id::text`. -/
def sourceRunId (row : Row) : Option Str :=
  (columnOf row "source_run_id".str).bind (fun column =>
    column.cell.map (fun v => db.castText ⟨column.type, v⟩))

/-- `trace_run`. -/
def traceRun (runId : Str) : Option Json := (lib.parseUuid runId).bind db.runs

/-- `ts_iso`. -/
def tsIso (row : Row) (name : Str) : Json :=
  orNull ((columnOf row name).bind (tryGet readers.dateTimeUtc))
    (fun t => .string (utcText lib.toFormats t))

/-- An entry of `matches`. -/
structure Match where
  row : Row
  run : Option Json

/-- A row that is found, with the run that it names, where there is one. -/
def Match.ofRow (row : Row) : Match := ⟨row, (sourceRunId db row).bind (traceRun lib db)⟩

/-- The answer for it. The lineage is read off the row as text, and null where it is none. -/
def Match.toJson (found : Match) : Json :=
  let text (name : Str) : Json :=
    orNull ((columnOf found.row name).bind (tryGet readers.string)) .string
  .object [
    ("fact_row".str, .object [
      ("source".str, text "source".str),
      ("source_endpoint".str, text "source_endpoint".str),
      ("source_run_id".str, orNull (sourceRunId db found.row) .string),
      ("ingest_ts".str, tsIso lib readers found.row "ingest_ts".str)]),
    ("run".str, found.run.getD .null)]

/-- What the trace finds. -/
structure Traced where
  schema : Str
  table : Str
  key : List (Str × Str)
  found : List Match

/-- The answer of a trace. -/
def Traced.toJson (traced : Traced) : Json :=
  .object [
    ("schema".str, .string traced.schema),
    ("table".str, .string traced.table),
    ("key".str, .object (traced.key.map (fun entry => (entry.1, .string entry.2)))),
    ("matches".str, .array (traced.found.map (Match.toJson lib readers db)))]

/-! ## The trace -/

/-- `is_user_schema`. -/
def isUserSchema (schema : Str) (effective : List Str) : Bool :=
  !Ingest.Advertised.isSystemSchema schema && effective.any (fun s => s == schema)

/-- `ident_ok`. -/
def identOk (s : Str) : Bool :=
  !s.isEmpty && decide (Text.byteLen s ≤ 63) &&
    s.all (fun c => Text.isAsciiAlphanumeric c || c == '_')

/-- The declared types of the columns, as `information_schema` lists them. -/
def columnTypes (warehouse : Warehouse) (name : Str × Str) : List (Str × Str) :=
  ((warehouse.tables name).map (fun table =>
    table.columns.map (fun column => (column.1, dataType column.2)))).getD []

/-- The answer to the rows that were selected. -/
def answer (name : Str × Str) (key : List (Str × Str)) (rows : List Row) :
    Except Failure (Option Traced) :=
  match rows.take 5 with
  | [] => .ok none
  | factRows => .ok (some ⟨name.1, name.2, key, factRows.map (Match.ofRow lib db)⟩)

/-- `trace_by_natural_key`, with a key that is not listed twice. -/
def traceByNaturalKey (warehouse : Warehouse) (schema table : Str)
    (keyFilters : List (Str × Str)) (effective : List Str) : Except Failure (Option Traced) :=
  if !isUserSchema schema effective then .ok none
  else if !identOk schema || !identOk table then .ok none
  else
    let colTypes := columnTypes warehouse (schema, table)
    if colTypes.isEmpty then .ok none
    else if keyFilters.any (fun entry => (colTypes.lookup entry.1).isNone) then .ok none
    else if keyFilters.isEmpty then .ok none
    else
      let params := keyFilters.map (fun entry =>
        coerceParam lib entry.2 ((colTypes.lookup entry.1).getD []))
      match selected db warehouse (schema, table) (keyFilters.map Prod.fst) params with
      | .error failure => .error failure
      | .ok rows => answer lib db (schema, table) keyFilters rows

end

/-! ## Concrete functions

Instants are spelled as in `Formats.plain`, with the `Z` of RFC 3339. They serve to run the model on
concrete rows. -/

namespace Plain

/-- An instant, written to the second. -/
def secs (t : DateTime) : Str := Db.Plain.showInstant t.seconds 0

/-- Microseconds begin with a point. -/
def micros (t : DateTime) : Str := '.' :: Db.Plain.showInstant t.seconds (t.nanos / 1000 * 1000)

/-- An instant without its zone. -/
def readBody : Str → Option DateTime
  | '.' :: body => Db.Plain.instantNamed body
  | body => Db.Plain.instantNamed body

/-- An instant in UTC, in a year of four digits. -/
def parseRfc3339 (s : Str) : Option DateTime :=
  (List.dropSuffix? s "+00:00".str).bind (fun body =>
    (readBody body).filter (fun t => decide (FourDigits t)))

/-- An instant without any zone. -/
def parseNaive (s : Str) : Option DateTime :=
  if s.head? = some '.' then none else Db.Plain.instantNamed s

/-- Only single values have a text. -/
def jsonText : Json → Str
  | .null => "null".str
  | .bool b => Text.showBool b
  | .number (.int n) => Text.showInt n
  | .number (.float x) => x.exactText
  | .string s => s
  | .array _ | .object _ => []

/-- An instant is written in digits only. -/
theorem digit_of_mem_showInstant {seconds : Int} {nanos : Nat} {c : Char}
    (member : c ∈ Db.Plain.showInstant seconds nanos) : Text.isAsciiDigit c = true :=
  Text.isAsciiDigit_of_mem_showNat member

/-- What is written to the second is read so. -/
theorem readBody_secs (t : DateTime) : readBody (secs t) = some ⟨t.seconds, 0⟩ := by
  unfold readBody
  split
  · rename_i body shown
    have digit := digit_of_mem_showInstant (shown ▸ List.mem_cons_self : '.' ∈ secs t)
    exact absurd digit (by decide)
  · exact Db.Plain.instantNamed_showInstant _ _

/-- What is written to the microsecond is read so. -/
theorem readBody_micros (t : DateTime) :
    readBody (micros t) = some ⟨t.seconds, t.nanos / 1000 * 1000⟩ :=
  Db.Plain.instantNamed_showInstant _ _

/-- The offset of UTC is dropped, and the rest read. -/
theorem parseRfc3339_offset (body : Str) :
    parseRfc3339 (body ++ "+00:00".str) =
      (readBody body).filter (fun t => decide (FourDigits t)) := by
  have dropped : List.dropSuffix? (body ++ "+00:00".str) "+00:00".str = some body :=
    List.dropSuffix?_eq_some_iff.mpr ⟨_, rfl, beq_self_eq_true _⟩
  rw [parseRfc3339, dropped, Option.bind_some]

/-- The zone letter is dropped. -/
theorem readBody_text (body : Str) : readBody (body ++ ['Z']).dropLast = readBody body := by
  rw [List.dropLast_concat]

/-- The formats that write and read an instant in this way. -/
def formats : Formats :=
  { Formats.plain with
    rfc3339Secs := fun t => secs t ++ ['Z']
    rfc3339Micros := fun t => micros t ++ ['Z']
    instantNamed := fun s => readBody s.dropLast
    instantNamed_rfc3339Secs := fun t _ => (readBody_text _).trans (readBody_secs t)
    instantNamed_rfc3339Micros := fun t _ => (readBody_text _).trans (readBody_micros t) }

/-- The first form is read again once its zone letter is replaced, and without it. -/
theorem rfc3339Secs_parts (t : DateTime) : ∃ body, formats.rfc3339Secs t = body ++ ['Z'] ∧
    'Z' ∉ body ∧
    parseRfc3339 (body ++ "+00:00".str) = (if FourDigits t then some ⟨t.seconds, 0⟩ else none) ∧
    parseNaive body = some ⟨t.seconds, 0⟩ := by
  refine ⟨secs t, rfl, fun member => ?_, ?_, ?_⟩
  · exact absurd (digit_of_mem_showInstant member) (by decide)
  · rw [parseRfc3339_offset, readBody_secs]
    by_cases year : FourDigits t
    · rw [if_pos year]
      exact Option.filter_eq_some_iff.mpr ⟨rfl, decide_eq_true year⟩
    · rw [if_neg year]
      refine Option.filter_eq_none_iff.mpr (fun _ same known => ?_)
      cases same
      exact year (of_decide_eq_true known)
  · rw [parseNaive, if_neg]
    · exact Db.Plain.instantNamed_showInstant _ _
    · intro point
      have digit := digit_of_mem_showInstant (List.mem_of_mem_head? point)
      exact absurd digit (by decide)

/-- So is the second, but not without the letter. -/
theorem rfc3339Micros_parts (t : DateTime) : ∃ body, formats.rfc3339Micros t = body ++ ['Z'] ∧
    'Z' ∉ body ∧
    parseRfc3339 (body ++ "+00:00".str) =
      (if FourDigits t then some ⟨t.seconds, t.nanos / 1000 * 1000⟩ else none) ∧
    parseNaive body = none := by
  refine ⟨micros t, rfl, fun member => ?_, ?_, rfl⟩
  · rcases List.mem_cons.mp member with same | later
    · cases same
    · exact absurd (digit_of_mem_showInstant later) (by decide)
  · rw [parseRfc3339_offset, readBody_micros]
    by_cases year : FourDigits t
    · rw [if_pos year]
      exact Option.filter_eq_some_iff.mpr ⟨rfl, decide_eq_true year⟩
    · rw [if_neg year]
      refine Option.filter_eq_none_iff.mpr (fun _ same known => ?_)
      cases same
      exact year (of_decide_eq_true known)

/-- Equality, as a check. -/
def eq {α : Type} [DecidableEq α] (a b : α) : Bool := decide (a = b)

/-- Values of one type, compared. Those that no key is made of are all the same. -/
def same : (type : PgType) → type.Stored → type.Stored → Bool
  | .text _, s, t => @eq Str _ s t
  | .int2, a, b => @eq Int16 _ a b
  | .int4, a, b => @eq Int32 _ a b
  | .int8, a, b => @eq Int64 _ a b
  | .float4, a, b => eq (F32.bits a) (F32.bits b)
  | .float8, a, b => eq (F64.bits a) (F64.bits b)
  | .numeric, a, b => eq (Numeric.value? a) (Numeric.value? b)
  | .bool, a, b => @eq Bool _ a b
  | .uuid, a, b => @eq Uuid _ a b
  | _, _, _ => true

/-- Every value is the same as itself. -/
theorem same_refl (type : PgType) (v : type.Stored) : same type v v = true := by
  have itself {α : Type} [DecidableEq α] (a : α) : eq a a = true := decide_eq_true rfl
  cases type with
  | text _ => exact @itself Str _ v
  | int2 => exact @itself Int16 _ v
  | int4 => exact @itself Int32 _ v
  | int8 => exact @itself Int64 _ v
  | bool => exact @itself Bool _ v
  | uuid => exact @itself Uuid _ v
  | float4 | float8 | numeric => exact itself _
  | date | timestamp | timestamptz | json | jsonb | array _ | other _ => rfl

/-- Two values of one type that are the same. -/
def equal (a b : Value) : Bool :=
  if types : a.1 = b.1 then same b.1 (types ▸ a.2) b.2 else false

/-- Every value is equal to itself. -/
theorem equal_refl (value : Value) : equal value value = true := by
  rw [equal, dif_pos rfl]
  exact same_refl _ _

end Plain

/-- The crates with these formats, and the lower case of ASCII. -/
def Library.plain : Library where
  toFormats := Plain.formats
  unicode := Unicode.ascii
  parseRfc3339 := Plain.parseRfc3339
  parseNaive := Plain.parseNaive
  parseDate := Plain.formats.dateNamed
  parseUuid := Plain.formats.uuidNamed
  jsonText := Plain.jsonText
  rfc3339Secs_parts t _ := Plain.rfc3339Secs_parts t
  rfc3339Micros_parts t _ := Plain.rfc3339Micros_parts t
  parseDate_showDate d _ _ := Plain.formats.dateNamed_showDate d
  parseRfc3339_null := by decide
  parseNaive_null := by decide
  parseDate_null := by decide
  jsonText_null := rfl
  jsonText_bool _ := rfl
  jsonText_int _ := rfl
  parse_jsonText _ number finite := F64.parse_exactText number finite

/-- A server on which equal values are the same and other types do not compare. -/
def Postgres.plain : Postgres where
  keywords := ⟨fun word => word == "user".str || word == "select".str, by decide⟩
  equal := Plain.equal
  comparesOther _ := false
  ordersOther _ := false
  readOther _ _ := none
  order := id
  castText
    | ⟨.text _, s⟩ => s
    | _ => []
  runs _ := none
  equal_refl value _ := Plain.equal_refl value
  order_perm := List.Perm.refl

end LumidPlatform.Catalog
