import LumidPlatform.Db.Stored

/-!
# Rows as JSON

Every read handler answers with rows converted here. The type of a column chooses the Rust
type its cell is read as; whatever cannot be read becomes null.
-/

namespace LumidPlatform.Db

/-- `num_i64`. -/
def numI64 (v : Option Int64) : Json := (v.map (fun n => .number (.int n.toInt))).getD .null

/-- `json_num_f64`: a number that is not finite has no JSON form. -/
def jsonNumF64 (v : F64) : Json := .ofF64 v

/-- A whole decimal becomes an integer, or its digits beyond 64 bits; a fraction becomes the
nearest `f64`. -/
def decimalToJson (formats : Formats) (d : Decimal) : Json :=
  if (formats.fract d).value = 0 then
    match formats.toI64 d with
    | some n => .number (.int n.toInt)
    | none => .string (formats.showDecimal (formats.normalize d))
  else ((F64.parse (formats.showDecimal (formats.normalize d))).map jsonNumF64).getD .null

/-- Microseconds are left out when there are none. -/
def naiveTsToJson (formats : Formats) (t : DateTime) : Json :=
  .string (if t.nanos = 0 then formats.formatSeconds t else formats.formatMicros t)

/-- The text of a `timestamptz`. -/
def utcText (formats : Formats) (t : DateTime) : Str :=
  if t.nanos = 0 then formats.rfc3339Secs t else formats.rfc3339Micros t

/-- What was read, converted, or null. -/
def orNull {α : Type} (read : Option α) (convert : α → Json) : Json := (read.map convert).getD .null

/-- `cell_to_json`. -/
def cellToJson (formats : Formats) (readers : Readers) (column : Column) : Json :=
  match column.type with
  | .text _ => orNull (tryGet readers.string column) .string
  | .int2 => numI64 ((tryGet readers.i16 column).map Int16.toInt64)
  | .int4 => numI64 ((tryGet readers.i32 column).map Int32.toInt64)
  | .int8 => numI64 (tryGet readers.i64 column)
  | .float4 => orNull (tryGet readers.f32 column) (fun v => jsonNumF64 v.toF64)
  | .float8 => orNull (tryGet readers.f64 column) jsonNumF64
  | .numeric => orNull (tryGet readers.decimal column) (decimalToJson formats)
  | .bool => orNull (tryGet readers.bool column) .bool
  | .date => orNull (tryGet readers.naiveDate column) (fun d => .string (formats.showDate d))
  | .timestamp => orNull (tryGet readers.naiveDateTime column) (naiveTsToJson formats)
  | .timestamptz => orNull (tryGet readers.dateTimeUtc column) (fun t => .string (utcText formats t))
  | .json | .jsonb => (tryGet readers.value column).getD .null
  | .uuid => orNull (tryGet readers.uuid column) (fun u => .string (formats.showUuid u))
  | .array .text | .array .varchar =>
    orNull (tryGet readers.strings column) (fun v => .array (v.map .string))
  | .array .int4 =>
    orNull (tryGet readers.i32s column) (fun v => .array (v.map (fun x => numI64 (some x.toInt64))))
  | .array .int8 =>
    orNull (tryGet readers.i64s column) (fun v => .array (v.map (fun x => numI64 (some x))))
  | .array .float8 => orNull (tryGet readers.f64s column) (fun v => .array (v.map jsonNumF64))
  | .other _ => orNull (tryGet readers.string column) .string

/-- `row_to_object`. -/
def rowToObject (formats : Formats) (readers : Readers) (row : Row) : JsonMap :=
  row.foldl (fun object column =>
    JsonMap.insert column.name (cellToJson formats readers column) object) []

/-- `rows_to_objects`. -/
def rowsToObjects (formats : Formats) (readers : Readers) (rows : List Row) : List JsonMap :=
  rows.map (rowToObject formats readers)

end LumidPlatform.Db
