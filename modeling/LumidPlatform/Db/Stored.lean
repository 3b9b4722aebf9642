import LumidPlatform.Db.Documents

/-!
# What a query returns

A row is a list of named columns. Each has a type of the database and, unless it is NULL,
a value of that type. Every Rust type has a reader, which succeeds on some values of some
types. The readers, and what the crates of the Rust types compute, are arguments, with the
documented facts about them.
-/

namespace LumidPlatform.Db

/-! ## Types -/

/-- The types of texts. -/
inductive TextType where
  | text | varchar | bpchar | char | name | citext | tsvector
  deriving DecidableEq

/-- The element types of arrays. -/
inductive ElementType where
  | text | varchar | int4 | int8 | float8
  deriving DecidableEq

/-- A type of a column, by its name in the database. -/
inductive PgType where
  | text (type : TextType)
  | int2 | int4 | int8 | float4 | float8 | numeric | bool | date | timestamp | timestamptz
  | json | jsonb | uuid
  /-- `_text` and the like. -/
  | array (element : ElementType)
  | other (name : Str)
  deriving DecidableEq

/-! ## Values -/

/-- A `numeric`: a whole number divided by a power of ten, or none at all. -/
inductive Numeric where
  | finite (unscaled : Int) (scale : Nat)
  | infinity (negative : Bool)
  | nan

/-- The number, if it is finite. -/
def Numeric.value? : Numeric → Option ℚ
  | .finite unscaled scale => some (unscaled / 10 ^ scale)
  | _ => none

/-- A value of an order that the database extends at both ends. -/
inductive Extended (α : Type) where
  | finite (a : α)
  | infinity (negative : Bool)

/-- An `f32`, by its bits. -/
structure F32 where
  bits : BitVec 32

namespace F32

/-- The sign. -/
def negative (x : F32) : Bool := x.bits.msb

/-- The eight bits of the exponent. -/
def exponentField (x : F32) : Nat := x.bits.toNat / 2 ^ 23 % 256

/-- The 23 bits of the fraction. -/
def fraction (x : F32) : Nat := x.bits.toNat % 2 ^ 23

/-- The exponent of all ones, with a fraction. -/
def isNan (x : F32) : Bool := x.exponentField == 255 && x.fraction != 0

/-- The same without one. -/
def isInfinite (x : F32) : Bool := x.exponentField == 255 && x.fraction == 0

/-- The absolute value of a finite number. -/
def magnitude (x : F32) : ℚ :=
  if x.exponentField = 0 then x.fraction * (2 : ℚ) ^ (-149 : Int)
  else (2 ^ 23 + x.fraction) * (2 : ℚ) ^ ((x.exponentField : Int) - 150)

/-- The value of a float that is finite. -/
def value (x : F32) : ℚ := if x.negative then -x.magnitude else x.magnitude

/-- `x as f64`. -/
def toF64 (x : F32) : F64 :=
  if x.isNan then .nan x.negative
  else if x.isInfinite then .infinity x.negative
  else .ofMagnitude x.negative x.magnitude

end F32

/-- A `Uuid`. -/
structure Uuid where
  bits : BitVec 128
  deriving DecidableEq

/-- An array: its elements, or in more dimensions its rows. -/
inductive PgArray (α : Type) where
  | flat (elements : List (Option α))
  | nested (rows : List (PgArray α))

/-- The values of the types that arrays are read of. -/
def ElementType.Stored : ElementType → Type
  | .text | .varchar => Str
  | .int4 => Int32
  | .int8 => Int64
  | .float8 => F64

/-- The values of a type. A date is its day number from the common era; instants count
microseconds from the epoch. -/
def PgType.Stored : PgType → Type
  | .text _ => Str
  | .int2 => Int16
  | .int4 => Int32
  | .int8 => Int64
  | .float4 => F32
  | .float8 => F64
  | .numeric => Numeric
  | .bool => Bool
  | .date | .timestamp | .timestamptz => Extended Int
  | .json | .jsonb => Document
  | .uuid => Uuid
  | .array element => PgArray element.Stored
  | .other _ => Bytes

/-- A column of a row, with its cell in it. -/
structure Column where
  name : Str
  type : PgType
  cell : Option type.Stored

/-- A `tokio_postgres::Row`. -/
abbrev Row := List Column

/-! ## Rust types -/

/-- A `rust_decimal::Decimal`. -/
structure Decimal where
  negative : Bool
  mantissa : BitVec 96
  scale : Fin 29

namespace Decimal

/-- The mantissa with its sign. -/
def unscaled (d : Decimal) : Int := if d.negative then -d.mantissa.toNat else d.mantissa.toNat

/-- The value of a decimal. -/
def value (d : Decimal) : ℚ := d.unscaled / 10 ^ d.scale.val

/-- The number without its decimal places. -/
def truncated (d : Decimal) : Int := d.unscaled.tdiv (10 ^ d.scale.val)

end Decimal

/-- `FromSql` of a Rust type; `none` is an error, also that the type is not accepted. -/
abbrev Reader (α : Type) := (type : PgType) → type.Stored → Option α

/-- The Rust types that cells are read as. -/
structure Readers where
  string : Reader Str
  i16 : Reader Int16
  i32 : Reader Int32
  i64 : Reader Int64
  f32 : Reader F32
  f64 : Reader F64
  decimal : Reader Decimal
  bool : Reader Bool
  naiveDate : Reader NaiveDate
  naiveDateTime : Reader DateTime
  dateTimeUtc : Reader DateTime
  value : Reader Json
  uuid : Reader Uuid
  strings : Reader (List Str)
  i32s : Reader (List Int32)
  i64s : Reader (List Int64)
  f64s : Reader (List F64)

/-- `try_get::<_, Option<T>>(idx).ok().flatten()`: an error is taken for a NULL. -/
def tryGet {α : Type} (reader : Reader α) (column : Column) : Option α :=
  column.cell.bind (reader column.type)

/-- What is computed and printed of decimals, dates, instants and UUIDs, with the numbers,
days and instants that the printed texts name. -/
structure Formats where
  fract : Decimal → Decimal
  toI64 : Decimal → Option Int64
  normalize : Decimal → Decimal
  showDecimal : Decimal → Str
  /-- `NaiveDate::to_string`. -/
  showDate : NaiveDate → Str
  /-- `format("%Y-%m-%dT%H:%M:%S")`. -/
  formatSeconds : DateTime → Str
  /-- `format("%Y-%m-%dT%H:%M:%S%.6f")`. -/
  formatMicros : DateTime → Str
  /-- `to_rfc3339_opts(SecondsFormat::Secs, true)`. -/
  rfc3339Secs : DateTime → Str
  /-- `to_rfc3339_opts(SecondsFormat::Micros, true)`. -/
  rfc3339Micros : DateTime → Str
  /-- `Uuid::to_string`. -/
  showUuid : Uuid → Str
  dateNamed : Str → Option NaiveDate
  timestampNamed : Str → Option DateTime
  instantNamed : Str → Option DateTime
  uuidNamed : Str → Option Uuid
  /-- `NaiveDate::MIN` and `NaiveDate::MAX`. -/
  firstDay : Int
  lastDay : Int
  fract_value : ∀ d, (fract d).value = d.value - d.truncated
  toI64_eq : ∀ d, toI64 d =
    if -2 ^ 63 ≤ d.truncated ∧ d.truncated < 2 ^ 63 then some (Int64.ofInt d.truncated) else none
  normalize_value : ∀ d, (normalize d).value = d.value
  showDecimal_value : ∀ d, F64.decimalValue (showDecimal d) = some d.value
  dateNamed_showDate : ∀ d, dateNamed (showDate d) = some d
  timestampNamed_formatSeconds : ∀ t, t.nanos < 1000000000 →
    timestampNamed (formatSeconds t) = some ⟨t.seconds, 0⟩
  timestampNamed_formatMicros : ∀ t, t.nanos < 1000000000 →
    timestampNamed (formatMicros t) = some ⟨t.seconds, t.nanos / 1000 * 1000⟩
  instantNamed_rfc3339Secs : ∀ t, t.nanos < 1000000000 →
    instantNamed (rfc3339Secs t) = some ⟨t.seconds, 0⟩
  instantNamed_rfc3339Micros : ∀ t, t.nanos < 1000000000 →
    instantNamed (rfc3339Micros t) = some ⟨t.seconds, t.nanos / 1000 * 1000⟩
  uuidNamed_showUuid : ∀ u, uuidNamed (showUuid u) = some u

/-! ## Concrete functions

Decimals are shown as they stand. The spelling of dates, instants and UUIDs is only some
spelling that can be read back. They serve to run the model on concrete rows. -/

namespace Plain

/-- The decimal places alone. -/
def fract (d : Decimal) : Decimal :=
  { d with mantissa := BitVec.ofNat 96 (d.mantissa.toNat % 10 ^ d.scale.val) }

/-- The fraction is what is left of the value after its integral part. -/
theorem fract_value (d : Decimal) : (fract d).value = d.value - d.truncated := by
  have small : d.mantissa.toNat % 10 ^ d.scale.val < 2 ^ 96 :=
    (Nat.mod_le _ _).trans_lt d.mantissa.isLt
  have places : (fract d).unscaled = d.unscaled.tmod (10 ^ d.scale.val) := by
    have cast : ((10 ^ d.scale.val : Nat) : Int) = 10 ^ d.scale.val := by push_cast; rfl
    simp only [fract, Decimal.unscaled, BitVec.toNat_ofNat, Nat.mod_eq_of_lt small]
    rw [← cast]
    cases d.negative with
    | true => rw [if_pos rfl, if_pos rfl, Int.neg_tmod, Int.ofNat_tmod]
    | false =>
      rw [if_neg Bool.false_ne_true, if_neg Bool.false_ne_true, Int.ofNat_tmod]
  have split := Int.tmod_add_mul_tdiv d.unscaled (10 ^ d.scale.val)
  have value : (d.unscaled : ℚ) =
      (d.unscaled.tmod (10 ^ d.scale.val) : Int) + 10 ^ d.scale.val * (d.truncated : ℚ) := by
    rw [Decimal.truncated]
    exact_mod_cast split.symm
  have power : (10 : ℚ) ^ d.scale.val ≠ 0 := by positivity
  rw [Decimal.value, Decimal.value, places, value]
  change _ / (10 : ℚ) ^ d.scale.val = _
  field_simp
  ring

/-- A decimal is written with its sign and its point. -/
def showDecimal (d : Decimal) : Str :=
  (if d.negative then ['-'] else []) ++ F64.positional d.mantissa.toNat (-(d.scale.val : Int))

/-- What is written is read as the value. -/
theorem showDecimal_value (d : Decimal) : F64.decimalValue (showDecimal d) = some d.value := by
  rw [showDecimal, F64.decimalValue_signed _ (F64.parseDecimal_positional _ _), Decimal.value,
    Decimal.unscaled, zpow_neg, zpow_natCast, ← div_eq_mul_inv]
  cases d.negative with
  | true => simp [neg_div]
  | false => simp

/-- Any form that can be read again will do. -/
def showInstant (seconds : Int) (nanos : Nat) : Str :=
  Text.showNat (Nat.pair (Equiv.intEquivNat seconds) nanos)

/-- It is read by taking it apart. -/
def instantNamed (s : Str) : Option DateTime :=
  (Text.parseDigits s).map (fun n => ⟨Equiv.intEquivNat.symm n.unpair.1, n.unpair.2⟩)

/-- An instant is read back. -/
theorem instantNamed_showInstant (seconds : Int) (nanos : Nat) :
    instantNamed (showInstant seconds nanos) = some ⟨seconds, nanos⟩ := by
  rw [instantNamed, showInstant, Text.parseDigits_showNat, Option.map_some, Nat.unpair_pair,
    Equiv.symm_apply_apply]

end Plain

/-- The formats of the examples. -/
def Formats.plain : Formats where
  fract := Plain.fract
  toI64 d := if -2 ^ 63 ≤ d.truncated ∧ d.truncated < 2 ^ 63 then some (Int64.ofInt d.truncated)
    else none
  normalize := id
  showDecimal := Plain.showDecimal
  showDate d := Plain.showInstant d.days 0
  formatSeconds t := Plain.showInstant t.seconds 0
  formatMicros t := Plain.showInstant t.seconds (t.nanos / 1000 * 1000)
  rfc3339Secs t := Plain.showInstant t.seconds 0
  rfc3339Micros t := Plain.showInstant t.seconds (t.nanos / 1000 * 1000)
  showUuid u := Text.showNat u.bits.toNat
  dateNamed s := (Plain.instantNamed s).map (fun t => ⟨t.seconds⟩)
  timestampNamed := Plain.instantNamed
  instantNamed := Plain.instantNamed
  uuidNamed s := (Text.parseDigits s).map (fun n => ⟨BitVec.ofNat 128 n⟩)
  firstDay := -95746129
  lastDay := 95745399
  fract_value := Plain.fract_value
  toI64_eq _ := rfl
  normalize_value _ := rfl
  showDecimal_value := Plain.showDecimal_value
  dateNamed_showDate d := by rw [Plain.instantNamed_showInstant]; rfl
  timestampNamed_formatSeconds t _ := Plain.instantNamed_showInstant _ _
  timestampNamed_formatMicros t _ := Plain.instantNamed_showInstant _ _
  instantNamed_rfc3339Secs t _ := Plain.instantNamed_showInstant _ _
  instantNamed_rfc3339Micros t _ := Plain.instantNamed_showInstant _ _
  uuidNamed_showUuid u := by simp [Text.parseDigits_showNat]

end LumidPlatform.Db
