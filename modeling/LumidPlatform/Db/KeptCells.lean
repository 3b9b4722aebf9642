import LumidPlatform.Db.Rows

/-!
# Which cells are kept

A cell is kept when its JSON stands for exactly the stored value. A numeric beyond the range
of `Decimal`, a date that `chrono` does not know and an array with a NULL in it are read as
errors, and errors become nulls. A fraction is kept as far as an `f64` can stand for it, in a
document as well.
-/

namespace LumidPlatform.Db

/-! ## What is stored, in Rust types -/

/-- A date within the calendar. -/
def dateOf (formats : Formats) : Extended Int → Option NaiveDate
  | .finite day => if formats.firstDay ≤ day ∧ day ≤ formats.lastDay then some ⟨day⟩ else none
  | .infinity _ => none

/-- The instant so many microseconds after the epoch. -/
def ofMicros (micros : Int) : DateTime := ⟨micros / 1000000, (micros % 1000000).toNat * 1000⟩

/-- An instant on a day within the calendar; day 719163 is the epoch. -/
def instantOf (formats : Formats) : Extended Int → Option DateTime
  | .finite micros =>
    let day := micros / 86400000000 + 719163
    if formats.firstDay ≤ day ∧ day ≤ formats.lastDay then some (ofMicros micros) else none
  | .infinity _ => none

/-- The elements of an array of one dimension without NULLs. -/
def PgArray.items {α : Type} : PgArray α → Option (List α)
  | .flat elements => elements.mapM id
  | .nested _ => none

/-- Each Rust type reads the values of its own types, as far as it can represent them. -/
structure Readers.Exact (formats : Formats) (readers : Readers) : Prop where
  string : ∀ type s, readers.string (.text type) s =
    if type = .char ∨ type = .tsvector then none else some s
  i16 : ∀ n, readers.i16 .int2 n = some n
  i32 : ∀ n, readers.i32 .int4 n = some n
  i64 : ∀ n, readers.i64 .int8 n = some n
  f32 : ∀ x, readers.f32 .float4 x = some x
  f64 : ∀ x, readers.f64 .float8 x = some x
  bool : ∀ b, readers.bool .bool b = some b
  uuid : ∀ u, readers.uuid .uuid u = some u
  decimal_value : ∀ n d, readers.decimal .numeric n = some d → n.value? = some d.value
  decimal_complete : ∀ n d, n.value? = some (Decimal.value d) →
    (readers.decimal .numeric n).isSome = true
  naiveDate : ∀ day, readers.naiveDate .date day = dateOf formats day
  naiveDateTime : ∀ micros, readers.naiveDateTime .timestamp micros = instantOf formats micros
  dateTimeUtc : ∀ micros, readers.dateTimeUtc .timestamptz micros = instantOf formats micros
  value_json : ∀ document, readers.value .json document = document.value
  value_jsonb : ∀ document, readers.value .jsonb document = document.value
  strings_text : ∀ array, readers.strings (.array .text) array = array.items
  strings_varchar : ∀ array, readers.strings (.array .varchar) array = array.items
  i32s : ∀ array, readers.i32s (.array .int4) array = array.items
  i64s : ∀ array, readers.i64s (.array .int8) array = array.items
  f64s : ∀ array, readers.f64s (.array .float8) array = array.items

/-! ## Concrete readers -/

namespace Plain

/-- The decimal with the fewest places that is a number. -/
def decimalOf (q : ℚ) : Option Decimal :=
  (List.finRange 29).findSome? (fun scale =>
    let scaled := q * 10 ^ scale.val
    if scaled.den = 1 ∧ scaled.num.natAbs < 2 ^ 96 then
      some ⟨decide (scaled.num < 0), BitVec.ofNat 96 scaled.num.natAbs, scale⟩
    else none)

/-- The decimal that is found has the value. -/
theorem value_of_decimalOf {q : ℚ} {d : Decimal} (found : decimalOf q = some d) : d.value = q := by
  obtain ⟨scale, _, found⟩ := List.exists_of_findSome?_eq_some found
  dsimp only at found
  split_ifs at found with fits
  cases found
  have unscaled : Decimal.unscaled ⟨decide ((q * 10 ^ scale.val).num < 0),
      BitVec.ofNat 96 (q * 10 ^ scale.val).num.natAbs, scale⟩ = (q * 10 ^ scale.val).num := by
    simp only [Decimal.unscaled, BitVec.toNat_ofNat, Nat.mod_eq_of_lt fits.2, decide_eq_true_eq]
    split <;> omega
  rw [Decimal.value, unscaled, div_eq_iff (by positivity)]
  exact Rat.coe_int_num_of_den_eq_one fits.1

/-- For the value of a decimal one is found. -/
theorem decimalOf_complete (d : Decimal) : (decimalOf d.value).isSome = true := by
  rw [decimalOf, List.findSome?_isSome_iff]
  refine ⟨d.scale, List.mem_finRange _, ?_⟩
  have scaled : d.value * 10 ^ d.scale.val = (d.unscaled : ℚ) := by
    rw [Decimal.value, div_mul_cancel₀ _ (by positivity)]
  have size : d.unscaled.natAbs < 2 ^ 96 := by
    have := d.mantissa.isLt
    unfold Decimal.unscaled
    split <;> omega
  dsimp only
  rw [scaled, if_pos ⟨Rat.den_intCast _, by rwa [Rat.num_intCast]⟩]
  rfl

end Plain

/-- The readers, as they are assumed. -/
def Readers.plain (formats : Formats) : Readers where
  string
    | .text type, s => if type = .char ∨ type = .tsvector then none else some s
    | _, _ => none
  i16 | .int2, n => some n | _, _ => none
  i32 | .int4, n => some n | _, _ => none
  i64 | .int8, n => some n | _, _ => none
  f32 | .float4, x => some x | _, _ => none
  f64 | .float8, x => some x | _, _ => none
  decimal | .numeric, n => (Numeric.value? n).bind Plain.decimalOf | _, _ => none
  bool | .bool, b => some b | _, _ => none
  naiveDate | .date, day => dateOf formats day | _, _ => none
  naiveDateTime | .timestamp, micros => instantOf formats micros | _, _ => none
  dateTimeUtc | .timestamptz, micros => instantOf formats micros | _, _ => none
  value | .json, document | .jsonb, document => Document.value document | _, _ => none
  uuid | .uuid, u => some u | _, _ => none
  strings
    | .array .text, array | .array .varchar, array => PgArray.items array
    | _, _ => none
  i32s | .array .int4, array => PgArray.items array | _, _ => none
  i64s | .array .int8, array => PgArray.items array | _, _ => none
  f64s | .array .float8, array => PgArray.items array | _, _ => none

/-- The readers of the examples read every type as documented. -/
theorem Readers.plain_exact (formats : Formats) : (Readers.plain formats).Exact formats where
  string _ _ := rfl
  i16 _ := rfl
  i32 _ := rfl
  i64 _ := rfl
  f32 _ := rfl
  f64 _ := rfl
  bool _ := rfl
  uuid _ := rfl
  decimal_value n d found := by
    obtain ⟨q, value, read⟩ := Option.bind_eq_some_iff.mp found
    rw [value, Plain.value_of_decimalOf read]
  decimal_complete n d value := by
    have found := Plain.decimalOf_complete d
    simpa only [Readers.plain, value, Option.bind_some] using found
  naiveDate _ := rfl
  naiveDateTime _ := rfl
  dateTimeUtc _ := rfl
  value_json _ := rfl
  value_jsonb _ := rfl
  strings_text _ := rfl
  strings_varchar _ := rfl
  i32s _ := rfl
  i64s _ := rfl
  f64s _ := rfl

/-! ## What JSON stands for -/

/-- The number that a JSON number, or a decimal text, stands for. -/
def number? (reading : F64.Reading) : Json → Option ℚ
  | .number n => Document.denoted reading n
  | .string s => F64.decimalValue s
  | _ => none

/-- JSON null stands for NULL. -/
inductive NullOr {α : Type} (denotes : Json → α → Prop) : Json → Option α → Prop
  | null : NullOr denotes .null none
  | value {json : Json} {a : α} (same : denotes json a) : NullOr denotes json (some a)

/-- A JSON array stands for an array element by element. -/
inductive ArrayDenotes {α : Type} (denotes : Json → α → Prop) : Json → PgArray α → Prop
  | flat {items : List Json} {elements : List (Option α)}
      (same : List.Forall₂ (NullOr denotes) items elements) :
      ArrayDenotes denotes (.array items) (.flat elements)
  | nested {items : List Json} {rows : List (PgArray α)}
      (same : List.Forall₂ (ArrayDenotes denotes) items rows) :
      ArrayDenotes denotes (.array items) (.nested rows)

/-- A JSON value denotes an element of an array. -/
def ElementDenotes : (element : ElementType) → Json → element.Stored → Prop
  | .text, json, s | .varchar, json, s => json = .string s
  | .int4, json, n => json = .number (.int (Int32.toInt n))
  | .int8, json, n => json = .number (.int (Int64.toInt n))
  | .float8, json, x => json = .number (.float x)

/-- A JSON value stands for a stored value. -/
def Denotes (formats : Formats) (reading : F64.Reading) (json : Json) :
    (type : PgType) → type.Stored → Prop
  | .text _, s => json = .string s
  | .int2, n => json = .number (.int (Int16.toInt n))
  | .int4, n => json = .number (.int (Int32.toInt n))
  | .int8, n => json = .number (.int (Int64.toInt n))
  | .float4, x => ∃ y, json = .number (.float y) ∧ y.value = F32.value x ∧
      y.negative = F32.negative x
  | .float8, x => json = .number (.float x)
  | .numeric, n => ∃ q, Numeric.value? n = some q ∧ number? reading json = some q
  | .bool, b => json = .bool b
  | .date, day => ∃ s d, json = .string s ∧ formats.dateNamed s = some d ∧ day = .finite d.days
  | .timestamp, micros => ∃ s n, json = .string s ∧ micros = .finite n ∧
      formats.timestampNamed s = some (ofMicros n)
  | .timestamptz, micros => ∃ s n, json = .string s ∧ micros = .finite n ∧
      formats.instantNamed s = some (ofMicros n)
  | .json, document | .jsonb, document => Document.Stands reading document json
  | .uuid, u => ∃ s, json = .string s ∧ formats.uuidNamed s = some u
  | .array element, array => ArrayDenotes (ElementDenotes element) json array
  | .other _, _ => False

/-- Neither a NaN nor an infinity, nor an array of one dimension with such an element. -/
def Ordinary : (type : PgType) → type.Stored → Prop
  | .float4, x => F32.isNan x = false ∧ F32.isInfinite x = false
  | .float8, x => F64.isNan x = false ∧ F64.isInfinite x = false
  | .numeric, n => (Numeric.value? n).isSome = true
  | .date, a | .timestamp, a | .timestamptz, a => ∃ n, a = .finite n
  | .array .float8, array => ∀ xs, PgArray.items array = some xs →
      ∀ x ∈ xs, F64.isNan x = false ∧ F64.isInfinite x = false
  | _, _ => True

/-- The values that are kept. -/
def Keeps (formats : Formats) (reading : F64.Reading) : (type : PgType) → type.Stored → Prop
  | .text type, _ => type ≠ .char ∧ type ≠ .tsvector
  | .numeric, n => ∃ d, Numeric.value? n = some (Decimal.value d) ∧
      ((∃ i : Int, d.value = i) ∨ ∃ x : F64, x.denotes reading = some d.value)
  | .date, day => (dateOf formats day).isSome = true
  | .timestamp, micros | .timestamptz, micros => (instantOf formats micros).isSome = true
  | .json, document | .jsonb, document =>
    document ≠ Document.null ∧ Document.depth document < recursionLimit ∧
      Document.Exact reading document
  | .array _, array => (PgArray.items array).isSome = true
  | .other _, _ => False
  | _, _ => True

/-! ## Numbers -/

/-- An `f32` keeps its value and its sign as an `f64`. -/
theorem toF64_exact {x : F32} (number : x.isNan = false) (finite : x.isInfinite = false) :
    x.toF64.value = x.value ∧ x.toF64.negative = x.negative ∧
      x.toF64.isNan = false ∧ x.toF64.isInfinite = false := by
  have short : x.fraction < 2 ^ 23 := Nat.mod_lt _ (by norm_num)
  have field : x.exponentField < 256 := Nat.mod_lt _ (by norm_num)
  have converted : x.toF64 = .ofMagnitude x.negative x.magnitude := by
    rw [F32.toF64, number, finite, if_neg Bool.false_ne_true, if_neg Bool.false_ne_true]
  have ordinary : x.exponentField ≠ 255 := by
    intro special
    simp only [F32.isNan, F32.isInfinite, special, beq_self_eq_true, Bool.true_and] at number finite
    simp_all
  obtain ⟨significand, exponent, size, below, lowest, low⟩ : ∃ (significand : Nat) (exponent : Int),
      x.magnitude = significand * 2 ^ exponent ∧ significand < 2 ^ 53 ∧ -1074 ≤ exponent ∧
        exponent ≤ 971 := by
    unfold F32.magnitude
    split_ifs with zero
    · exact ⟨x.fraction, -149, rfl, by omega, by norm_num, by norm_num⟩
    · exact ⟨2 ^ 23 + x.fraction, (x.exponentField : Int) - 150, by push_cast; rfl, by omega,
        by omega, by omega⟩
  have kept : x.toF64.magnitude = x.magnitude := by
    rw [converted, size, F64.magnitude_ofMagnitude_short _ _ _ below lowest low]
  have sign : x.toF64.negative = x.negative := by rw [converted, F64.negative_ofMagnitude]
  refine ⟨by rw [F64.value, F32.value, kept, sign], sign, F64.finite_of_magnitude ?_⟩
  rw [kept, size]
  exact F64.short_lt_limit _ _ below low

/-- A float is shown as a number that is read as the float. -/
theorem number?_jsonNumF64 (reading : F64.Reading) (x : F64) :
    number? reading (jsonNumF64 x) = x.denotes reading := by
  unfold jsonNumF64 Json.ofF64
  split_ifs with special
  · unfold F64.denotes
    rw [if_pos special]
    rfl
  · rfl

/-- A float that is finite is shown as a number. -/
theorem jsonNumF64_finite {x : F64} (number : x.isNan = false) (finite : x.isInfinite = false) :
    jsonNumF64 x = .number (.float x) := by
  rw [jsonNumF64, Json.ofF64, number, finite, Bool.or_self, if_neg Bool.false_ne_true]

/-- A decimal is whole if it has no fractional part. -/
theorem fract_eq_zero_iff (formats : Formats) (d : Decimal) :
    (formats.fract d).value = 0 ↔ ∃ i : Int, d.value = i := by
  rw [formats.fract_value, sub_eq_zero]
  constructor
  · exact fun whole => ⟨_, whole⟩
  · rintro ⟨i, whole⟩
    rw [whole]
    have power : (0 : Int) < 10 ^ d.scale.val := by positivity
    have product : d.unscaled = i * 10 ^ d.scale.val := by
      rw [Decimal.value, div_eq_iff (by positivity)] at whole
      exact_mod_cast whole
    rw [Decimal.truncated, product, Int.mul_tdiv_cancel _ power.ne']

/-- The JSON of a decimal stands for it if it is whole, or if some `f64` does. -/
theorem number?_decimalToJson (formats : Formats) (reading : F64.Reading) (d : Decimal) :
    number? reading (decimalToJson formats d) = some d.value ↔
      (∃ i : Int, d.value = i) ∨ ∃ x : F64, x.denotes reading = some d.value := by
  have printed : F64.decimalValue (formats.showDecimal (formats.normalize d)) = some d.value := by
    rw [formats.showDecimal_value, formats.normalize_value]
  unfold decimalToJson
  by_cases whole : (formats.fract d).value = 0
  · rw [if_pos whole]
    refine iff_of_true ?_ (.inl ((fract_eq_zero_iff formats d).mp whole))
    rw [formats.toI64_eq]
    split_ifs with fits
    · have stored : (Int64.ofInt d.truncated).toInt = d.truncated :=
        Int64.toInt_ofInt_of_le fits.1 fits.2
      rw [formats.fract_value, sub_eq_zero] at whole
      dsimp only [number?, Document.denoted]
      rw [stored, whole]
    · exact printed
  · rw [if_neg whole]
    have nonzero : d.value ≠ 0 := by
      intro zero
      exact whole ((fract_eq_zero_iff formats d).mpr ⟨0, by rw [zero, Int.cast_zero]⟩)
    rw [F64.parse_of_decimalValue printed nonzero, Option.map_some, Option.getD_some,
      number?_jsonNumF64]
    constructor
    · exact fun kept => .inr ⟨_, kept⟩
    · rintro (integer | ⟨x, named⟩)
      · exact absurd ((fract_eq_zero_iff formats d).mpr integer) whole
      · exact F64.nearest_denotes nonzero named

/-! ## Cells -/

variable {formats : Formats} {readers : Readers} {reading : F64.Reading}

/-- Kept: not null, and standing for the stored value. -/
def Kept (formats : Formats) (readers : Readers) (reading : F64.Reading) (column : Column)
    (value : column.type.Stored) : Prop :=
  cellToJson formats readers column ≠ .null ∧
    Denotes formats reading (cellToJson formats readers column) column.type value

/-- A float of four bytes is kept exactly if it is one that keeps. -/
theorem kept_float4_iff (faithful : readers.Exact formats) (name : Str) (x : F32)
    (number : x.isNan = false) (finite : x.isInfinite = false) :
    Kept formats readers reading ⟨name, .float4, some x⟩ x ↔ Keeps formats reading .float4 x := by
  have read : tryGet readers.f32 ⟨name, .float4, some x⟩ = some x := faithful.f32 x
  obtain ⟨kept, sign, stillNumber, stillFinite⟩ := toF64_exact number finite
  simp only [Kept, cellToJson, orNull, read, Denotes, Keeps]
  rw [Option.map_some, Option.getD_some, jsonNumF64_finite stillNumber stillFinite]
  exact iff_of_true ⟨Json.noConfusion, _, rfl, kept, sign⟩ trivial

/-- A float of eight bytes is kept exactly if it is one that keeps. -/
theorem kept_float8_iff (faithful : readers.Exact formats) (name : Str) (x : F64)
    (number : x.isNan = false) (finite : x.isInfinite = false) :
    Kept formats readers reading ⟨name, .float8, some x⟩ x ↔ Keeps formats reading .float8 x := by
  have read : tryGet readers.f64 ⟨name, .float8, some x⟩ = some x := faithful.f64 x
  simp only [Kept, cellToJson, orNull, read, Denotes, Keeps]
  rw [Option.map_some, Option.getD_some, jsonNumF64_finite number finite]
  exact iff_of_true ⟨Json.noConfusion, rfl⟩ trivial

/-- A decimal is kept exactly if it is one that keeps. -/
theorem kept_numeric_iff (faithful : readers.Exact formats) (name : Str) (n : Numeric) :
    Kept formats readers reading ⟨name, .numeric, some n⟩ n ↔ Keeps formats reading .numeric n := by
  have read : tryGet readers.decimal ⟨name, .numeric, some n⟩ = readers.decimal .numeric n := rfl
  simp only [Kept, cellToJson, orNull, read, Denotes, Keeps]
  cases found : readers.decimal .numeric n with
  | none =>
    refine iff_of_false (fun kept => kept.1 rfl) ?_
    rintro ⟨d, value, _⟩
    have some := faithful.decimal_complete n d value
    rw [found] at some
    cases some
  | some d =>
    have value := faithful.decimal_value n d found
    rw [Option.map_some, Option.getD_some, value]
    constructor
    · rintro ⟨_, q, same, stands⟩
      cases same
      exact ⟨d, rfl, (number?_decimalToJson formats reading d).mp stands⟩
    · rintro ⟨e, same, condition⟩
      rw [← Option.some.inj same] at condition
      have stands := (number?_decimalToJson formats reading d).mpr condition
      refine ⟨?_, _, rfl, stands⟩
      intro null
      rw [null] at stands
      cases stands

/-- The fraction of a second is less than a second. -/
theorem nanos_ofMicros (micros : Int) : (ofMicros micros).nanos < 1000000000 := by
  have := Int.emod_lt_of_pos micros (show (0 : Int) < 1000000 by norm_num)
  simp only [ofMicros]
  omega

/-- Microseconds are all that an instant of the database has. -/
theorem micros_ofMicros (micros : Int) :
    (⟨(ofMicros micros).seconds, (ofMicros micros).nanos / 1000 * 1000⟩ : DateTime) =
      ofMicros micros := by
  simp only [ofMicros, DateTime.mk.injEq, true_and]
  omega

/-- A timestamp is shown as a text that is read as the timestamp. -/
theorem timestampNamed_naive (micros : Int) :
    ∃ s, naiveTsToJson formats (ofMicros micros) = .string s ∧
      formats.timestampNamed s = some (ofMicros micros) := by
  refine ⟨_, rfl, ?_⟩
  have bounded := nanos_ofMicros micros
  split_ifs with whole
  · rw [formats.timestampNamed_formatSeconds _ bounded, ← whole]
  · rw [formats.timestampNamed_formatMicros _ bounded, micros_ofMicros]

/-- So is an instant in UTC. -/
theorem instantNamed_utcText (micros : Int) :
    formats.instantNamed (utcText formats (ofMicros micros)) = some (ofMicros micros) := by
  have bounded := nanos_ofMicros micros
  unfold utcText
  split_ifs with whole
  · rw [formats.instantNamed_rfc3339Secs _ bounded, ← whole]
  · rw [formats.instantNamed_rfc3339Micros _ bounded, micros_ofMicros]

/-- A date is kept exactly if it is one that keeps. -/
theorem kept_date_iff (faithful : readers.Exact formats) (name : Str) (day : Extended Int) :
    Kept formats readers reading ⟨name, .date, some day⟩ day ↔ Keeps formats reading .date day := by
  have read : tryGet readers.naiveDate ⟨name, .date, some day⟩ = dateOf formats day :=
    faithful.naiveDate day
  simp only [Kept, cellToJson, orNull, read, Denotes, Keeps]
  cases known : dateOf formats day with
  | none => exact iff_of_false (fun kept => kept.1 rfl) Bool.false_ne_true
  | some d =>
    refine iff_of_true ⟨Json.noConfusion, _, d, rfl, formats.dateNamed_showDate d, ?_⟩ rfl
    cases day with
    | infinity negative => cases known
    | finite n =>
      unfold dateOf at known
      dsimp only at known
      split_ifs at known
      cases known
      rfl

/-- An instant that is known is the one that was stored. -/
theorem finite_of_instantOf {micros : Extended Int} {t : DateTime}
    (known : instantOf formats micros = some t) : ∃ n, micros = .finite n ∧ t = ofMicros n := by
  cases micros with
  | infinity negative => cases known
  | finite n =>
    unfold instantOf at known
    dsimp only at known
    split_ifs at known
    cases known
    exact ⟨n, rfl, rfl⟩

/-- A timestamp is kept exactly if it is one that keeps. -/
theorem kept_timestamp_iff (faithful : readers.Exact formats) (name : Str) (micros : Extended Int) :
    Kept formats readers reading ⟨name, .timestamp, some micros⟩ micros ↔
      Keeps formats reading .timestamp micros := by
  have read : tryGet readers.naiveDateTime ⟨name, .timestamp, some micros⟩ =
      instantOf formats micros := faithful.naiveDateTime micros
  simp only [Kept, cellToJson, orNull, read, Denotes, Keeps]
  cases known : instantOf formats micros with
  | none => exact iff_of_false (fun kept => kept.1 rfl) Bool.false_ne_true
  | some t =>
    obtain ⟨n, rfl, rfl⟩ := finite_of_instantOf known
    obtain ⟨s, text, named⟩ := @timestampNamed_naive formats n
    rw [Option.map_some, Option.getD_some, text]
    exact iff_of_true ⟨Json.noConfusion, s, n, rfl, rfl, named⟩ rfl

/-- An instant is kept exactly if it is one that keeps. -/
theorem kept_timestamptz_iff (faithful : readers.Exact formats) (name : Str) (micros : Extended Int) :
    Kept formats readers reading ⟨name, .timestamptz, some micros⟩ micros ↔
      Keeps formats reading .timestamptz micros := by
  have read : tryGet readers.dateTimeUtc ⟨name, .timestamptz, some micros⟩ =
      instantOf formats micros := faithful.dateTimeUtc micros
  simp only [Kept, cellToJson, orNull, read, Denotes, Keeps]
  cases known : instantOf formats micros with
  | none => exact iff_of_false (fun kept => kept.1 rfl) Bool.false_ne_true
  | some t =>
    obtain ⟨n, rfl, rfl⟩ := finite_of_instantOf known
    exact iff_of_true ⟨Json.noConfusion, _, n, rfl, rfl, instantNamed_utcText n⟩ rfl

/-! ## Arrays -/

/-- An array that is read in full has no null among its elements. -/
theorem elements_of_items {α : Type} {elements : List (Option α)} {xs : List α}
    (read : PgArray.items (.flat elements) = some xs) : elements = xs.map some := by
  have read : elements.mapM id = some xs := read
  induction elements generalizing xs with
  | nil =>
    cases read
    rfl
  | cons element rest inductionHypothesis =>
    rw [List.mapM_cons] at read
    obtain ⟨x, head, read⟩ := Option.bind_eq_some_iff.mp read
    obtain ⟨others, tail, read⟩ := Option.bind_eq_some_iff.mp read
    cases read
    rw [List.map_cons, ← inductionHypothesis tail tail]
    exact congrArg (· :: rest) head

/-- An array that can be read is kept element by element, and no other array is. -/
theorem arrayDenotes_iff {α : Type} {denotes : Json → α → Prop} {convert : α → Json}
    {array : PgArray α}
    (same : ∀ xs, array.items = some xs → ∀ x ∈ xs, denotes (convert x) x) :
    (orNull array.items (fun xs => .array (xs.map convert)) ≠ .null ∧
      ArrayDenotes denotes (orNull array.items (fun xs => .array (xs.map convert))) array) ↔
        array.items.isSome = true := by
  cases read : array.items with
  | none => exact iff_of_false (fun kept => kept.1 rfl) Bool.false_ne_true
  | some xs =>
    refine iff_of_true ⟨Json.noConfusion, ?_⟩ rfl
    cases array with
    | nested rows => cases read
    | flat elements =>
      rw [elements_of_items read]
      refine .flat ?_
      rw [List.forall₂_map_left_iff, List.forall₂_map_right_iff, List.forall₂_same]
      exact fun x member => .value (same xs read x member)

/-- An array is kept exactly if it is one that keeps: of one dimension, and without nulls. -/
theorem kept_array_iff (faithful : readers.Exact formats) (name : Str) (element : ElementType)
    (array : PgArray element.Stored) (ordinary : Ordinary (.array element) array) :
    Kept formats readers reading ⟨name, .array element, some array⟩ array ↔
      Keeps formats reading (.array element) array := by
  cases element with
  | text =>
    have read : tryGet readers.strings ⟨name, .array .text, some array⟩ = PgArray.items array :=
      faithful.strings_text array
    simp only [Kept, cellToJson, read]
    exact arrayDenotes_iff fun _ _ _ _ => rfl
  | varchar =>
    have read : tryGet readers.strings ⟨name, .array .varchar, some array⟩ = PgArray.items array :=
      faithful.strings_varchar array
    simp only [Kept, cellToJson, read]
    exact arrayDenotes_iff fun _ _ _ _ => rfl
  | int4 =>
    have read : tryGet readers.i32s ⟨name, .array .int4, some array⟩ = PgArray.items array :=
      faithful.i32s array
    simp only [Kept, cellToJson, read]
    exact arrayDenotes_iff fun _ _ x _ => congrArg (Json.number ∘ JsonNumber.int)
      (Int32.toInt_toInt64 x)
  | int8 =>
    have read : tryGet readers.i64s ⟨name, .array .int8, some array⟩ = PgArray.items array :=
      faithful.i64s array
    simp only [Kept, cellToJson, read]
    exact arrayDenotes_iff fun _ _ _ _ => rfl
  | float8 =>
    have read : tryGet readers.f64s ⟨name, .array .float8, some array⟩ = PgArray.items array :=
      faithful.f64s array
    simp only [Kept, cellToJson, read]
    refine arrayDenotes_iff fun xs items x member => ?_
    obtain ⟨number, finite⟩ := ordinary xs items x member
    exact jsonNumF64_finite number finite

/-! ## Every cell -/

/-- A cell of a type that `cell_to_json` names is kept if and only if it is a text that can
be read, a decimal in range that is whole or that some `f64` stands for, a day or an instant
within the calendar, an exact document that is not null, an array of one dimension without
NULLs, or of any other type. -/
theorem kept_iff (faithful : readers.Exact formats) (column : Column) (value : column.type.Stored)
    (cell : column.cell = some value) (named : ∀ name, column.type ≠ .other name)
    (ordinary : Ordinary column.type value) :
    Kept formats readers reading column value ↔ Keeps formats reading column.type value := by
  obtain ⟨name, type, stored⟩ := column
  dsimp only at value cell named ordinary
  subst cell
  cases type with
  | text type =>
    have read : tryGet readers.string ⟨name, .text type, some value⟩ =
        if type = .char ∨ type = .tsvector then none else some value := faithful.string type value
    simp only [Kept, cellToJson, orNull, read, Denotes, Keeps]
    rw [← not_or]
    by_cases unread : type = .char ∨ type = .tsvector
    · rw [if_pos unread]
      exact iff_of_false (fun kept => kept.1 rfl) (not_not_intro unread)
    · rw [if_neg unread]
      exact iff_of_true ⟨Json.noConfusion, rfl⟩ unread
  | int2 =>
    have read : tryGet readers.i16 ⟨name, .int2, some value⟩ = some value := faithful.i16 value
    simp only [Kept, cellToJson, read, Denotes, Keeps]
    refine iff_of_true ⟨Json.noConfusion, ?_⟩ trivial
    exact congrArg (Json.number ∘ JsonNumber.int) (Int16.toInt_toInt64 value)
  | int4 =>
    have read : tryGet readers.i32 ⟨name, .int4, some value⟩ = some value := faithful.i32 value
    simp only [Kept, cellToJson, read, Denotes, Keeps]
    refine iff_of_true ⟨Json.noConfusion, ?_⟩ trivial
    exact congrArg (Json.number ∘ JsonNumber.int) (Int32.toInt_toInt64 value)
  | int8 =>
    have read : tryGet readers.i64 ⟨name, .int8, some value⟩ = some value := faithful.i64 value
    simp only [Kept, cellToJson, read, Denotes, Keeps]
    exact iff_of_true ⟨Json.noConfusion, rfl⟩ trivial
  | float4 => exact kept_float4_iff faithful name value ordinary.1 ordinary.2
  | float8 => exact kept_float8_iff faithful name value ordinary.1 ordinary.2
  | numeric => exact kept_numeric_iff faithful name value
  | bool =>
    have read : tryGet readers.bool ⟨name, .bool, some value⟩ = some value := faithful.bool value
    simp only [Kept, cellToJson, orNull, read, Denotes, Keeps]
    exact iff_of_true ⟨Json.noConfusion, rfl⟩ trivial
  | date => exact kept_date_iff faithful name value
  | timestamp => exact kept_timestamp_iff faithful name value
  | timestamptz => exact kept_timestamptz_iff faithful name value
  | json =>
    have read : tryGet readers.value ⟨name, .json, some value⟩ = value.value :=
      faithful.value_json value
    simp only [Kept, cellToJson, read, Denotes, Keeps]
    exact Document.value_kept_iff value
  | jsonb =>
    have read : tryGet readers.value ⟨name, .jsonb, some value⟩ = value.value :=
      faithful.value_jsonb value
    simp only [Kept, cellToJson, read, Denotes, Keeps]
    exact Document.value_kept_iff value
  | uuid =>
    have read : tryGet readers.uuid ⟨name, .uuid, some value⟩ = some value := faithful.uuid value
    simp only [Kept, cellToJson, orNull, read, Denotes, Keeps]
    exact iff_of_true ⟨Json.noConfusion, _, rfl, formats.uuidNamed_showUuid value⟩ trivial
  | array element => exact kept_array_iff faithful name element value ordinary
  | other other => exact absurd rfl (named other)

/-- A whole price of two decimal places is kept. -/
theorem price_kept :
    Kept .plain (.plain .plain) .bits ⟨"price".str, .numeric, some (.finite 500 2)⟩
      (.finite 500 2) := by
  have five : Decimal.value ⟨false, 5, 0⟩ = 5 := by
    simp [Decimal.value, Decimal.unscaled]
  refine (kept_iff (Readers.plain_exact .plain) ⟨"price".str, .numeric, some (.finite 500 2)⟩
    (.finite 500 2) rfl (fun _ => PgType.noConfusion) rfl).mpr ?_
  refine ⟨⟨false, 5, 0⟩, ?_, .inl ⟨5, by rw [five]; rfl⟩⟩
  rw [five, Numeric.value?]
  norm_num

/-- An array with a NULL in it is lost as a whole. -/
theorem scores_lost :
    (Readers.plain .plain).Exact .plain ∧
      Ordinary (.array .int4) (PgArray.flat [some (1 : Int32), none]) ∧
      ∀ reading, ¬Kept .plain (.plain .plain) reading
        ⟨"scores".str, .array .int4, some (PgArray.flat [some (1 : Int32), none])⟩
        (PgArray.flat [some (1 : Int32), none]) :=
  ⟨Readers.plain_exact .plain, trivial, fun _ kept => kept.1 rfl⟩

end LumidPlatform.Db
