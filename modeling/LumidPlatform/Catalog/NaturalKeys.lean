import LumidPlatform.Catalog.Trace
import LumidPlatform.Lib.Assoc

/-!
# Tracing a row by its own values

A value that was read from the warehouse is given back to the trace as the text that it was shown
as. It arrives as the value it was for a text, an `int8`, a finite `float8`, a truth value and a
date, and for a `timestamptz` of a year of four digits or of whole seconds. A value of any other
type is refused by the driver, for no `Param` stands for its type.
-/

namespace LumidPlatform.Catalog

open Db Write.Spelling

variable {lib : Library} {readers : Readers} {db : Postgres}

/-! ## One value -/

/-- The values that come back. -/
def Survives (formats : Formats) : (type : PgType) → type.Stored → Prop
  | .text _, _ | .int8, _ | .bool, _ => True
  | .float8, x => F64.isNan x = false ∧ F64.isInfinite x = false
  | .date, day => (dateOf formats day).isSome = true
  | .timestamptz, micros => ∃ n, micros = .finite n ∧ (instantOf formats micros).isSome = true ∧
      (FourDigits (ofMicros n) ∨ n % 1000000 = 0)
  | _, _ => False

/-- The text that a cell is shown as. -/
def cellText (lib : Library) (readers : Readers) (column : Column) : Str :=
  match cellToJson lib.toFormats readers column with
  | .string s => s
  | json => lib.jsonText json

/-- What a text is sent as to a column of the type. -/
def sent (lib : Library) (type : PgType) (value : Str) : Option type.Stored :=
  (coerceParam lib value (dataType type)).toSql type

/-- ASCII literals are ASCII texts. -/
theorem ascii_ofList {chars : List Char} (ascii : chars.all Text.isAscii = true) :
    (String.ofList chars).str.all Text.isAscii = true := by
  rwa [String.str_ofList]

/-- They are lowered character by character. -/
theorem lower_ofList {chars lowered : List Char} (lower : chars.map Text.asciiLower = lowered) :
    Text.toAsciiLowercase (String.ofList chars).str = (String.ofList lowered).str := by
  rw [String.str_ofList, String.str_ofList]
  exact lower

/-- The names of types are texts in lower case, but for two. -/
theorem lower_dataType (type : PgType) :
    Text.toAsciiLowercase (dataType type) =
      match type with
      | .array _ => "array".str
      | .text .citext | .other _ => "user-defined".str
      | type => dataType type := by
  cases type with
  | text type => cases type <;> exact lower_ofList (by decide)
  | _ => exact lower_ofList (by decide)

/-- The names of types are ASCII texts in lower case, or are coerced nothing for. -/
theorem coerceParam_dataType (type : PgType) (value : Str) :
    coerceParam lib value (dataType type) =
      match type with
      | .timestamp | .timestamptz => coerceInstant lib value
      | .date => ((lib.parseDate value).map Param.date).getD (.text value)
      | .int2 | .int4 | .int8 =>
        ((Text.parseI64 value).map (fun n => Param.int (Int64.ofInt n))).getD (.text value)
      | .float4 | .float8 | .numeric => ((F64.parse value).map Param.float).getD (.text value)
      | .bool => coerceBool lib value
      | _ => .text value := by
  have lower : lib.unicode.toLowercase (dataType type) = Text.toAsciiLowercase (dataType type) := by
    refine lib.unicode.toLowercaseFrom_ascii [] _ (List.all_eq_true.mp ?_)
    cases type with
    | text type => cases type <;> exact ascii_ofList (by decide)
    | _ => exact ascii_ofList (by decide)
  rw [coerceParam, lower, lower_dataType]
  cases type with
  | text type =>
    cases type <;> simp only [dataType, String.str_inj, String.reduceEq, or_self, if_false]
  | _ => simp only [dataType, String.str_inj, String.reduceEq, or_self, or_false, false_or,
      if_false, if_true]

/-- No Rust value of the trace stands for these types. -/
theorem toSql_foreign {type : PgType}
    (foreign : type = .uuid ∨ type = .int2 ∨ type = .int4 ∨ type = .float4 ∨ type = .numeric ∨
      type = .timestamp) (param : Param) : param.toSql type = none := by
  rcases foreign with rfl | rfl | rfl | rfl | rfl | rfl <;> cases param <;> rfl

/-- An integer that is sent as its digits is itself. -/
theorem sent_int8 (n : Int64) : sent lib .int8 (Text.showInt n.toInt) = some n := by
  rw [sent, coerceParam_dataType]
  dsimp only
  rw [Text.parseI64_showInt n.le_toInt n.toInt_lt, Option.map_some, Option.getD_some,
    Int64.ofInt_toInt]
  rfl

/-- A boolean that is sent as its word is itself. -/
theorem sent_bool (b : Bool) : sent lib .bool (Text.showBool b) = some b := by
  have lower : lib.unicode.toLowercase (Text.showBool b) =
      Text.toAsciiLowercase (Text.showBool b) := by
    refine lib.unicode.toLowercaseFrom_ascii [] _ (List.all_eq_true.mp ?_)
    cases b <;> rfl
  rw [sent, coerceParam_dataType]
  dsimp only
  rw [coerceBool, lower]
  cases b <;> rfl

/-- What is shown as null is sent as a text, and refused. -/
theorem sent_null {type : PgType} (scalar : type = .float8 ∨ type = .date ∨ type = .timestamptz) :
    sent lib type "null".str = none := by
  rw [sent, coerceParam_dataType]
  rcases scalar with rfl | rfl | rfl
  · rfl
  · dsimp only
    rw [lib.parseDate_null]
    rfl
  · dsimp only
    have unchanged : replaceZ "+00:00".str "null".str = "null".str := rfl
    have unchanged' : replaceZ [] "null".str = "null".str := rfl
    have short : lengthenOffset "null".str = none := rfl
    rw [coerceInstant, unchanged, unchanged', lib.parseRfc3339_null, short]
    dsimp only [Option.bind]
    rw [lib.parseNaive_null]
    rfl

/-! ## Instants -/

/-- The only `Z` is the last character, and is replaced. -/
theorem replaceZ_last {body : Str} (clean : 'Z' ∉ body) (replacement : Str) :
    replaceZ replacement (body ++ ['Z']) = body ++ replacement := by
  have kept : body.flatMap (fun c => if c = 'Z' then replacement else [c]) = body := by
    have single : ∀ c ∈ body, (if c = 'Z' then replacement else [c]) = [c] := by
      intro c member
      exact if_neg (fun same : c = 'Z' => clean (same ▸ member))
    rw [List.flatMap_congr single, List.flatMap_singleton']
  rw [replaceZ, List.flatMap_append, kept]
  simp

/-- A text that ends in an offset is not lengthened. -/
theorem lengthenOffset_offset (body : Str) : lengthenOffset (body ++ "+00:00".str) = none := by
  have reversed : (body ++ "+00:00".str).reverse =
      '0' :: '0' :: ':' :: '0' :: '0' :: '+' :: body.reverse := by
    rw [List.reverse_append]
    rfl
  rw [lengthenOffset, reversed]
  rfl

/-- What the printed instant is coerced to: itself, if one of two parsers knows its text. -/
theorem coerceInstant_parts {body : Str} {t : DateTime} {whole : Option DateTime}
    (clean : 'Z' ∉ body)
    (strict : lib.parseRfc3339 (body ++ "+00:00".str) = if FourDigits t then some t else none)
    (naive : lib.parseNaive body = whole) :
    coerceInstant lib (body ++ ['Z']) =
      if FourDigits t then .ts t
      else (whole.map Param.ts).getD (.text (body ++ ['Z'])) := by
  unfold coerceInstant
  dsimp only
  rw [replaceZ_last clean, replaceZ_last clean, strict, lengthenOffset_offset, List.append_nil,
    naive]
  by_cases year : FourDigits t
  · rw [if_pos year, if_pos year]
  · rw [if_neg year, if_neg year]
    cases whole <;> rfl

/-- An instant is bound as the microseconds it was read from. -/
theorem toSql_ofMicros (n : Int) :
    (Param.ts (ofMicros n)).toSql .timestamptz = some (.finite n) := by
  have micros : (ofMicros n).seconds * 1000000 + ((ofMicros n).nanos / 1000 : Nat) = n := by
    simp only [ofMicros]
    omega
  exact congrArg (fun m => some (Extended.finite m)) micros

/-- An instant that chrono can hold is one that the formats know. -/
theorem knows_ofMicros {formats : Formats} {n : Int}
    (known : (instantOf formats (.finite n)).isSome = true) : Knows formats (ofMicros n) := by
  have day : (ofMicros n).seconds / 86400 = n / 86400000000 := by
    simp only [ofMicros]
    omega
  unfold instantOf at known
  dsimp only at known
  split_ifs at known with within
  · exact ⟨day ▸ within.1, day ▸ within.2, nanos_ofMicros n⟩
  · cases known

/-- An instant of the calendar comes back if its year is written with four digits, or if it is of
whole seconds. -/
theorem sent_utcText {n : Int} (known : (instantOf lib.toFormats (.finite n)).isSome = true) :
    sent lib .timestamptz (utcText lib.toFormats (ofMicros n)) =
      if FourDigits (ofMicros n) ∨ n % 1000000 = 0 then some (.finite n) else none := by
  have knows := knows_ofMicros known
  rw [sent, coerceParam_dataType]
  dsimp only
  by_cases whole : n % 1000000 = 0
  · have none : (ofMicros n).nanos = 0 := by
      simp only [ofMicros]
      omega
    have same : (⟨(ofMicros n).seconds, 0⟩ : DateTime) = ofMicros n := by rw [← none]
    obtain ⟨body, text, clean, strict, naive⟩ := lib.rfc3339Secs_parts _ knows
    rw [same] at strict naive
    rw [utcText, if_pos none, text, coerceInstant_parts clean strict naive, Option.map_some,
      Option.getD_some, ite_self, if_pos (.inr whole), toSql_ofMicros]
  · have some : (ofMicros n).nanos ≠ 0 := by
      simp only [ofMicros]
      omega
    obtain ⟨body, text, clean, strict, naive⟩ := lib.rfc3339Micros_parts _ knows
    rw [micros_ofMicros] at strict
    rw [utcText, if_neg some, text, coerceInstant_parts clean strict naive, Option.map_none,
      Option.getD_none]
    by_cases year : FourDigits (ofMicros n)
    · rw [if_pos year, if_pos (.inl year), toSql_ofMicros]
    · rw [if_neg year, if_neg (not_or.mpr ⟨year, whole⟩)]
      rfl

/-! ## Cells -/

/-- The value comes back as it was if it is one that survives, and is refused otherwise. -/
def Returned (lib : Library) (readers : Readers) (name : Str) (type : PgType) (v : type.Stored) :
    Prop :=
  (Survives lib.toFormats type v →
      sent lib type (cellText lib readers ⟨name, type, some v⟩) = some v) ∧
    (¬ Survives lib.toFormats type v →
      sent lib type (cellText lib readers ⟨name, type, some v⟩) = none)

/-- A value that survives comes back if what is sent for its text is the value. -/
theorem returned_of_sent {name : Str} {type : PgType} {v : type.Stored}
    (survives : Survives lib.toFormats type v)
    (back : sent lib type (cellText lib readers ⟨name, type, some v⟩) = some v) :
    Returned lib readers name type v :=
  ⟨fun _ => back, fun lost => absurd survives lost⟩

/-- Where a value does not survive, it is enough that it is refused. -/
theorem returned_of_refused {name : Str} {type : PgType} {v : type.Stored}
    (lost : ¬ Survives lib.toFormats type v)
    (refused : sent lib type (cellText lib readers ⟨name, type, some v⟩) = none) :
    Returned lib readers name type v :=
  ⟨fun survives => absurd survives lost, fun _ => refused⟩

/-- The text of a cell that is shown as null. -/
theorem cellText_null {column : Column}
    (null : cellToJson lib.toFormats readers column = .null) :
    cellText lib readers column = "null".str := by
  rw [cellText, null]
  exact lib.jsonText_null

/-- A text comes back as it is. -/
theorem returned_text (exact : readers.Exact lib.toFormats) (name : Str) (type : TextType) (s : Str)
    (takes : TextType.takesString type = true) : Returned lib readers name (.text type) s := by
  have read : tryGet readers.string ⟨name, .text type, some s⟩ = some s := by
    refine (exact.string type s).trans (if_neg ?_)
    rintro (rfl | rfl) <;> cases takes
  have text : cellText lib readers ⟨name, .text type, some s⟩ = s := by
    simp only [cellText, cellToJson, orNull, read, Option.map_some, Option.getD_some]
  refine returned_of_sent trivial ?_
  rw [text, sent, coerceParam_dataType]
  exact if_pos takes

/-- An integer comes back: its digits are read again. -/
theorem returned_int8 (exact : readers.Exact lib.toFormats) (name : Str) (n : Int64) :
    Returned lib readers name .int8 n := by
  have read : tryGet readers.i64 ⟨name, .int8, some n⟩ = some n := exact.i64 n
  have text : cellText lib readers ⟨name, .int8, some n⟩ = Text.showInt n.toInt := by
    simp only [cellText, cellToJson, numI64, read, Option.map_some, Option.getD_some,
      lib.jsonText_int]
  exact returned_of_sent trivial ((congrArg (sent lib .int8) text).trans (sent_int8 n))

/-- A boolean comes back: its word is read again. -/
theorem returned_bool (exact : readers.Exact lib.toFormats) (name : Str) (b : Bool) :
    Returned lib readers name .bool b := by
  have read : tryGet readers.bool ⟨name, .bool, some b⟩ = some b := exact.bool b
  have text : cellText lib readers ⟨name, .bool, some b⟩ = Text.showBool b := by
    simp only [cellText, cellToJson, orNull, read, Option.map_some, Option.getD_some,
      lib.jsonText_bool]
  exact returned_of_sent trivial ((congrArg (sent lib .bool) text).trans (sent_bool b))

/-- A float that is a number comes back. The others have no text in JSON, and are refused. -/
theorem returned_float8 (exact : readers.Exact lib.toFormats) (name : Str) (x : F64) :
    Returned lib readers name .float8 x := by
  have read : tryGet readers.f64 ⟨name, .float8, some x⟩ = some x := exact.f64 x
  have shown : cellToJson lib.toFormats readers ⟨name, .float8, some x⟩ = jsonNumF64 x := by
    simp only [cellToJson, orNull, read, Option.map_some, Option.getD_some]
  by_cases special : (x.isNan || x.isInfinite) = true
  · refine returned_of_refused ?_ ?_
    · rintro ⟨number, finite⟩
      rw [number, finite] at special
      cases special
    · have null : jsonNumF64 x = .null := if_pos special
      rw [cellText_null (shown.trans null)]
      exact sent_null (.inl rfl)
  · have ordinary := Bool.or_eq_false_iff.mp (Bool.not_eq_true _ ▸ special)
    refine returned_of_sent ordinary ?_
    rw [cellText, shown, jsonNumF64_finite ordinary.1 ordinary.2, sent, coerceParam_dataType]
    dsimp only
    rw [lib.parse_jsonText x ordinary.1 ordinary.2]
    rfl

/-- A date that chrono can hold comes back, and any other is refused. -/
theorem returned_date (exact : readers.Exact lib.toFormats) (name : Str) (day : Extended Int) :
    Returned lib readers name .date day := by
  have read : tryGet readers.naiveDate ⟨name, .date, some day⟩ = dateOf lib.toFormats day :=
    exact.naiveDate day
  cases known : dateOf lib.toFormats day with
  | none =>
    refine returned_of_refused (fun some => ?_) ?_
    · have some : (dateOf lib.toFormats day).isSome = true := some
      rw [known] at some
      cases some
    · have null : cellToJson lib.toFormats readers ⟨name, .date, some day⟩ = .null := by
        simp only [cellToJson, orNull, read, known, Option.map_none, Option.getD_none]
      rw [cellText_null null]
      exact sent_null (.inr (.inl rfl))
  | some d =>
    have text : cellText lib readers ⟨name, .date, some day⟩ = lib.showDate d := by
      simp only [cellText, cellToJson, orNull, read, known, Option.map_some, Option.getD_some]
    obtain ⟨within, same⟩ :
        (lib.firstDay ≤ d.days ∧ d.days ≤ lib.lastDay) ∧ day = .finite d.days := by
      cases day with
      | infinity negative => cases known
      | finite n =>
        unfold dateOf at known
        dsimp only at known
        split_ifs at known with within
        cases known
        exact ⟨within, rfl⟩
    refine returned_of_sent (Option.isSome_iff_exists.mpr ⟨d, known⟩) ?_
    rw [text, sent, coerceParam_dataType]
    dsimp only
    rw [lib.parseDate_showDate d within.1 within.2, same]
    rfl

/-- An instant that chrono can hold comes back where its year has four digits or it is one of whole
seconds, and is refused otherwise. -/
theorem returned_timestamptz (exact : readers.Exact lib.toFormats) (name : Str)
    (micros : Extended Int) : Returned lib readers name .timestamptz micros := by
  have read : tryGet readers.dateTimeUtc ⟨name, .timestamptz, some micros⟩ =
      instantOf lib.toFormats micros := exact.dateTimeUtc micros
  cases known : instantOf lib.toFormats micros with
  | none =>
    refine returned_of_refused ?_ ?_
    · rintro ⟨n, -, some, -⟩
      rw [known] at some
      cases some
    · have null : cellToJson lib.toFormats readers ⟨name, .timestamptz, some micros⟩ = .null := by
        simp only [cellToJson, orNull, read, known, Option.map_none, Option.getD_none]
      rw [cellText_null null]
      exact sent_null (.inr (.inr rfl))
  | some t =>
    obtain ⟨n, rfl, rfl⟩ := finite_of_instantOf known
    have text : cellText lib readers ⟨name, .timestamptz, some (.finite n)⟩ =
        utcText lib.toFormats (ofMicros n) := by
      simp only [cellText, cellToJson, orNull, read, known, Option.map_some, Option.getD_some]
    have some : (instantOf lib.toFormats (.finite n)).isSome = true :=
      Option.isSome_iff_exists.mpr ⟨_, known⟩
    have back := sent_utcText some
    rw [← text] at back
    by_cases spelled : FourDigits (ofMicros n) ∨ n % 1000000 = 0
    · rw [if_pos spelled] at back
      exact returned_of_sent ⟨n, rfl, some, spelled⟩ back
    · rw [if_neg spelled] at back
      refine returned_of_refused ?_ back
      rintro ⟨m, same, -, others⟩
      cases same
      exact spelled others

/-- A value of a scalar type comes back as it was, or is refused. -/
theorem returned_scalar (exact : readers.Exact lib.toFormats) (name : Str) {type : PgType}
    (v : type.Stored) (scalar : isScalar type = true) : Returned lib readers name type v := by
  have foreign : (type = .uuid ∨ type = .int2 ∨ type = .int4 ∨ type = .float4 ∨ type = .numeric ∨
      type = .timestamp) → sent lib type (cellText lib readers ⟨name, type, some v⟩) = none :=
    fun among => toSql_foreign among _
  cases type with
  | text type => exact returned_text exact name type v scalar
  | int8 => exact returned_int8 exact name v
  | bool => exact returned_bool exact name v
  | float8 => exact returned_float8 exact name v
  | date => exact returned_date exact name v
  | timestamptz => exact returned_timestamptz exact name v
  | uuid | int2 | int4 | float4 | numeric | timestamp =>
    exact returned_of_refused (fun survives => nomatch survives) (foreign (by simp))
  | json | jsonb | array _ | other _ => cases scalar

/-! ## The columns of the key -/

/-- Columns of the row, each with a value of a scalar type. -/
structure Chosen (row : Row) (chosen : List Column) : Prop where
  among : ∀ column ∈ chosen, column ∈ row
  scalar : ∀ column ∈ chosen, isScalar column.type = true
  given : ∀ column ∈ chosen, column.cell.isSome = true

/-- What is chosen for a key is chosen for the rest of it. -/
theorem Chosen.tail {row : Row} {column : Column} {rest : List Column}
    (key : Chosen row (column :: rest)) : Chosen row rest where
  among c member := key.among c (List.mem_cons_of_mem _ member)
  scalar c member := key.scalar c (List.mem_cons_of_mem _ member)
  given c member := key.given c (List.mem_cons_of_mem _ member)

/-- The texts of the key: the columns that are chosen, each as it is shown. -/
def keyOf (lib : Library) (readers : Readers) (chosen : List Column) : List (Str × Str) :=
  chosen.map (fun column => (column.name, cellText lib readers column))

/-- The parameters of the key. -/
def keyParams (lib : Library) (readers : Readers) (chosen : List Column) : List Param :=
  chosen.map (fun column => coerceParam lib (cellText lib readers column) (dataType column.type))

/-- The type of a column is found under its name, which is one of a kind. -/
theorem lookup_shape {row : Row} (named : (row.map Column.name).Nodup) {column : Column}
    (member : column ∈ row) :
    ((shape row).map (fun entry => (entry.1, dataType entry.2))).lookup column.name =
      some (dataType column.type) := by
  refine Assoc.lookup_of_mem ?_ (List.mem_map_of_mem (List.mem_map_of_mem member))
  rw [List.map_map, shape, List.map_map]
  exact named

/-- The same where the search also asks whether the type compares. -/
theorem find?_shape {row : Row} (named : (row.map Column.name).Nodup) {column : Column}
    (member : column ∈ row) (comparable : compares db column.type = true) :
    (shape row).find? (fun entry => entry.1 == column.name && compares db entry.2) =
      some (column.name, column.type) := by
  induction row with
  | nil => cases member
  | cons first rest inductionHypothesis =>
    obtain ⟨fresh, named⟩ := List.nodup_cons.mp named
    rcases List.mem_cons.mp member with rfl | later
    · refine List.find?_cons_of_pos ?_
      simp only [comparable, beq_self_eq_true, Bool.and_self]
    · have other : (first.name == column.name) = false := by
        rw [beq_eq_false_iff_ne]
        intro same
        exact fresh (same ▸ List.mem_map_of_mem later)
      refine (List.find?_cons_of_neg ?_).trans (inductionHypothesis named later)
      simp only [other, Bool.false_and, Bool.false_eq_true, not_false_eq_true]

/-- The scalar types compare. -/
theorem compares_of_scalar {type : PgType} (scalar : isScalar type = true) :
    compares db type = true := by
  cases type <;> first | rfl | cases scalar

/-- Names that are read as themselves make a condition on the columns of these names. -/
theorem readFilter_plain {row : Row} (named : (row.map Column.name).Nodup) {chosen : List Column}
    (key : Chosen row chosen)
    (plain : ∀ column ∈ chosen, readColumn db.keywords column.name = some column.name) :
    readFilter db (shape row) (chosen.map Column.name) = some (comparing db (shape chosen)) := by
  have all : (chosen.map Column.name).all
      (fun name => (readColumn db.keywords name).isSome) = true := by
    rw [List.all_map, List.all_eq_true]
    intro column member
    simp only [Function.comp_apply, plain column member, Option.isSome_some]
  have read : (chosen.map Column.name).mapM (readKey db (shape row)) = some (shape chosen) := by
    clear all
    induction chosen with
    | nil => rfl
    | cons column rest inductionHypothesis =>
      have first : readKey db (shape row) column.name = some (column.name, column.type) := by
        rw [readKey, plain column List.mem_cons_self, Option.bind_some]
        exact find?_shape named (key.among column List.mem_cons_self)
          (compares_of_scalar (key.scalar column List.mem_cons_self))
      have others := inductionHypothesis key.tail
        (fun c member => plain c (List.mem_cons_of_mem _ member))
      rw [List.map_cons, List.mapM_cons, first, others]
      rfl
  rw [readFilter, if_pos all, read, Option.map_some]

/-- The value of a column. -/
def Holds (column : Column) (value : Value) : Prop :=
  ∃ v, column.cell = some v ∧ value = ⟨column.type, v⟩

/-- The parameters are sent exactly when every value of the key survives, and then as these
values. -/
theorem bindAll_chosen (exact : readers.Exact lib.toFormats) {row : Row} {chosen : List Column}
    (key : Chosen row chosen) :
    ((∀ column ∈ chosen, ∀ v, column.cell = some v → Survives lib.toFormats column.type v) →
      ∃ values, bindAll (keyParams lib readers chosen) ((shape chosen).map Prod.snd) = some values ∧
        List.Forall₂ Holds chosen values) ∧
    ((bindAll (keyParams lib readers chosen) ((shape chosen).map Prod.snd)).isSome = true →
      ∀ column ∈ chosen, ∀ v, column.cell = some v → Survives lib.toFormats column.type v) := by
  induction chosen with
  | nil => exact ⟨fun _ => ⟨[], rfl, .nil⟩, fun _ _ absent => nomatch absent⟩
  | cons column rest inductionHypothesis =>
    obtain ⟨keep, lose⟩ := inductionHypothesis key.tail
    obtain ⟨v, cell⟩ := Option.isSome_iff_exists.mp (key.given column List.mem_cons_self)
    obtain ⟨back, refused⟩ :=
      returned_scalar exact column.name v (key.scalar column List.mem_cons_self)
    have whole : (⟨column.name, column.type, some v⟩ : Column) = column := by rw [← cell]
    rw [whole] at back refused
    have step : bindAll (keyParams lib readers (column :: rest))
        ((shape (column :: rest)).map Prod.snd) =
        (sent lib column.type (cellText lib readers column)).bind (fun v =>
          (bindAll (keyParams lib readers rest) ((shape rest).map Prod.snd)).map
            (⟨column.type, v⟩ :: ·)) := rfl
    rw [step]
    constructor
    · intro survive
      obtain ⟨values, bound, same⟩ :=
        keep (fun c member => survive c (List.mem_cons_of_mem _ member))
      rw [back (survive column List.mem_cons_self v cell), bound]
      exact ⟨_, rfl, .cons ⟨v, cell, rfl⟩ same⟩
    · intro some c member w stored
      by_cases survives : Survives lib.toFormats column.type v
      · rcases List.mem_cons.mp member with rfl | later
        · rw [cell] at stored
          cases stored
          exact survives
        · refine lose ?_ c later w stored
          rw [back survives] at some
          cases bound : bindAll (keyParams lib readers rest) ((shape rest).map Prod.snd) with
          | none => rw [bound] at some; cases some
          | some values => rfl
      · rw [refused survives] at some
        cases some

/-- The row that the values are from meets the condition. -/
theorem holds_chosen {row : Row} {chosen : List Column} {values : List Value}
    (key : Chosen row chosen) (same : List.Forall₂ Holds chosen values) :
    (comparing db (shape chosen)).holds row values = true := by
  induction same with
  | nil => rfl
  | @cons column value rest values first _ inductionHypothesis =>
    obtain ⟨v, cell, rfl⟩ := first
    have equal : cellEquals db row column.name ⟨column.type, v⟩ = true := by
      refine List.any_eq_true.mpr ⟨column, key.among column List.mem_cons_self, ?_⟩
      rw [beq_self_eq_true, Bool.true_and, cell]
      exact db.equal_refl ⟨column.type, v⟩ (key.scalar column List.mem_cons_self)
    exact Bool.and_eq_true_iff.mpr ⟨equal, inductionHypothesis key.tail⟩

/-! ## The trace -/

/-- The statement is executed, and if it selects no more than five rows, the row that the values
are from is among those that are found. -/
def Finds (lib : Library) (readers : Readers) (db : Postgres) (warehouse : Warehouse)
    (name : Str × Str) (effective : List Str) (row : Row) (chosen : List Column) : Prop :=
  ∃ rows, selected db warehouse name (chosen.map Column.name) (keyParams lib readers chosen) =
      .ok rows ∧
    (rows.length ≤ 5 → ∃ traced,
      traceByNaturalKey lib db warehouse name.1 name.2 (keyOf lib readers chosen) effective =
        .ok (some traced) ∧ ∃ found ∈ traced.found, found.row = row)

/-- Every name of the key is read as itself, and every value survives. -/
def Plain (lib : Library) (db : Postgres) (chosen : List Column) : Prop :=
  (∀ column ∈ chosen, readColumn db.keywords column.name = some column.name) ∧
    ∀ column ∈ chosen, ∀ v, column.cell = some v → Survives lib.toFormats column.type v

/-- The names are read as another condition than the one that was meant, which takes what the
texts are coerced to, and which the row meets. -/
def Otherwise (lib : Library) (readers : Readers) (db : Postgres) (row : Row)
    (chosen : List Column) : Prop :=
  ¬ (∀ column ∈ chosen, readColumn db.keywords column.name = some column.name) ∧
    ∃ filter values, readFilter db (shape row) (chosen.map Column.name) = some filter ∧
      bindAll (keyParams lib readers chosen) filter.types = some values ∧
      filter.holds row values = true

/-- When a row can be traced by some of its columns. -/
structure Traceable (lib : Library) (readers : Readers) (db : Postgres) (name : Str × Str)
    (row : Row) (chosen : List Column) : Prop where
  idents : identOk name.1 = true ∧ identOk name.2 = true
  target : readTarget db.keywords name = some name
  lineage : hasLineage db (shape row) = true
  key : Plain lib db chosen ∨ Otherwise lib readers db row chosen

/-- The trace of columns of the table, once its names are accepted, is the statement. -/
theorem trace_eq {warehouse : Warehouse} {name : Str × Str} {table : Table}
    (present : warehouse.tables name = some table) {row : Row} (shaped : shape row = table.columns)
    {chosen : List Column} (among : ∀ column ∈ chosen, column ∈ row) (nonempty : chosen ≠ [])
    {effective : List Str} (user : isUserSchema name.1 effective = true) :
    traceByNaturalKey lib db warehouse name.1 name.2 (keyOf lib readers chosen) effective =
      if identOk name.1 = true ∧ identOk name.2 = true then
        match selected db warehouse name (chosen.map Column.name)
          (keyParams lib readers chosen) with
        | .error failure => .error failure
        | .ok rows => answer lib db name (keyOf lib readers chosen) rows
      else .ok none := by
  have named : (row.map Column.name).Nodup := by
    have distinct := table.named
    rw [← shaped, shape, List.map_map] at distinct
    exact distinct
  have types : columnTypes warehouse name =
      (shape row).map (fun entry => (entry.1, dataType entry.2)) := by
    rw [columnTypes, present, shaped]
    rfl
  obtain ⟨first, rest, rfl⟩ := List.exists_cons_of_ne_nil nonempty
  have listed : (columnTypes warehouse name).isEmpty = false := by
    rw [types, List.isEmpty_eq_false_iff, shape, List.map_map]
    intro empty
    have := among first List.mem_cons_self
    rw [List.map_eq_nil_iff.mp empty] at this
    cases this
  have lookups : ∀ column ∈ first :: rest, (columnTypes warehouse name).lookup column.name =
      some (dataType column.type) := by
    intro column member
    rw [types]
    exact lookup_shape named (among column member)
  have known : (keyOf lib readers (first :: rest)).any
      (fun entry => ((columnTypes warehouse name).lookup entry.1).isNone) = false := by
    rw [keyOf, List.any_map, List.any_eq_false]
    intro column member
    simp only [Function.comp_apply, lookups column member, Option.isNone_some, Bool.false_eq_true,
      not_false_eq_true]
  have params : (keyOf lib readers (first :: rest)).map (fun entry =>
      coerceParam lib entry.2 (((columnTypes warehouse name).lookup entry.1).getD [])) =
      keyParams lib readers (first :: rest) := by
    rw [keyOf, List.map_map]
    refine List.map_congr_left (fun column member => ?_)
    rw [Function.comp_apply, lookups column member, Option.getD_some]
  have names : (keyOf lib readers (first :: rest)).map Prod.fst =
      (first :: rest).map Column.name := by
    rw [keyOf, List.map_map]
    rfl
  unfold traceByNaturalKey
  rw [user]
  by_cases idents : identOk name.1 = true ∧ identOk name.2 = true
  · rw [if_pos idents, idents.1, idents.2]
    simp only [Prod.mk.eta, Bool.not_true, Bool.or_self, Bool.false_eq_true, if_false, listed,
      known, params, names]
    rfl
  · have bad : (!identOk name.1 || !identOk name.2) = true := by
      rw [Bool.or_eq_true, Bool.not_eq_true', Bool.not_eq_true']
      by_contra neither
      rw [not_or, Bool.not_eq_false, Bool.not_eq_false] at neither
      exact idents neither
    rw [if_neg idents, if_pos bad]
    rfl

/-- A row that meets the condition of the statement is selected. -/
theorem selected_ok {warehouse : Warehouse} {name : Str × Str} {table : Table}
    (present : warehouse.tables name = some table) {filter : Filter} {values : List Value}
    {keys : List Str} {params : List Param}
    (target : readTarget db.keywords name = some name)
    (lineage : hasLineage db table.columns = true)
    (read : readFilter db table.columns keys = some filter)
    (bound : bindAll params filter.types = some values) :
    selected db warehouse name keys params =
      .ok (db.order ((warehouse.rows name).filter (fun row => filter.holds row values))) := by
  have prepared : prepare db warehouse.tables name keys = some (name, filter) := by
    rw [prepare, target]
    dsimp only
    rw [present]
    dsimp only
    rw [if_pos lineage, read, Option.map_some]
  rw [selected, prepared]
  dsimp only
  rw [bound]

/-- What was executed: a condition on the rows of the table that is read. -/
theorem of_selected {warehouse : Warehouse} {target : Str × Str} {keys : List Str}
    {params : List Param} {rows : List Row}
    (executed : selected db warehouse target keys params = .ok rows) :
    ∃ read table filter values, readTarget db.keywords target = some read ∧
      warehouse.tables read = some table ∧ hasLineage db table.columns = true ∧
      readFilter db table.columns keys = some filter ∧
      bindAll params filter.types = some values ∧
      rows = db.order ((warehouse.rows read).filter (fun row => filter.holds row values)) := by
  unfold selected prepare at executed
  cases target : readTarget db.keywords target with
  | none => rw [target] at executed; cases executed
  | some read =>
    rw [target] at executed
    dsimp only at executed
    cases present : warehouse.tables read with
    | none => rw [present] at executed; cases executed
    | some table =>
      rw [present] at executed
      dsimp only at executed
      by_cases lineage : hasLineage db table.columns = true
      · rw [if_pos lineage] at executed
        cases condition : readFilter db table.columns keys with
        | none => rw [condition] at executed; cases executed
        | some filter =>
          rw [condition] at executed
          dsimp only [Option.map] at executed
          cases bound : bindAll params filter.types with
          | none => rw [bound] at executed; cases executed
          | some values =>
            rw [bound] at executed
            cases executed
            exact ⟨read, table, filter, values, rfl, present, lineage, condition, bound, rfl⟩
      · rw [if_neg lineage] at executed
        cases executed

/-- No more than five rows are all in the answer. -/
theorem answer_few {name : Str × Str} {key : List (Str × Str)} {rows : List Row}
    (few : rows.length ≤ 5) :
    answer lib db name key rows =
      if rows = [] then .ok none
      else .ok (some ⟨name.1, name.2, key, rows.map (Match.ofRow lib db)⟩) := by
  rw [answer, List.take_of_length_le few]
  cases rows <;> rfl

/-- What is answered is among the rows. -/
theorem mem_of_answered {name : Str × Str} {key : List (Str × Str)} {rows : List Row}
    (few : rows.length ≤ 5) {traced : Traced}
    (answered : answer lib db name key rows = .ok (some traced)) {entry : Match}
    (listed : entry ∈ traced.found) : entry.row ∈ rows := by
  rw [answer_few few] at answered
  split_ifs at answered
  · cases answered
  · cases answered
    obtain ⟨row, member, rfl⟩ := List.mem_map.mp listed
    exact member

/-- Of few rows each is answered. -/
theorem answered_of_mem {name : Str × Str} {key : List (Str × Str)} {rows : List Row}
    (few : rows.length ≤ 5) {row : Row} (member : row ∈ rows) :
    ∃ traced, answer lib db name key rows = .ok (some traced) ∧
      ∃ found ∈ traced.found, found.row = row := by
  rw [answer_few few, if_neg (List.ne_nil_of_mem member)]
  exact ⟨_, rfl, Match.ofRow lib db row, List.mem_map_of_mem member, rfl⟩

/-- A key of which every name is read as itself is sent if and only if its values survive. -/
theorem plain_of_sent (exact : readers.Exact lib.toFormats) {row : Row}
    (named : (row.map Column.name).Nodup) {chosen : List Column} (key : Chosen row chosen)
    (themselves : ∀ column ∈ chosen, readColumn db.keywords column.name = some column.name)
    {filter : Filter} {values : List Value}
    (read : readFilter db (shape row) (chosen.map Column.name) = some filter)
    (bound : bindAll (keyParams lib readers chosen) filter.types = some values) :
    Plain lib db chosen := by
  rw [readFilter_plain named key themselves] at read
  cases read
  refine ⟨themselves, (bindAll_chosen exact key).2 ?_⟩
  exact Option.isSome_iff_exists.mpr ⟨values, bound⟩

/-- The condition that a traceable key makes takes its parameters, and the row meets it. -/
theorem Traceable.condition (exact : readers.Exact lib.toFormats) {name : Str × Str} {row : Row}
    (named : (row.map Column.name).Nodup) {chosen : List Column} (key : Chosen row chosen)
    (traceable : Traceable lib readers db name row chosen) :
    ∃ filter values, readFilter db (shape row) (chosen.map Column.name) = some filter ∧
      bindAll (keyParams lib readers chosen) filter.types = some values ∧
      filter.holds row values = true := by
  rcases traceable.key with ⟨themselves, survive⟩ | ⟨-, otherwise⟩
  · obtain ⟨values, bound, same⟩ := (bindAll_chosen exact key).1 survive
    exact ⟨comparing db (shape chosen), values, readFilter_plain named key themselves, bound,
      holds_chosen key same⟩
  · exact otherwise

/-- The tables with one row alone. -/
def Warehouse.only (tables : Str × Str → Option Table) {name : Str × Str} {table : Table}
    (present : tables name = some table) {row : Row} (shaped : shape row = table.columns) :
    Warehouse where
  tables := tables
  rows := fun other => if other = name then [row] else []
  shaped := by
    intro other found lookup stored member
    split_ifs at member with same
    · rw [same, present] at lookup
      cases lookup
      rw [List.mem_singleton.mp member, shaped]
    · cases member

/-- A warehouse of one row has at most one anywhere. -/
theorem Warehouse.length_only {tables : Str × Str → Option Table} {name : Str × Str} {table : Table}
    (present : tables name = some table) {row : Row} (shaped : shape row = table.columns)
    (other : Str × Str) : ((Warehouse.only tables present shaped).rows other).length ≤ 1 := by
  change (if other = name then [row] else []).length ≤ 1
  split_ifs
  · exact le_refl 1
  · exact Nat.zero_le 1

/-- In a warehouse that holds the row, and whatever else of the same tables, the trace finds the row
exactly when the row can be traced by these columns. -/
theorem finds_iff_traceable (exact : readers.Exact lib.toFormats)
    (tables : Str × Str → Option Table) (name : Str × Str) (table : Table)
    (present : tables name = some table) (effective : List Str)
    (user : isUserSchema name.1 effective = true) (row : Row) (shaped : shape row = table.columns)
    (chosen : List Column) (nonempty : chosen ≠ []) (key : Chosen row chosen) :
    (∀ warehouse : Warehouse, warehouse.tables = tables → row ∈ warehouse.rows name →
      Finds lib readers db warehouse name effective row chosen) ↔
      Traceable lib readers db name row chosen := by
  have named : (row.map Column.name).Nodup := by
    have distinct := table.named
    rw [← shaped, shape, List.map_map] at distinct
    exact distinct
  constructor
  · intro finds
    let alone := Warehouse.only tables present shaped
    have held : alone.rows name = [row] := if_pos rfl
    have stored : row ∈ alone.rows name := by
      rw [held]
      exact List.mem_singleton_self row
    obtain ⟨rows, executed, included⟩ := finds alone rfl stored
    obtain ⟨read, found, filter, values, target, lookup, lineage, condition, bound, rfl⟩ :=
      of_selected executed
    have few : (db.order ((alone.rows read).filter
        (fun row => filter.holds row values))).length ≤ 5 := by
      rw [(db.order_perm _).length_eq]
      refine (List.length_filter_le _ _).trans ?_
      exact (Warehouse.length_only present shaped read).trans (by norm_num)
    obtain ⟨traced, answered, entry, listed, same⟩ := included few
    have presentThere : alone.tables name = some table := present
    rw [trace_eq presentThere shaped key.among nonempty user, executed] at answered
    have idents : identOk name.1 = true ∧ identOk name.2 = true := by
      by_contra bad
      rw [if_neg bad] at answered
      cases answered
    rw [if_pos idents] at answered
    have member := mem_of_answered few answered listed
    rw [same] at member
    obtain ⟨stored, holds⟩ := List.mem_filter.mp ((db.order_perm _).mem_iff.mp member)
    have itself : read = name := by
      by_contra other
      have empty : alone.rows read = [] := if_neg other
      rw [empty] at stored
      cases stored
    subst itself
    rw [presentThere] at lookup
    cases lookup
    rw [← shaped] at lineage condition
    refine ⟨idents, target, lineage, ?_⟩
    by_cases themselves : ∀ column ∈ chosen, readColumn db.keywords column.name = some column.name
    · exact .inl (plain_of_sent exact named key themselves condition bound)
    · exact .inr ⟨themselves, filter, values, condition, bound, holds⟩
  · intro traceable warehouse same stored
    subst same
    obtain ⟨filter, values, read, bound, holds⟩ :=
      traceable.condition exact named key
    rw [shaped] at read
    have lineage := traceable.lineage
    rw [shaped] at lineage
    have executed := selected_ok present traceable.target lineage read bound
    have member : row ∈ db.order
        ((warehouse.rows name).filter (fun other => filter.holds other values)) :=
      (db.order_perm _).mem_iff.mpr (List.mem_filter.mpr ⟨stored, holds⟩)
    refine ⟨_, executed, fun few => ?_⟩
    rw [trace_eq present shaped key.among nonempty user, if_pos traceable.idents, executed]
    exact answered_of_mem few member

/-! ## A row of trades -/

/-- A trade, with a number of 32 bits and a symbol. -/
def trade : Row := [
  ⟨"id".str, .int4, some (7 : Int32)⟩, ⟨"symbol".str, .text .text, some "BTC".str⟩,
  ⟨"source".str, .text .text, some "replay".str⟩, ⟨"source_endpoint".str, .text .text, none⟩,
  ⟨"source_run_id".str, .uuid, none⟩, ⟨"ingest_ts".str, .timestamptz, none⟩]

/-- The table of the examples. -/
def trades : Table := ⟨shape trade, by decide⟩

/-- A database that has no other. -/
def tradesOnly (name : Str × Str) : Option Table :=
  if name = ("market".str, "trades".str) then some trades else none

/-- The warehouse of its one row. -/
def tradesWarehouse : Warehouse :=
  @Warehouse.only tradesOnly ("market".str, "trades".str) trades (if_pos rfl) trade rfl

/-- The trade is not found by its number. -/
theorem number_not_traced :
    ¬ Finds Library.plain (Readers.plain Library.plain.toFormats) Postgres.plain tradesWarehouse
      ("market".str, "trades".str) Ingest.Advertised.userSchemas trade
      [⟨"id".str, .int4, some (7 : Int32)⟩] := by
  rintro ⟨rows, executed, _⟩
  have refused : selected Postgres.plain tradesWarehouse ("market".str, "trades".str) ["id".str]
      (keyParams Library.plain (Readers.plain Library.plain.toFormats)
        [⟨"id".str, .int4, some (7 : Int32)⟩]) = .error .wrongType := rfl
  cases refused.symm.trans executed

/-- The trade is found by its symbol. -/
theorem symbol_traced :
    Finds Library.plain (Readers.plain Library.plain.toFormats) Postgres.plain tradesWarehouse
      ("market".str, "trades".str) Ingest.Advertised.userSchemas trade
      [⟨"symbol".str, .text .text, some "BTC".str⟩] := by
  refine (finds_iff_traceable (Readers.plain_exact _) tradesOnly ("market".str, "trades".str) trades
    (if_pos rfl) Ingest.Advertised.userSchemas (by decide) trade rfl _ (List.cons_ne_nil _ _)
    ⟨?_, ?_, ?_⟩).mpr ⟨by decide, by decide, by decide, .inl ⟨?_, ?_⟩⟩ tradesWarehouse rfl
    (List.mem_singleton_self trade)
  · intro column member
    rw [List.mem_singleton.mp member]
    exact List.mem_cons_of_mem _ List.mem_cons_self
  all_goals
    intro column member
    rw [List.mem_singleton.mp member]
  · rfl
  · rfl
  · rfl
  · exact fun _ _ => trivial

end LumidPlatform.Catalog
