import LumidPlatform.Db.KeptCells
import LumidPlatform.Lib.Assoc
import LumidPlatform.Retrieve.Replayer

/-!
# The record of a row

A retrieval converts its rows itself. A value is looked up by the name of its column and read
as one Rust type after the other, and what none of them reads is null. So a record has a
value for a cell exactly when the first column of that name holds one of a type in the list.
-/

namespace LumidPlatform.Retrieve

open LumidPlatform.Db

/-! ## Conversion -/

/-- `try_get::<_, Option<T>>(col).ok().flatten()`: the first column of the name. -/
def tryGetNamed {α : Type} (reader : Reader α) (row : Row) (col : Str) : Option α :=
  (row.find? (fun column => decide (column.name = col))).bind (tryGet reader)

/-- The first attempt that succeeds, or null. -/
def firstOf : List (Option Json) → Json
  | [] => .null
  | some json :: _ => json
  | none :: rest => firstOf rest

/-- `pg_value_to_json`: the Rust types are tried in this order. -/
def pgValueToJson (formats : Formats) (readers : Readers) (row : Row) (col : Str) : Json :=
  firstOf [
    (tryGetNamed readers.i64 row col).map (fun v => .number (.int v.toInt)),
    (tryGetNamed readers.i32 row col).map (fun v => .number (.int v.toInt)),
    (tryGetNamed readers.f64 row col).map .ofF64,
    (tryGetNamed readers.bool row col).map .bool,
    (tryGetNamed readers.decimal row col).map (fun v => .string (formats.showDecimal v)),
    (tryGetNamed readers.dateTimeUtc row col).map (fun v => .string (utcText formats v)),
    (tryGetNamed readers.naiveDateTime row col).map (fun v => .string (formats.formatMicros v)),
    (tryGetNamed readers.naiveDate row col).map (fun v => .string (formats.showDate v)),
    (tryGetNamed readers.uuid row col).map (fun v => .string (formats.showUuid v)),
    (tryGetNamed readers.string row col).map .string,
    tryGetNamed readers.value row col]

/-- The record that `execute_sql_op` builds of a row. -/
def pgRecord (formats : Formats) (readers : Readers) (row : Row) : Record :=
  row.foldl (fun record column =>
    Record.insert column.name (pgValueToJson formats readers row column.name) record) []

/-- It is the record of the converted columns. -/
theorem pgRecord_eq (formats : Formats) (readers : Readers) (row : Row) :
    pgRecord formats readers row = Replayer.recordOf
      (row.map (fun column => (column.name, pgValueToJson formats readers row column.name))) := by
  have firsts : ∀ column ∈ row,
      (List.lookup column.name (row.map (fun column =>
        (column.name, pgValueToJson formats readers row column.name)))).getD .null =
      pgValueToJson formats readers row column.name := by
    intro column member
    have tabulated : (row.map fun column =>
        (column.name, pgValueToJson formats readers row column.name)) =
          (row.map Column.name).map fun name => (name, pgValueToJson formats readers row name) := by
      rw [List.map_map]
      rfl
    rw [tabulated, Assoc.lookup_map, if_pos (List.mem_map_of_mem member), Option.getD_some]
  unfold pgRecord Replayer.recordOf
  rw [List.foldl_map]
  exact List.foldl_ext _ _ _ fun record column member => by
    rw [firsts column member]

/-! ## What is read -/

/-- Each Rust type reads exactly the values of its own types. Of what it reads, an `f64` is
the stored one, and null is a document that is null. -/
structure ByType (readers : Readers) : Prop where
  i64 : ∀ type v, (readers.i64 type v).isSome = true ↔ type = .int8
  i32 : ∀ type v, (readers.i32 type v).isSome = true ↔ type = .int4
  f64 : ∀ type v, (readers.f64 type v).isSome = true ↔ type = .float8
  bool : ∀ type v, (readers.bool type v).isSome = true ↔ type = .bool
  decimal : ∀ type v, (readers.decimal type v).isSome = true ↔ type = .numeric
  dateTimeUtc : ∀ type v, (readers.dateTimeUtc type v).isSome = true ↔ type = .timestamptz
  naiveDateTime : ∀ type v, (readers.naiveDateTime type v).isSome = true ↔ type = .timestamp
  naiveDate : ∀ type v, (readers.naiveDate type v).isSome = true ↔ type = .date
  uuid : ∀ type v, (readers.uuid type v).isSome = true ↔ type = .uuid
  string : ∀ type v, (∀ name, type ≠ .other name) → ((readers.string type v).isSome = true ↔
    ∃ kind, type = .text kind ∧ kind ≠ .char ∧ kind ≠ .tsvector)
  value : ∀ type v, (readers.value type v).isSome = true ↔ type = .json ∨ type = .jsonb
  f64_value : ∀ x, readers.f64 .float8 x = some x
  null_json : ∀ document : Document,
    readers.value .json document = some .null ↔ document.value = some .null
  null_jsonb : ∀ document : Document,
    readers.value .jsonb document = some .null ↔ document.value = some .null

/-- The values that become a JSON value other than null. -/
def Readable : (type : PgType) → type.Stored → Prop
  | .text kind, _ => kind ≠ .char ∧ kind ≠ .tsvector
  | .float8, x => F64.isNan x = false ∧ F64.isInfinite x = false
  | .json, document | .jsonb, document => Document.value document ≠ some .null
  | .int4, _ | .int8, _ | .bool, _ | .numeric, _ | .date, _ | .timestamp, _ | .timestamptz, _
  | .uuid, _ => True
  | .int2, _ | .float4, _ | .array _, _ | .other _, _ => False

variable {formats : Formats} {readers : Readers}

theorem eq_none_of_isSome {α : Type} {read : Option α} {own : Prop}
    (law : read.isSome = true ↔ own) (other : ¬own) : read = none := by
  cases read with
  | none => rfl
  | some v => exact absurd (law.mp rfl) other

theorem eq_some_of_isSome {α : Type} {read : Option α} {own : Prop}
    (law : read.isSome = true ↔ own) (holds : own) : ∃ v, read = some v :=
  Option.isSome_iff_exists.mp (law.mpr holds)

theorem ofF64_ne_null_iff (x : F64) :
    Json.ofF64 x ≠ .null ↔ x.isNan = false ∧ x.isInfinite = false := by
  unfold Json.ofF64
  cases x.isNan <;> cases x.isInfinite <;> simp

/-! ## Attempts -/

/-- What is tried first is left out where none of it succeeds. -/
theorem firstOf_skip {front rest : List (Option Json)}
    (unread : ∀ attempt ∈ front, attempt = none) : firstOf (front ++ rest) = firstOf rest := by
  induction front with
  | nil => rfl
  | cons first front inductionHypothesis =>
    rw [unread first List.mem_cons_self]
    exact inductionHypothesis fun attempt member => unread attempt (List.mem_cons_of_mem _ member)

/-- Where one of the first attempts succeeds, and none of them with null, the rest is not
tried. -/
theorem firstOf_ne_null {front rest : List (Option Json)}
    (succeeds : ∃ attempt ∈ front, attempt.isSome = true)
    (solid : ∀ json, some json ∈ front → json ≠ .null) : firstOf (front ++ rest) ≠ .null := by
  induction front with
  | nil =>
    obtain ⟨attempt, member, -⟩ := succeeds
    cases member
  | cons first front inductionHypothesis =>
    cases first with
    | some found => exact solid found List.mem_cons_self
    | none =>
      refine inductionHypothesis ?_ fun json inside => solid json (List.mem_cons_of_mem _ inside)
      simpa using succeeds

/-- The attempts with the Rust types that read one type of the database each. -/
def typedAttempts (formats : Formats) (readers : Readers) (type : PgType) (v : type.Stored) :
    List (Option Json) :=
  [(readers.i64 type v).map (fun v => .number (.int v.toInt)),
    (readers.i32 type v).map (fun v => .number (.int v.toInt)),
    (readers.f64 type v).map .ofF64,
    (readers.bool type v).map .bool,
    (readers.decimal type v).map (fun v => .string (formats.showDecimal v)),
    (readers.dateTimeUtc type v).map (fun v => .string (utcText formats v)),
    (readers.naiveDateTime type v).map (fun v => .string (formats.formatMicros v)),
    (readers.naiveDate type v).map (fun v => .string (formats.showDate v)),
    (readers.uuid type v).map (fun v => .string (formats.showUuid v))]

/-- The types they read. -/
def typedTypes : List PgType :=
  [.int8, .int4, .float8, .bool, .numeric, .timestamptz, .timestamp, .date, .uuid]

theorem typedAttempts_isSome (byType : ByType readers) {type : PgType} (v : type.Stored) :
    (∃ attempt ∈ typedAttempts formats readers type v, attempt.isSome = true) ↔
      type ∈ typedTypes := by
  simp only [typedAttempts, typedTypes, List.mem_cons, List.not_mem_nil, or_false, or_and_right,
    exists_or, exists_eq_left, Option.isSome_map, byType.i64, byType.i32, byType.f64, byType.bool,
    byType.decimal, byType.dateTimeUtc, byType.naiveDateTime, byType.naiveDate, byType.uuid]

/-- Of another type none of them reads a value. -/
theorem typedAttempts_skip (byType : ByType readers) {type : PgType} (v : type.Stored)
    (other : type ∉ typedTypes) (rest : List (Option Json)) :
    firstOf (typedAttempts formats readers type v ++ rest) = firstOf rest := by
  refine firstOf_skip fun attempt member => ?_
  rw [← Option.not_isSome_iff_eq_none]
  exact fun read => other ((typedAttempts_isSome byType v).mp ⟨attempt, member, read⟩)

/-- Of such a type one of them reads every value, and none that is null but of a float. -/
theorem typedAttempts_ne_null (byType : ByType readers) {type : PgType} (v : type.Stored)
    (own : type ∈ typedTypes) (notFloat : type ≠ .float8) (rest : List (Option Json)) :
    firstOf (typedAttempts formats readers type v ++ rest) ≠ .null := by
  refine firstOf_ne_null ((typedAttempts_isSome byType v).mpr own) fun json member => ?_
  have noFloat := eq_none_of_isSome (byType.f64 type v) notFloat
  simp only [typedAttempts, noFloat, Option.map_none, List.mem_cons, List.not_mem_nil, or_false,
    reduceCtorEq, false_or, @eq_comm _ (some json), Option.map_eq_some_iff] at member
  rcases member with ⟨_, -, rfl⟩ | ⟨_, -, rfl⟩ | ⟨_, -, rfl⟩ | ⟨_, -, rfl⟩ | ⟨_, -, rfl⟩ |
    ⟨_, -, rfl⟩ | ⟨_, -, rfl⟩ | ⟨_, -, rfl⟩ <;> exact Json.noConfusion

/-- The last two attempts are made for the values of the other types alone. -/
theorem lastAttempts_ne_null_iff (byType : ByType readers) {type : PgType} (v : type.Stored)
    (other : type ∉ typedTypes) (named : ∀ name, type ≠ .other name) :
    firstOf [(readers.string type v).map .string, readers.value type v] ≠ .null ↔
      Readable type v := by
  have stringNone := eq_none_of_isSome (byType.string type v named)
  have valueNone := eq_none_of_isSome (byType.value type v)
  -- A document is the value it is read as.
  have document {read : Option Json} (isRead : read.isSome = true) {parsed : Option Json}
      (null : read = some .null ↔ parsed = some .null) :
      firstOf [none, read] ≠ .null ↔ parsed ≠ some .null := by
    obtain ⟨json, rfl⟩ := Option.isSome_iff_exists.mp isRead
    rw [Option.some.injEq] at null
    exact not_congr null
  cases type with
  | text kind =>
    rw [valueNone (by rintro (⟨⟨⟩⟩ | ⟨⟨⟩⟩))]
    by_cases unread : kind = .char ∨ kind = .tsvector
    · have lost : readers.string (.text kind) v = none := by
        refine stringNone ?_
        rintro ⟨_, ⟨⟩, notChar, notVector⟩
        exact unread.elim notChar notVector
      rw [lost]
      exact iff_of_false (fun some => some rfl) (fun kept => unread.elim kept.1 kept.2)
    · obtain ⟨_, isRead⟩ := eq_some_of_isSome (byType.string _ v named)
        ⟨kind, rfl, not_or.mp unread⟩
      rw [isRead]
      exact iff_of_true Json.noConfusion (not_or.mp unread)
  | json =>
    rw [stringNone (by rintro ⟨_, ⟨⟩, _⟩)]
    exact document ((byType.value _ v).mpr (.inl rfl)) (byType.null_json v)
  | jsonb =>
    rw [stringNone (by rintro ⟨_, ⟨⟩, _⟩)]
    exact document ((byType.value _ v).mpr (.inr rfl)) (byType.null_jsonb v)
  | int2 | float4 | array =>
    rw [stringNone (by rintro ⟨_, ⟨⟩, _⟩), valueNone (by rintro (⟨⟨⟩⟩ | ⟨⟨⟩⟩))]
    exact iff_of_false (fun some => some rfl) id
  | other name => exact absurd rfl (named name)
  | _ => exact absurd (by simp [typedTypes]) other

/-- A value is null exactly when the first column of the name has none that can be read. -/
theorem pgValueToJson_ne_null_iff (byType : ByType readers) {row : Row} {col : Str}
    {first : Column} (found : row.find? (fun column => decide (column.name = col)) = some first)
    (named : ∀ name, first.type ≠ .other name) :
    pgValueToJson formats readers row col ≠ .null ↔
      ∃ v, first.cell = some v ∧ Readable first.type v := by
  have firstRead : ∀ {α : Type} (reader : Reader α),
      tryGetNamed reader row col = first.cell.bind (reader first.type) := by
    intro α reader
    rw [tryGetNamed, found]
    rfl
  unfold pgValueToJson
  simp only [firstRead]
  obtain ⟨name, type, cell⟩ := first
  cases cell with
  | none => simp [firstOf]
  | some v =>
    simp only [Option.bind_some, Option.some.injEq, exists_eq_left']
    change firstOf (typedAttempts formats readers type v ++
      [(readers.string type v).map .string, readers.value type v]) ≠ .null ↔ _
    by_cases own : type ∈ typedTypes
    · by_cases float : type = .float8
      · subst float
        have i64 := eq_none_of_isSome (byType.i64 _ v) PgType.noConfusion
        have i32 := eq_none_of_isSome (byType.i32 _ v) PgType.noConfusion
        simp only [typedAttempts, i64, i32, byType.f64_value v, Option.map_none, List.cons_append,
          firstOf]
        exact ofF64_ne_null_iff v
      · refine iff_of_true (typedAttempts_ne_null byType v own float _) ?_
        simp only [typedTypes, List.mem_cons, List.not_mem_nil, or_false] at own
        rcases own with rfl | rfl | rfl | rfl | rfl | rfl | rfl | rfl | rfl <;> trivial
    · rw [typedAttempts_skip byType v own]
      exact lastAttempts_ne_null_iff byType v own named

/-! ## Records -/

theorem lookup_insert (key name : Str) (value : Json) (record : Record) :
    List.lookup name (Record.insert key value record) =
      if name = key then some value else List.lookup name record := by
  induction record with
  | nil =>
    rw [Record.insert, List.lookup_cons]
    by_cases same : name = key
    · rw [if_pos same, same, beq_self_eq_true]
    · rw [if_neg same, beq_false_of_ne same]
  | cons entry rest inductionHypothesis =>
    obtain ⟨held, old⟩ := entry
    rw [Record.insert]
    by_cases here : held = key
    · rw [if_pos here, List.lookup_cons, List.lookup_cons, here]
      by_cases same : name = key
      · rw [if_pos same, same, beq_self_eq_true]
      · rw [if_neg same, beq_false_of_ne same]
    · rw [if_neg here]
      by_cases before : Text.le key held = true
      · rw [if_pos before, List.lookup_cons]
        by_cases same : name = key
        · rw [if_pos same, same, beq_self_eq_true]
        · rw [if_neg same, beq_false_of_ne same]
      · rw [if_neg before, List.lookup_cons, List.lookup_cons, inductionHypothesis]
        by_cases same : name = key
        · simp only [same, beq_false_of_ne (Ne.symm here), if_pos]
        · simp only [if_neg same]

/-- The record has the value of every name of a column. -/
theorem lookup_pgRecord (row : Row) {column : Column} (member : column ∈ row) :
    List.lookup column.name (pgRecord formats readers row) =
      some (pgValueToJson formats readers row column.name) := by
  have inserted : ∀ (columns : Row) (record : Record), column ∈ columns ∨
      List.lookup column.name record = some (pgValueToJson formats readers row column.name) →
      List.lookup column.name (columns.foldl (fun record column =>
        Record.insert column.name (pgValueToJson formats readers row column.name) record) record) =
        some (pgValueToJson formats readers row column.name) := by
    intro columns
    induction columns with
    | nil =>
      intro record held
      exact held.resolve_left List.not_mem_nil
    | cons first rest inductionHypothesis =>
      intro record held
      refine inductionHypothesis _ ?_
      rw [lookup_insert]
      by_cases same : column.name = first.name
      · rw [if_pos same, same]
        exact .inr rfl
      · rw [if_neg same]
        refine held.imp_left fun member => (List.mem_cons.mp member).resolve_left ?_
        rintro rfl
        exact same rfl
  exact inserted row [] (.inl member)

/-- A record has a value for every cell exactly when the first column of each cell's name
holds a value that can be read. -/
theorem record_keeps_iff (byType : ByType readers) (row : Row)
    (named : ∀ column ∈ row, ∀ name, column.type ≠ .other name) :
    (∀ column ∈ row, column.cell.isSome = true →
      ∃ value, List.lookup column.name (pgRecord formats readers row) = some value ∧
        value ≠ .null) ↔
    ∀ column ∈ row, column.cell.isSome = true →
      ∃ first v, row.find? (fun other => decide (other.name = column.name)) = some first ∧
        first.cell = some v ∧ Readable first.type v := by
  refine forall₂_congr fun column member => imp_congr_right fun _ => ?_
  rw [lookup_pgRecord row member]
  obtain ⟨first, found⟩ : ∃ first,
      row.find? (fun other => decide (other.name = column.name)) = some first := by
    rw [← Option.isSome_iff_exists, List.find?_isSome]
    exact ⟨column, member, decide_eq_true rfl⟩
  have readable := @pgValueToJson_ne_null_iff formats readers byType row column.name first found
    (named first (List.mem_of_find?_eq_some found))
  constructor
  · rintro ⟨_, same, solid⟩
    cases same
    obtain ⟨v, cell, kept⟩ := readable.mp solid
    exact ⟨first, v, found, cell, kept⟩
  · rintro ⟨other, v, same, cell, kept⟩
    rw [found] at same
    cases same
    exact ⟨_, rfl, readable.mpr ⟨v, cell, kept⟩⟩

/-! ## Examples of rows -/

/-- A reader of one type, which reads all of its values. -/
def only {α : Type} (own : PgType) (read : own.Stored → α) : Reader α := fun type v =>
  if same : type = own then some (read (same ▸ v)) else none

theorem only_isSome {α : Type} (own : PgType) (read : own.Stored → α) (type : PgType)
    (v : type.Stored) : (only own read type v).isSome = true ↔ type = own := by
  unfold only
  split_ifs with same
  · exact iff_of_true rfl same
  · exact iff_of_false Bool.false_ne_true same

/-- The readers, as they are assumed here: a type reads all of its values. -/
def typedReaders : Readers :=
  { Readers.plain .plain with
    i64 := only .int8 id
    i32 := only .int4 id
    f64 := only .float8 id
    bool := only .bool id
    decimal := only .numeric (fun n =>
      ((Readers.plain .plain).decimal .numeric n).getD ⟨false, 0, 0⟩)
    dateTimeUtc := only .timestamptz (fun micros => (instantOf .plain micros).getD ⟨0, 0⟩)
    naiveDateTime := only .timestamp (fun micros => (instantOf .plain micros).getD ⟨0, 0⟩)
    naiveDate := only .date (fun day => (dateOf .plain day).getD ⟨0⟩)
    uuid := only .uuid id
    value := fun
      | .json, document | .jsonb, document => some ((Document.value document).getD (.bool false))
      | _, _ => none }

theorem typedReaders_byType : ByType typedReaders where
  i64 := only_isSome _ _
  i32 := only_isSome _ _
  f64 := only_isSome _ _
  bool := only_isSome _ _
  decimal type v := by rw [typedReaders, only_isSome]
  dateTimeUtc type v := by rw [typedReaders, only_isSome]
  naiveDateTime type v := by rw [typedReaders, only_isSome]
  naiveDate type v := by rw [typedReaders, only_isSome]
  uuid := only_isSome _ _
  string type v _ := by
    cases type with
    | text kind =>
      have read : typedReaders.string (.text kind) v =
          if kind = .char ∨ kind = .tsvector then none else some v := rfl
      rw [read]
      split_ifs with unread
      · refine iff_of_false Bool.false_ne_true ?_
        rintro ⟨_, ⟨⟩, notChar, notVector⟩
        exact unread.elim notChar notVector
      · exact iff_of_true rfl ⟨kind, rfl, not_or.mp unread⟩
    | _ => exact iff_of_false Bool.false_ne_true (by rintro ⟨_, ⟨⟩, _⟩)
  value type v := by
    cases type <;> first
      | exact iff_of_true rfl (.inl rfl)
      | exact iff_of_true rfl (.inr rfl)
      | exact iff_of_false Bool.false_ne_true (by rintro (⟨⟨⟩⟩ | ⟨⟨⟩⟩))
  f64_value _ := rfl
  null_json document := by
    cases read : document.value <;> simp [typedReaders, read]
  null_jsonb document := by
    cases read : document.value <;> simp [typedReaders, read]

/-- A row of a count and a name. -/
def countRow : Row :=
  [⟨"count".str, .int4, some (3 : Int32)⟩, ⟨"name".str, .text .text, some "a".str⟩]

theorem countRow_kept :
    (∃ value, List.lookup "count".str (pgRecord .plain typedReaders countRow) = some value ∧
      value ≠ .null) ∧
    ∃ value, List.lookup "name".str (pgRecord .plain typedReaders countRow) = some value ∧
      value ≠ .null := by
  have named : ∀ column ∈ countRow, ∀ name, column.type ≠ .other name := by
    intro column member name
    simp only [countRow, List.mem_cons, List.not_mem_nil, or_false] at member
    rcases member with rfl | rfl <;> exact PgType.noConfusion
  have kept : ∀ column ∈ countRow, column.cell.isSome = true →
      ∃ value, List.lookup column.name (pgRecord .plain typedReaders countRow) = some value ∧
        value ≠ .null := by
    refine (record_keeps_iff typedReaders_byType countRow named).mpr ?_
    intro column member _
    simp only [countRow, List.mem_cons, List.not_mem_nil, or_false] at member
    rcases member with rfl | rfl
    · exact ⟨_, _, rfl, rfl, trivial⟩
    · have known : TextType.text ≠ .char ∧ TextType.text ≠ .tsvector := by decide
      exact ⟨_, _, rfl, rfl, known⟩
  exact ⟨kept _ List.mem_cons_self rfl, kept _ (List.mem_cons_of_mem _ List.mem_cons_self) rfl⟩

/-- A `smallint` is in the object of the row, and lost from its record. -/
theorem smallint_lost :
    ByType typedReaders ∧
      rowToObject .plain typedReaders [⟨"level".str, .int2, some (7 : Int16)⟩] =
        [("level".str, .number (.int 7))] ∧
      List.lookup "level".str
        (pgRecord .plain typedReaders [⟨"level".str, .int2, some (7 : Int16)⟩]) = some .null :=
  ⟨typedReaders_byType, rfl, rfl⟩

end LumidPlatform.Retrieve
