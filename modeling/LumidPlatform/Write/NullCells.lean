import Mathlib.Data.List.Find
import LumidPlatform.Write.Lineage

/-!
# Cells that become NULL

The validator asks that a column that has to have a value is supplied and is not `null`. It
does not ask this of columns with a default, although the batch may write `NULL` to them, nor
of `raw`, and it does not know the many spellings that the coercion takes for a missing value.
-/

namespace LumidPlatform.Write.Engine

/-! ## Missing values -/

/-- A string that is no cell of a column that is not JSON: it is blank, a word for a missing
value where the column is not text, no number, no boolean, or the token itself. -/
def missingString (unicode : Unicode) (s t : Str) : Bool :=
  let trimmed := Text.trim s
  trimmed.isEmpty || (!isTexty t && nullWords.contains (unicode.toLowercase trimmed)) ||
    if isNumeric t || isInteger t then (parseNumericStr unicode trimmed).isNone
    else if isBoolean t then
      !(["true".str, "t".str, "1".str, "yes".str, "y".str, "false".str, "f".str, "0".str, "no".str,
        "n".str].contains (unicode.toLowercase trimmed))
    else if t = "date".str then (datePrefix trimmed).getD trimmed = nullToken
    else s = nullToken

/-- A number that is no cell of a column that is not JSON: a truth value other than 0 and 1, or
an epoch that is no date. -/
def missingNumber (coercion : Coercion) (n : JsonNumber) (t : Str) : Bool :=
  if isNumeric t || isInteger t then coercion.showNumber n = nullToken
  else if isBoolean t then n ≠ .int 1 && n ≠ .int 0
  else if Text.startsWith t "timestamp".str then
    (coercion.epochToIso n).all (fun text => text = nullToken)
  else coercion.showNumber n = nullToken

/-- A value that is written as `NULL` to a column of a type. -/
def missing (coercion : Coercion) (value : Json) (dataType : Str) : Bool :=
  let t := coercion.unicode.toLowercase dataType
  match value with
  | .null => true
  | .string s => if isJson t then s = nullToken else missingString coercion.unicode s t
  | .number n =>
    if isJson t then coercion.showJson (.number n) = nullToken else missingNumber coercion n t
  | .bool b => isJson t && coercion.showJson (.bool b) = nullToken
  | value => coercion.showJson value = nullToken

/-- The field of a cell, as `build_csv` writes it. -/
def fieldOf (cell : Option Str) : Str := cell.getD nullToken

theorem fieldOf_some {s : Str} : fieldOf (some s) = nullToken ↔ s = nullToken := Iff.rfl

theorem stringCell_missing (unicode : Unicode) (s t : Str) :
    fieldOf (stringCell unicode s t) = nullToken ↔ missingString unicode s t = true := by
  rw [stringCell, missingString]
  dsimp only
  by_cases blank : (Text.trim s).isEmpty = true
  · rw [if_pos blank, blank, Bool.true_or, Bool.true_or]
    exact iff_of_true rfl rfl
  by_cases word : (!isTexty t && nullWords.contains (unicode.toLowercase (Text.trim s))) = true
  · rw [if_neg blank, if_pos word, word, Bool.or_true, Bool.true_or]
    exact iff_of_true rfl rfl
  rw [if_neg blank, if_neg word, Bool.eq_false_iff.mpr blank, Bool.eq_false_iff.mpr word,
    Bool.or_self, Bool.false_or]
  by_cases number : (isNumeric t || isInteger t) = true
  · rw [if_pos number, if_pos number]
    cases parsed : parseNumericStr unicode (Text.trim s) with
    | none => simp [fieldOf]
    | some cleaned =>
      rw [fieldOf_some]
      have other : cleaned ≠ nullToken := fun same =>
        parseNumericStr_ne unicode _ (parsed.trans (congrArg some same))
      exact iff_of_false other (by simp)
  rw [if_neg number, if_neg number]
  by_cases boolean : isBoolean t = true
  · rw [if_pos boolean, if_pos boolean]
    have words : ["true".str, "t".str, "1".str, "yes".str, "y".str, "false".str, "f".str, "0".str,
        "no".str, "n".str] = ["true".str, "t".str, "1".str, "yes".str, "y".str] ++
          ["false".str, "f".str, "0".str, "no".str, "n".str] := rfl
    rw [words, List.contains_append]
    split_ifs with yes no
    · rw [fieldOf_some, yes, Bool.true_or]
      exact iff_of_false (by decide) Bool.false_ne_true
    · rw [fieldOf_some, no, Bool.or_true]
      exact iff_of_false (by decide) Bool.false_ne_true
    · rw [Bool.eq_false_iff.mpr yes, Bool.eq_false_iff.mpr no]
      exact iff_of_true rfl rfl
  rw [if_neg boolean, if_neg boolean]
  by_cases date : t = "date".str
  · rw [if_pos date, if_pos date, fieldOf_some, decide_eq_true_eq]
  · rw [if_neg date, if_neg date, fieldOf_some, decide_eq_true_eq]

theorem numberCell_missing (coercion : Coercion) (n : JsonNumber) (t : Str) :
    fieldOf (numberCell coercion n t) = nullToken ↔ missingNumber coercion n t = true := by
  rw [numberCell, missingNumber]
  by_cases number : (isNumeric t || isInteger t) = true
  · rw [if_pos number, if_pos number, fieldOf_some, decide_eq_true_eq]
  rw [if_neg number, if_neg number]
  by_cases boolean : isBoolean t = true
  · rw [if_pos boolean, if_pos boolean]
    split_ifs with one zero
    · rw [fieldOf_some]
      exact iff_of_false (by decide) (by simp [one])
    · rw [fieldOf_some]
      exact iff_of_false (by decide) (by simp [zero])
    · exact iff_of_true rfl (by simp [one, zero])
  rw [if_neg boolean, if_neg boolean]
  by_cases time : Text.startsWith t "timestamp".str = true
  · rw [if_pos time, if_pos time]
    cases coercion.epochToIso n with
    | none => exact iff_of_true rfl rfl
    | some text => rw [fieldOf_some, Option.all_some, decide_eq_true_eq]
  · rw [if_neg time, if_neg time, fieldOf_some, decide_eq_true_eq]

/-- A cell is written as `NULL` exactly for the values that are missing. -/
theorem cellFor_missing (coercion : Coercion) (value : Json) (dataType : Str) :
    fieldOf (cellFor coercion value dataType) = nullToken ↔
      missing coercion value dataType = true := by
  have shown (b : Bool) : Text.showBool b ≠ nullToken := by
    cases b <;> decide
  by_cases json : isJson (coercion.unicode.toLowercase dataType) = true
  · cases value with
    | null => exact iff_of_true rfl rfl
    | bool | number | string | array | object =>
      simp [cellFor, missing, json, fieldOf]
  · cases value with
    | null => exact iff_of_true rfl rfl
    | string s =>
      simp only [cellFor, missing, if_neg json]
      exact stringCell_missing coercion.unicode s _
    | number n =>
      simp only [cellFor, missing, if_neg json]
      exact numberCell_missing coercion n _
    | bool b =>
      rw [Bool.not_eq_true] at json
      simp only [cellFor, missing, json, Bool.false_and, Bool.false_eq_true, if_false, iff_false]
      split_ifs with boolean numeric truth
      · exact shown b
      · exact (by decide : fieldOf (some "1".str) ≠ nullToken)
      · exact (by decide : fieldOf (some "0".str) ≠ nullToken)
      · exact shown b
    | array | object => simp [cellFor, missing, json, fieldOf]

/-! ## Lines -/

variable {V : Type} (table : Table V)

/-- The column has to have a value. -/
def notNull (name : Str) : Bool :=
  (targetColumns table).any (fun column => column.name == name && !column.isNullable)

/-- No line of the `COPY` writes `NULL` to a column that has to have a value. -/
def NoNulls (lines : List (List Str)) (names : List Str) : Prop :=
  ∀ fields ∈ lines, ∀ entry ∈ names.zip fields, notNull table entry.1 = true →
    entry.2 ≠ nullToken

/-- The fields that do not come from the records. -/
def stampFields (call : Call) (ingestTs : Option Str) : List (Str × Str) :=
  [("source".str, call.source), ("source_endpoint".str, call.sourceEndpoint),
    ("source_run_id".str, call.sourceRunId)] ++
    if hasIngestTs table then ingestTs.toList.map (fun ts => ("ingest_ts".str, ts)) else []

/-- The lines of the `COPY` that a call makes. -/
def linesOf (coercion : Coercion) (call : Call) (nowIso : Str) : List (List Str) :=
  buildCsv coercion (dtypeOf table) call (if hasIngestTs table then some nowIso else none)

variable {table} {coercion : Coercion} {call : Call} {nowIso : Str} {moment : Nat} {row : Row V}

/-- A line holds the cells of its record, and what does not come from it. -/
theorem zip_fields {ingestTs : Option Str} (record : Json) :
    (fullCols table call).zip (fieldsOf coercion (dtypeOf table) call ingestTs record) =
      call.cols.map (fun name =>
        (name, fieldOf (cellFor coercion (valueAt record name) (dtypeOf table name)))) ++
        stampFields table call ingestTs := by
  have cells (cols : List Str) : cols.zip (cols.map
      (fun name => (cellFor coercion (valueAt record name) (dtypeOf table name)).getD nullToken)) =
        cols.map (fun name =>
          (name, fieldOf (cellFor coercion (valueAt record name) (dtypeOf table name)))) := by
    induction cols with
    | nil => rfl
    | cons name rest inductionHypothesis =>
      rw [List.map_cons, List.zip_cons_cons, List.map_cons, inductionHypothesis]
      rfl
  simp only [fullCols, fieldsOf, List.append_assoc]
  rw [List.zip_append (by rw [List.length_map]), cells, stampFields]
  apply congrArg
  cases hasIngestTs table with
  | false => simp
  | true => cases ingestTs <;> simp

/-- The columns of a line are those of the `COPY`. -/
theorem fields_length (record : Json) :
    (fullCols table call).length = (fieldsOf coercion (dtypeOf table) call
      (if hasIngestTs table then some nowIso else none) record).length := by
  rw [fullCols, fieldsOf]
  cases hasIngestTs table <;> simp

/-- A column of the `COPY` finds its field in each line. -/
theorem lookup_isSome (record : Json) (name : Str) :
    (((fullCols table call).zip (fieldsOf coercion (dtypeOf table) call
      (if hasIngestTs table then some nowIso else none) record)).lookup name).isSome = true ↔
        name ∈ fullCols table call := by
  have first : ((fullCols table call).zip (fieldsOf coercion (dtypeOf table) call
      (if hasIngestTs table then some nowIso else none) record)).map Prod.fst =
        fullCols table call := List.map_fst_zip (fields_length record).le
  rw [List.lookup_isSome_iff]
  constructor
  · rintro ⟨entry, member, same⟩
    rw [← first, eq_of_beq same]
    exact List.mem_map_of_mem member
  · intro listed
    rw [← first] at listed
    obtain ⟨entry, member, rfl⟩ := List.mem_map.mp listed
    exact ⟨entry, member, beq_self_eq_true _⟩

/-- The cells are `NULL` in no column that has to have a value exactly if no record has a missing
value in such a column, and what the server adds is not the token. -/
theorem noNulls_iff : NoNulls table (linesOf table coercion call nowIso) (fullCols table call) ↔
    (∀ record ∈ call.records, ∀ name ∈ call.cols, notNull table name = true →
      missing coercion (valueAt record name) (dtypeOf table name) = false) ∧
    (call.records ≠ [] → ∀ entry ∈ stampFields table call (some nowIso),
      notNull table entry.1 = true → entry.2 ≠ nullToken) := by
  have stamps : stampFields table call (if hasIngestTs table then some nowIso else none) =
      stampFields table call (some nowIso) := by
    rw [stampFields, stampFields]
    cases hasIngestTs table <;> rfl
  have one (record : Json) : (∀ entry ∈ (fullCols table call).zip (fieldsOf coercion
        (dtypeOf table) call (if hasIngestTs table then some nowIso else none) record),
        notNull table entry.1 = true → entry.2 ≠ nullToken) ↔
      (∀ name ∈ call.cols, notNull table name = true →
        missing coercion (valueAt record name) (dtypeOf table name) = false) ∧
      ∀ entry ∈ stampFields table call (some nowIso), notNull table entry.1 = true →
        entry.2 ≠ nullToken := by
    rw [zip_fields, stamps, List.forall_mem_append, List.forall_mem_map]
    apply and_congr _ Iff.rfl
    apply forall₂_congr
    intro name usable
    rw [Ne, cellFor_missing, Bool.not_eq_true]
  rw [NoNulls, linesOf, buildCsv, List.forall_mem_map]
  simp only [one]
  constructor
  · intro whole
    refine ⟨fun record member => (whole record member).1, fun some_record => ?_⟩
    obtain ⟨record, member⟩ := List.exists_mem_of_ne_nil _ some_record
    exact (whole record member).2
  · rintro ⟨supplied, stamped⟩ record member
    exact ⟨supplied record member, stamped (List.ne_nil_of_mem member)⟩

/-! ## Staged rows -/

/-- The staging table has the first column of a name that the target has. -/
theorem find_staged {name : Str} {column : ColumnInfo} (staged : column ∈ stagedColumns table)
    (named : column.name = name) :
    (stagedColumns table).find? (fun column => column.name == name) =
      (targetColumns table).find? (fun column => column.name == name) := by
  subst named
  obtain ⟨whole, kept, rfl⟩ := List.mem_map.mp staged
  have free : whole.name ∉ generatedColumns table := by
    simpa using (List.mem_filter.mp kept).2
  rw [stagedColumns, targetColumns, List.find?_map, List.find?_map, List.find?_filter,
    List.find?_filter]
  apply congrArg
  apply List.find?_congr
  intro other listed
  by_cases same : other.name = whole.name
  · have plain : (!other.isGenerated && other.identityGeneration != some .always) = true := by
      by_contra hidden
      apply free
      rw [← same]
      refine List.mem_map.mpr ⟨other, List.mem_filter.mpr ⟨listed, ?_⟩, rfl⟩
      cases generated : other.isGenerated with
      | true => rfl
      | false =>
        cases identity : other.identityGeneration with
        | none => simp [generated, identity] at hidden
        | some generation => rfl
    have unlisted : (generatedColumns table).contains other.name = false := by
      rw [same, ← Bool.not_eq_true, List.contains_iff_mem]
      exact free
    simp only [plain, unlisted, Bool.not_false]
  · simp [same]

/-- A column of the staging table is a target column. -/
theorem notNull_staged {column : ColumnInfo} (staged : column ∈ stagedColumns table)
    (required : column.isNullable = false) : notNull table column.name = true := by
  refine List.any_eq_true.mpr ⟨column, staged_subset staged, ?_⟩
  rw [required, beq_self_eq_true]
  rfl

/-- A column of the `COPY` is left without a value by the token alone, another one by its
default. -/
theorem copyValue_null {entry : Option Str} {column : ColumnInfo} {began at_ : Nat} :
    copyValue table entry column began at_ = some none ↔
      entry = some nullToken ∨ (entry = none ∧ table.default_ column.name at_ = none) := by
  cases entry with
  | none => simp [copyValue]
  | some field =>
    rw [copyValue]
    by_cases token : field = nullToken
    · simp [token]
    · simp [token]

/-- A staged row has a value in every column that has to have one. -/
theorem staged_isSome {names fields : List Str} {began at_ : Nat}
    (copied : copyRow table names fields began at_ = some row) {column : ColumnInfo}
    (staged : column ∈ stagedColumns table) (required : column.isNullable = false) :
    (row column.name).isSome = true := by
  rw [copyRow] at copied
  dsimp only at copied
  split_ifs at copied with reads
  obtain rfl := Option.some.inj copied
  rw [List.all_eq_true] at reads
  obtain ⟨first, found⟩ := Option.isSome_iff_exists.mp
    (List.find?_isSome (p := fun other => other.name == column.name).mpr
      ⟨column, staged, beq_self_eq_true column.name⟩)
  have named := name_of_find found
  have reading := reads first (List.mem_of_find?_eq_some found)
  have whole := reads column staged
  rw [required] at whole
  dsimp only
  rw [found, Option.bind_some]
  -- the first column of the name is left without a value where this one is
  cases value : copyValue table ((names.zip fields).lookup first.name) first began at_ with
  | none => simp [value] at reading
  | some v =>
    cases v with
    | some v => rfl
    | none =>
      rw [copyValue_null, named] at value
      rw [copyValue_null.mpr value] at whole
      cases whole

variable {staged : List (Row V)}

/-- A staged row has a value in every part of the key that has to have one. -/
theorem notNullKeys_staged (ready : prepares table (mergeOf table call) = true)
    {fields : List Str} {began at_ : Nat}
    (copied : copyRow table (fullCols table call) fields began at_ = some row) :
    (mergeOf table call).notNullKeys.all (fun name => (row name).isSome) = true := by
  rw [List.all_eq_true]
  intro name member
  obtain ⟨keyed, required⟩ := List.mem_filter.mp member
  simp only [prepares, Bool.and_eq_true] at ready
  have there := List.all_eq_true.mp ready.1.2 name (List.mem_append_left _ keyed)
  obtain ⟨column, within, same⟩ := List.any_eq_true.mp there
  obtain ⟨first, found⟩ := Option.isSome_iff_exists.mp
    (List.find?_isSome.mpr (List.any_eq_true.mp there))
  rw [← find_staged within (by simpa using same), found, Option.map_some, Option.getD_some,
    Bool.not_eq_true'] at required
  rw [← name_of_find found]
  exact staged_isSome copied (List.mem_of_find?_eq_some found) required

/-- The columns of the table that are not staged are left out of the statement. -/
theorem staged_of_inserted (ready : prepares table (mergeOf table call) = true)
    {column : TableColumn} (listed : column ∈ table.columns)
    (inserted : column.name ∈ (mergeOf table call).insertCols) :
    column.toColumnInfo ∈ stagedColumns table := by
  simp only [prepares, Bool.and_eq_true] at ready
  obtain ⟨other, within, same⟩ := List.any_eq_true.mp
    (List.all_eq_true.mp ready.1.2 column.name (List.mem_append_right _ inserted))
  obtain ⟨whole, kept, rfl⟩ := List.mem_map.mp within
  have free := (List.mem_filter.mp kept).2
  rw [show whole.name = column.name from eq_of_beq same] at free
  exact List.mem_map_of_mem (List.mem_filter.mpr ⟨listed, free⟩)

variable [DecidableEq V]

/-- Of the rows that a call has staged, the statement selects the last ones of each key. -/
theorem selected_perm (ready : prepares table (mergeOf table call) = true)
    (staging : stage table coercion call nowIso moment = some staged) :
    (selected table (mergeOf table call) staged).Perm (distinctOn call.conflictCols staged) := by
  have all : staged.filter (fun row =>
      (mergeOf table call).notNullKeys.all (fun name => (row name).isSome)) = staged := by
    refine List.filter_eq_self.mpr fun row member => ?_
    obtain ⟨-, record, ingestTs, at_, copied⟩ := stage_row staging member
    exact notNullKeys_staged ready copied
  rw [selected, all]
  exact List.perm_insertionSort _ _

/-! ## Batches -/

/-- `NULL` reaches no column that has to have a value: no cell writes it there, no line leaves
it in the staging table, and no row that the statement proposes has it. -/
structure NeverNull (table : Table V) (coercion : Coercion) (call : Call) (nowIso : Str)
    (moment : Nat) : Prop where
  cells : NoNulls table (linesOf table coercion call nowIso) (fullCols table call)
  copied : ∀ line ∈ (linesOf table coercion call nowIso).zipIdx moment,
    ∀ column ∈ stagedColumns table, column.isNullable = false →
      copyValue table (((fullCols table call).zip line.1).lookup column.name) column moment
        line.2 ≠ some none
  inserted : ∀ staged, stage table coercion call nowIso moment = some staged →
    prepares table (mergeOf table call) = true →
    ∀ row ∈ proposed table (mergeOf table call) staged (moment + call.records.length),
      ∀ column ∈ table.columns, column.isNullable = false → column.isGenerated = false →
        (row column.name).isSome = true

/-- Every column that has to have a value gets one for each record: from the record itself where
the batch writes the column, and by default where it does not. -/
structure Valued (table : Table V) (coercion : Coercion) (call : Call) (nowIso : Str)
    (moment : Nat) : Prop where
  supplied : ∀ record ∈ call.records, ∀ name ∈ call.cols, notNull table name = true →
    missing coercion (valueAt record name) (dtypeOf table name) = false
  stamped : call.records ≠ [] → ∀ entry ∈ stampFields table call (some nowIso),
    notNull table entry.1 = true → entry.2 ≠ nullToken
  unsupplied : ∀ nth < call.records.length, ∀ column ∈ stagedColumns table,
    column.isNullable = false → column.name ∉ fullCols table call →
      (table.default_ column.name (moment + nth)).isSome = true
  /-- Columns that the statement leaves out, for as many rows as there are keys. -/
  leftOut : ∀ staged, stage table coercion call nowIso moment = some staged →
    prepares table (mergeOf table call) = true →
    ∀ nth < (distinctOn call.conflictCols staged).length, ∀ column ∈ table.columns,
      column.isNullable = false → column.isGenerated = false →
      column.name ∉ (mergeOf table call).insertCols →
        (table.default_ column.name (moment + call.records.length + nth)).isSome = true

omit [DecidableEq V] in
/-- The lines of the `COPY`, each at its moment. -/
theorem forall_lines {holds : List Str × Nat → Prop} :
    (∀ line ∈ (linesOf table coercion call nowIso).zipIdx moment, holds line) ↔
      ∀ nth, ∀ record, call.records[nth]? = some record →
        holds (fieldsOf coercion (dtypeOf table) call
          (if hasIngestTs table then some nowIso else none) record, moment + nth) := by
  constructor
  · intro all nth record found
    refine all _ (List.mk_add_mem_zipIdx_iff_getElem?.mpr ?_)
    rw [linesOf, buildCsv, List.getElem?_map, found, Option.map_some]
  · rintro all ⟨fields, at_⟩ member
    obtain ⟨after, found⟩ := List.mk_mem_zipIdx_iff_le_and_getElem?_sub.mp member
    rw [linesOf, buildCsv, List.getElem?_map, Option.map_eq_some_iff] at found
    obtain ⟨record, found, rfl⟩ := found
    have here := all _ record found
    rw [Nat.add_sub_cancel' after] at here
    exact here

omit [DecidableEq V] in
/-- No line leaves `NULL` in the staging table exactly if no cell writes it there and the columns
that are not copied have a default. -/
theorem copied_iff (cells : NoNulls table (linesOf table coercion call nowIso)
      (fullCols table call)) :
    (∀ line ∈ (linesOf table coercion call nowIso).zipIdx moment,
      ∀ column ∈ stagedColumns table, column.isNullable = false →
        copyValue table (((fullCols table call).zip line.1).lookup column.name) column moment
          line.2 ≠ some none) ↔
      ∀ nth < call.records.length, ∀ column ∈ stagedColumns table,
        column.isNullable = false → column.name ∉ fullCols table call →
          (table.default_ column.name (moment + nth)).isSome = true := by
  rw [forall_lines]
  constructor
  · intro whole nth within column staged required absent
    have value := whole nth _ (List.getElem?_eq_getElem within) column staged required
    rw [Ne, copyValue_null, not_or, not_and] at value
    rw [Option.isSome_iff_ne_none]
    refine value.2 (Option.not_isSome_iff_eq_none.mp ?_)
    rw [lookup_isSome]
    exact absent
  · intro defaults nth record found column staged required null
    have within : nth < call.records.length := (List.getElem?_eq_some_iff.mp found).1
    rcases copyValue_null.mp null with token | ⟨absent, missed⟩
    · have line : fieldsOf coercion (dtypeOf table) call
          (if hasIngestTs table then some nowIso else none) record ∈
            linesOf table coercion call nowIso :=
        List.mem_map_of_mem (List.mem_of_getElem? found)
      obtain ⟨before, after, split, -⟩ := List.lookup_eq_some_iff.mp token
      refine cells _ line (column.name, nullToken) ?_ (notNull_staged staged required) rfl
      rw [split]
      exact List.mem_append_right _ List.mem_cons_self
    · have unlisted : column.name ∉ fullCols table call := by
        rw [← @lookup_isSome V table coercion call nowIso, absent]
        exact Bool.false_ne_true
      have given := defaults nth within column staged required unlisted
      rw [missed] at given
      cases given

/-- The rows that are proposed lack no value exactly if the columns that the statement leaves out
have a default. -/
theorem proposed_isSome_iff (ready : prepares table (mergeOf table call) = true)
    (staging : stage table coercion call nowIso moment = some staged) (at_ : Nat) :
    (∀ row ∈ proposed table (mergeOf table call) staged at_, ∀ column ∈ table.columns,
        column.isNullable = false → column.isGenerated = false →
          (row column.name).isSome = true) ↔
      ∀ nth < (distinctOn call.conflictCols staged).length, ∀ column ∈ table.columns,
        column.isNullable = false → column.isGenerated = false →
        column.name ∉ (mergeOf table call).insertCols →
          (table.default_ column.name (at_ + nth)).isSome = true := by
  have count := (selected_perm ready staging).length_eq
  constructor
  · intro whole nth within column listed required plain leftOut
    rw [← count] at within
    have member : ((selected table (mergeOf table call) staged)[nth], at_ + nth) ∈
        (selected table (mergeOf table call) staged).zipIdx at_ :=
      List.mk_add_mem_zipIdx_iff_getElem?.mpr (List.getElem?_eq_getElem within)
    have value := whole _ (List.mem_map_of_mem member) column listed required plain
    have there : table.columns.any (fun other => other.name == column.name) = true :=
      List.any_eq_true.mpr ⟨column, listed, beq_self_eq_true _⟩
    rwa [complete, if_neg (by simpa using leftOut), if_pos there] at value
  · intro defaults row member column listed required plain
    obtain ⟨entry, chosen, rfl⟩ := List.mem_map.mp member
    obtain ⟨after, found⟩ := List.mk_mem_zipIdx_iff_le_and_getElem?_sub.mp chosen
    by_cases inserted : column.name ∈ (mergeOf table call).insertCols
    · rw [complete, if_pos (List.contains_iff_mem.mpr inserted)]
      have kept := (selected_perm ready staging).mem_iff.mp (List.mem_of_getElem? found)
      obtain ⟨-, record, ingestTs, line, copied⟩ := stage_row staging (mem_of_mem_distinctOn kept)
      exact staged_isSome copied (staged_of_inserted ready listed inserted) required
    · have there : table.columns.any (fun other => other.name == column.name) = true :=
        List.any_eq_true.mpr ⟨column, listed, beq_self_eq_true _⟩
      have within : entry.2 - at_ < (distinctOn call.conflictCols staged).length := by
        rw [← count]
        exact (List.getElem?_eq_some_iff.mp found).1
      have value := defaults _ within column listed required plain inserted
      rw [Nat.add_sub_cancel' after] at value
      rwa [complete, if_neg (by simpa using inserted), if_pos there]

/-- `NULL` reaches no column that has to have a value exactly if each such column gets one for
every record. -/
theorem neverNull_iff_valued :
    NeverNull table coercion call nowIso moment ↔ Valued table coercion call nowIso moment := by
  constructor
  · rintro ⟨cells, copied, inserted⟩
    obtain ⟨supplied, stamped⟩ := noNulls_iff.mp cells
    refine ⟨supplied, stamped, (copied_iff cells).mp copied, fun staged staging ready => ?_⟩
    exact (proposed_isSome_iff ready staging _).mp (inserted staged staging ready)
  · rintro ⟨supplied, stamped, unsupplied, leftOut⟩
    have cells := noNulls_iff.mpr ⟨supplied, stamped⟩
    refine ⟨cells, (copied_iff cells).mpr unsupplied, fun staged staging ready => ?_⟩
    exact (proposed_isSome_iff ready staging _).mpr (leftOut staged staging ready)

/-! ## Copies that are refused -/

/-- Some field of a line is none of its column's type. -/
def Unread (table : Table V) (coercion : Coercion) (call : Call) (nowIso : Str)
    (moment : Nat) : Prop :=
  ∃ line ∈ (linesOf table coercion call nowIso).zipIdx moment, ∃ column ∈ stagedColumns table,
    copyValue table (((fullCols table call).zip line.1).lookup column.name) column moment
      line.2 = none

omit [DecidableEq V] in
/-- A line is refused for a field that is not read, or for a value that has to be there. -/
theorem copyRow_none_iff {names fields : List Str} {began at_ : Nat} :
    copyRow table names fields began at_ = none ↔ ∃ column ∈ stagedColumns table,
      copyValue table ((names.zip fields).lookup column.name) column began at_ = none ∨
        (copyValue table ((names.zip fields).lookup column.name) column began at_ = some none ∧
          column.isNullable = false) := by
  rw [copyRow]
  dsimp only
  rw [ite_eq_right_iff]
  simp only [reduceCtorEq, imp_false, List.all_eq_true, not_forall]
  apply exists_congr
  intro column
  rw [exists_prop]
  apply and_congr_right
  intro staged
  cases copyValue table ((names.zip fields).lookup column.name) column began at_ with
  | none => simp
  | some value => cases value <;> simp

omit [DecidableEq V] in
theorem copyRows_none {names : List Str} {began moment : Nat} {lines : List (List Str)}
    (refused : copyRows table names began moment lines = none) :
    ∃ line ∈ lines.zipIdx moment, copyRow table names line.1 began line.2 = none := by
  induction lines generalizing moment with
  | nil => cases refused
  | cons fields rest inductionHypothesis =>
    rw [List.zipIdx_cons]
    cases first : copyRow table names fields began moment with
    | none => exact ⟨_, List.mem_cons_self, first⟩
    | some row =>
      rw [copyRows, first] at refused
      cases others : copyRows table names began (moment + 1) rest with
      | none =>
        obtain ⟨line, member, none_⟩ := inductionHypothesis others
        exact ⟨line, List.mem_cons_of_mem _ member, none_⟩
      | some rows =>
        rw [others] at refused
        cases refused

/-- Where `NULL` reaches no column that has to have a value, a copy into columns that are there is
refused only for a field that is not read. -/
theorem NeverNull.unread (never : NeverNull table coercion call nowIso moment)
    (ready : copies table (fullCols table call) = true)
    (refused : stage table coercion call nowIso moment = none) :
    Unread table coercion call nowIso moment := by
  have none_ : copyRows table (fullCols table call) moment moment
      (linesOf table coercion call nowIso) = none := by
    rw [stage] at refused
    simp only [ready, if_true] at refused
    exact refused
  obtain ⟨line, member, first⟩ := copyRows_none none_
  obtain ⟨column, staged, unread | ⟨null, required⟩⟩ := copyRow_none_iff.mp first
  · exact ⟨line, member, column, staged, unread⟩
  · exact absurd null (never.copied line member column staged required)

/-! ## Accepted records -/

/-- Trades with a price that has to be there. -/
def trades : Table Str :=
  { textTable [textColumn "trade_id".str false false,
      { textColumn "px".str false false with dataType := "numeric".str }] [["trade_id".str]]
      (fun _ _ => none) with
    input := fun column text _ =>
      if column.dataType = "numeric".str then (F64.parse text).map (fun _ => text)
      else some text }

def tradeRecord (id px : String) : Json :=
  .object [("trade_id".str, .string id.str), ("px".str, .string px.str)]

def tradeRequest (records : List Json) : WriteRequest :=
  ⟨records, "desk".str, "desk".str, "run".str⟩

/-- Two trades whose prices are there. -/
def pricedTrades : WriteRequest :=
  tradeRequest [tradeRecord "1" "$9.5", tradeRecord "2" "1,000"]

end LumidPlatform.Write.Engine
