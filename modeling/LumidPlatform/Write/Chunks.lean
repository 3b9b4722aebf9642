import LumidPlatform.Lib.Assoc
import LumidPlatform.Write.Lineage
import LumidPlatform.Write.NullCells

/-!
# Batches of one list

A list of records may be written at once or batch by batch. The columns of a `COPY` are those
that some record of its batch supplies, so that a record is staged with `NULL` in one batch and
with a default in another; and each batch is a transaction, in which a text such as `now` is read
anew. In the columns that a batch stages as the whole list does, the table holds the last record
of each key either way.
-/

namespace LumidPlatform.Write.Engine

variable {V : Type} (table : Table V)

/-! ## How a record is staged -/

/-- What a text is in a column, in a transaction of that moment; the token is `NULL`. -/
def textCell (table : Table V) (name text : Str) (began : Nat) : Option V :=
  if text = nullToken then none else stampValue table name text began

/-- A text is the same value in a column in all transactions of certain moments. -/
def ReadsAlike (table : Table V) (times : Nat → Prop) (name text : Str) : Prop :=
  ∃ value, ∀ began, times began → textCell table name text began = value

/-- A batch stages a column as the whole list does: the batch supplies it, with texts that are
read alike at the moments of both, it is a part of the stamp, which is read alike, or both leave
it to one and the same default. A default of `NULL` is what the whole list writes where the record
has no value. -/
def StagedAlike (coercion : Coercion) (tableMeta : TableMeta) (req : WriteRequest)
    (times : Nat → Prop) (whole batch : List Json) (name : Str) : Prop :=
  (name ∈ usableCols tableMeta batch ∧ ∀ record ∈ batch, ReadsAlike table times name
      (fieldOf (cellFor coercion (valueAt record name) (dtypeOf table name)))) ∨
    (∃ entry ∈ (req.call tableMeta).stamp.entries, entry.1 = name ∧
      ReadsAlike table times name entry.2) ∨
    name ∉ usableCols tableMeta batch ∧
      name ∉ ["source".str, "source_endpoint".str, "source_run_id".str, "ingest_ts".str] ∧
      ∃ value, (∀ moment, table.default_ name moment = value) ∧
        (name ∈ usableCols tableMeta whole → value = none)

/-- The row that a record is staged as, with its request, in a transaction of one of certain
moments. -/
def Stages (coercion : Coercion) (tableMeta : TableMeta) (req : WriteRequest)
    (times : Nat → Prop) (record : Json) (row : Row V) : Prop :=
  ∃ ingestTs began moment, times began ∧ copyRow table (fullCols table (req.call tableMeta))
    (fieldsOf coercion (dtypeOf table) (req.call tableMeta) ingestTs record) began moment = some row

variable {table} {coercion : Coercion} {tableMeta : TableMeta} {req : WriteRequest}
  {times : Nat → Prop}

theorem mem_usableCols {records : List Json} {name : Str} :
    name ∈ usableCols tableMeta records ↔
      name ∈ tableMeta.columns.map ColumnInfo.name ∧
        (∃ record ∈ records, ∃ entry ∈ record.asObject?.getD [], entry.1 = name) ∧
        name ∉ serverStampedCols := by
  rw [usableCols, List.mem_filter, Bool.and_eq_true, List.any_eq_true, Bool.not_eq_true',
    ← Bool.not_eq_true, List.contains_iff_mem]
  simp only [List.any_eq_true, beq_iff_eq]

/-- A column that a part of a list supplies is supplied by the list. -/
theorem usableCols_subset {whole batch : List Json} (within : ∀ record ∈ batch, record ∈ whole)
    {name : Str} (usable : name ∈ usableCols tableMeta batch) :
    name ∈ usableCols tableMeta whole := by
  obtain ⟨known, ⟨record, member, entry, has⟩, free⟩ := mem_usableCols.mp usable
  exact mem_usableCols.mpr ⟨known, ⟨record, within record member, entry, has⟩, free⟩

/-- A record without a column has `null` there. -/
theorem valueAt_absent {record : Json} {name : Str}
    (absent : ∀ entry ∈ record.asObject?.getD [], entry.1 ≠ name) :
    valueAt record name = .null := by
  rw [valueAt]
  cases members : record.asObject? with
  | none => rfl
  | some entries =>
    rw [members] at absent
    have missing : JsonMap.get entries name = none := by
      rw [JsonMap.get, List.lookup_eq_none_iff]
      intro entry member
      rw [bne_iff_ne]
      exact (absent entry member).symm
    rw [Option.bind_some, missing]
    rfl

theorem lookup_map_append {names : List Str} {field : Str → Str} {more : List (Str × Str)}
    (name : Str) : ((names.map (fun n => (n, field n))) ++ more).lookup name =
      if name ∈ names then some (field name) else more.lookup name := by
  rw [List.lookup_append, Assoc.lookup_map]
  split_ifs with here
  · exact Option.some_or
  · exact Option.none_or

/-- What is copied for a record at a column. -/
def fieldAt (coercion : Coercion) (table : Table V) (tableMeta : TableMeta) (req : WriteRequest)
    (ingestTs : Option Str) (record : Json) (name : Str) : Option Str :=
  if name ∈ usableCols tableMeta req.records then
    some (fieldOf (cellFor coercion (valueAt record name) (dtypeOf table name)))
  else (stampFields table (req.call tableMeta) ingestTs).lookup name

/-- A staged row holds, in each column of the staging table, what was copied there. -/
theorem copyRow_at {ingestTs : Option Str} {record : Json} {began moment : Nat} {row : Row V}
    (copied : copyRow table (fullCols table (req.call tableMeta))
      (fieldsOf coercion (dtypeOf table) (req.call tableMeta) ingestTs record) began moment =
        some row) (name : Str) :
    row name = ((stagedColumns table).find? (fun column => column.name == name)).bind
      (fun column => (copyValue table (fieldAt coercion table tableMeta req ingestTs record name)
        column began moment).join) := by
  rw [copyRow] at copied
  dsimp only at copied
  split_ifs at copied with reads
  obtain rfl := Option.some.inj copied
  cases found : (stagedColumns table).find? (fun column => column.name == name) with
  | none =>
    dsimp only
    rw [found]
    rfl
  | some column =>
    dsimp only
    rw [found, Option.bind_some, Option.bind_some, zip_fields, name_of_find found,
      lookup_map_append, fieldAt]
    rfl

/-- The same request for some records. -/
def WriteRequest.withRecords (req : WriteRequest) (records : List Json) : WriteRequest :=
  { req with records := records }

@[simp]
theorem withRecords_records (req : WriteRequest) (records : List Json) :
    (req.withRecords records).records = records := rfl

/-- The texts of a stamp stand where they do, whatever the records are. -/
theorem lookup_stampFields (req : WriteRequest) {entry : Str × Str}
    (stamped : entry ∈ (req.call tableMeta).stamp.entries) (records : List Json)
    (ingestTs : Option Str) :
    (stampFields table ((req.withRecords records).call tableMeta) ingestTs).lookup entry.1 =
      some entry.2 := by
  simp only [Stamp.entries, Call.stamp, WriteRequest.call, List.mem_cons, List.not_mem_nil,
    or_false] at stamped
  rcases stamped with rfl | rfl | rfl
  · rfl
  · rfl
  · rfl

/-- The columns of a stamp are not payload. -/
theorem stamp_unusable {entry : Str × Str}
    (stamped : entry ∈ (req.call tableMeta).stamp.entries) (records : List Json) :
    entry.1 ∉ usableCols tableMeta records := by
  intro usable
  apply (mem_usableCols.mp usable).2.2
  simp only [Stamp.entries, List.mem_cons, List.not_mem_nil, or_false] at stamped
  rcases stamped with rfl | rfl | rfl
  · exact (by decide : "source".str ∈ serverStampedCols)
  · exact (by decide : "source_endpoint".str ∈ serverStampedCols)
  · exact (by decide : "source_run_id".str ∈ serverStampedCols)

/-- A text that is copied is what its column reads. -/
theorem copied_text {name : Str} {column : ColumnInfo}
    (found : (stagedColumns table).find? (fun column => column.name == name) = some column)
    (text : Str) (began moment : Nat) :
    (copyValue table (some text) column began moment).join = textCell table name text began := by
  rw [copyValue, textCell, stampValue, found, Option.bind_some]
  split_ifs
  · rfl
  · cases table.input column text began <;> rfl

/-- Nothing but the stamp and the time is added to the fields of a record. -/
theorem lookup_stampFields_none {ingestTs : Option Str} {name : Str}
    (noStamp : name ∉ ["source".str, "source_endpoint".str, "source_run_id".str])
    (noTime : name ≠ "ingest_ts".str) :
    (stampFields table (req.call tableMeta) ingestTs).lookup name = none := by
  rw [List.lookup_eq_none_iff]
  intro entry member
  rw [bne_iff_ne]
  rintro rfl
  rcases List.mem_append.mp member with stamp | time
  · apply noStamp
    simp only [List.mem_cons, List.not_mem_nil, or_false] at stamp ⊢
    rcases stamp with rfl | rfl | rfl
    · exact Or.inl rfl
    · exact Or.inr (Or.inl rfl)
    · exact Or.inr (Or.inr rfl)
  · split_ifs at time
    · obtain ⟨text, -, rfl⟩ := List.mem_map.mp time
      exact noTime rfl
    · cases time

/-- A record is staged alike in the columns in which its batch stages alike. -/
theorem stages_alike {whole batch : List Json} (within : ∀ record ∈ batch, record ∈ whole)
    {record : Json} (member : record ∈ batch) {first second : Row V}
    (inWhole : Stages table coercion tableMeta (req.withRecords whole) times record first)
    (inBatch : Stages table coercion tableMeta (req.withRecords batch) times record second)
    {name : Str} (alike : StagedAlike table coercion tableMeta req times whole batch name) :
    first name = second name := by
  obtain ⟨ingestTs, began, moment, during, copied⟩ := inWhole
  obtain ⟨ingestTs', began', moment', during', copied'⟩ := inBatch
  rw [copyRow_at copied, copyRow_at copied']
  cases found : (stagedColumns table).find? (fun column => column.name == name) with
  | none => rfl
  | some column =>
    rw [Option.bind_some, Option.bind_some, fieldAt, fieldAt, withRecords_records,
      withRecords_records]
    rcases alike with ⟨supplied, texts⟩ | ⟨entry, stamped, rfl, value, same⟩ |
      ⟨unsupplied, noStamp, value, constant, null⟩
    · obtain ⟨value, same⟩ := texts record member
      rw [if_pos supplied, if_pos (usableCols_subset within supplied), copied_text found,
        copied_text found, same began during, same began' during']
    · rw [if_neg (stamp_unusable stamped _), if_neg (stamp_unusable stamped _),
        lookup_stampFields req stamped, lookup_stampFields req stamped, copied_text found,
        copied_text found, same began during, same began' during']
    · have left (began moment : Nat) : copyValue table none column began moment = some value := by
        rw [copyValue, name_of_find found, constant]
      have nothing (records : List Json) (ingestTs : Option Str) :
          (stampFields table ((req.withRecords records).call tableMeta) ingestTs).lookup name =
            none := by
        simp only [List.mem_cons, List.not_mem_nil, or_false, not_or] at noStamp
        exact lookup_stampFields_none (by simp [noStamp]) noStamp.2.2.2
      rw [if_neg unsupplied, nothing, nothing, left]
      by_cases wholly : name ∈ usableCols tableMeta whole
      · have absent : ∀ entry ∈ record.asObject?.getD [], entry.1 ≠ name := by
          intro entry has same
          obtain ⟨known, -, free⟩ := mem_usableCols.mp wholly
          exact unsupplied (mem_usableCols.mpr ⟨known, ⟨record, member, entry, has, same⟩, free⟩)
        have none_written : copyValue table
            (some (fieldOf (cellFor coercion (valueAt record name) (dtypeOf table name)))) column
            began moment = some none := by
          rw [valueAt_absent absent]
          rfl
        rw [if_pos wholly, none_written, null wholly]
      · rw [if_neg wholly, left]

/-- The rows of a call are staged from its records, one each. -/
theorem stage_rows {nowIso : Str} {began : Nat} {staged : List (Row V)} (during : times began)
    (staging : stage table coercion (req.call tableMeta) nowIso began = some staged) :
    List.Forall₂ (Stages table coercion tableMeta req times) req.records staged := by
  have copied (ingestTs : Option Str) (records : List Json) (moment : Nat) (staged : List (Row V))
      (copies : copyRows table (fullCols table (req.call tableMeta)) began moment
        (records.map (fieldsOf coercion (dtypeOf table) (req.call tableMeta) ingestTs)) =
          some staged) :
      List.Forall₂ (Stages table coercion tableMeta req times) records staged := by
    induction records generalizing moment staged with
    | nil =>
      obtain rfl := Option.some.inj copies
      exact .nil
    | cons record rest inductionHypothesis =>
      rw [List.map_cons, copyRows] at copies
      split at copies
      · rename_i row rows one others
        obtain rfl := Option.some.inj copies
        exact .cons ⟨ingestTs, began, moment, during, one⟩ (inductionHypothesis _ _ others)
      · cases copies
  rw [stage] at staging
  split_ifs at staging
  · exact copied _ _ _ _ staging
  · exact copied _ _ _ _ staging

/-! ## Batches of one list -/

/-- A record of one of the batches, staged with it. -/
def StagedIn (table : Table V) (coercion : Coercion) (tableMeta : TableMeta) (req : WriteRequest)
    (times : Nat → Prop) (batches : List (List Json)) (record : Json) (row : Row V) : Prop :=
  ∃ batch ∈ batches, record ∈ batch ∧
    Stages table coercion tableMeta (req.withRecords batch) times record row

/-- Two lists that are related to a third one by one are related to each other. -/
theorem forall₂_common {X Y Z : Type} {P : X → Y → Prop} {Q : X → Z → Prop} {R : Y → Z → Prop}
    (both : ∀ x y z, P x y → Q x z → R y z) {xs : List X} {ys : List Y} {zs : List Z}
    (first : List.Forall₂ P xs ys) (second : List.Forall₂ Q xs zs) : List.Forall₂ R ys zs := by
  induction first generalizing zs with
  | nil =>
    cases second
    exact .nil
  | cons one _ inductionHypothesis =>
    obtain ⟨z, rest, other, others, rfl⟩ := List.forall₂_cons_left_iff.mp second
    exact .cons (both _ _ _ one other) (inductionHypothesis others)

/-- The staged rows of both ways are alike in the columns that every batch stages alike. -/
theorem staged_pairs {batches : List (List Json)} {first second : List (Row V)}
    (once : List.Forall₂ (StagedIn table coercion tableMeta req times [batches.flatten])
      batches.flatten first)
    (cut : List.Forall₂ (StagedIn table coercion tableMeta req times batches) batches.flatten
      second) :
    List.Forall₂ (fun row row' => ∀ name, (∀ batch ∈ batches,
        StagedAlike table coercion tableMeta req times batches.flatten batch name) →
        row name = row' name) first second := by
  refine forall₂_common ?_ once cut
  rintro record row row' ⟨whole, among, -, inWhole⟩ ⟨batch, listed, member, inBatch⟩ name alike
  obtain rfl := List.mem_singleton.mp among
  exact stages_alike (fun other within => List.mem_flatten.mpr ⟨batch, listed, within⟩) member
    inWhole inBatch (alike batch listed)

/-! ## Inserted columns -/

variable {call : Call} {row : Row V}

/-- A column of the key is inserted as it was staged, unless it is the identity. -/
theorem key_inserted (ready : prepares table (mergeOf table call) = true)
    (noId : "id".str ∉ call.conflictCols) {name : Str} (keyed : name ∈ call.conflictCols) :
    name ∈ (mergeOf table call).insertCols := by
  simp only [prepares, Bool.and_eq_true] at ready
  have there := List.all_eq_true.mp ready.1.2 name (List.mem_append_left _ keyed)
  obtain ⟨column, within, same⟩ := List.any_eq_true.mp there
  obtain rfl : column.name = name := by simpa using same
  refine List.mem_filter.mpr ⟨List.mem_map.mpr ⟨column, staged_subset within, rfl⟩, ?_⟩
  rw [bne_iff_ne]
  intro identity
  exact noId (identity ▸ keyed)

/-- What is compared is data of the table. -/
theorem distinct_data {name : Str} (compared : name ∈ (mergeOf table call).distinctCols) :
    name ∈ (targetColumns table).map ColumnInfo.name ∧ name ∉ serverStampedCols := by
  simp only [mergeOf, buildMerge, List.mem_append] at compared
  rcases compared with (flat | raw) | payload
  · obtain ⟨inside, plain⟩ := List.mem_filter.mp flat
    refine ⟨inside, fun stamped => ?_⟩
    simp only [serverStampedCols, List.mem_cons, List.not_mem_nil, or_false] at stamped
    rcases stamped with rfl | rfl | rfl | rfl | rfl
    all_goals exact absurd plain (by simp [isProvOrId])
  · split_ifs at raw with there
    · obtain rfl := List.mem_singleton.mp raw
      rw [Bool.and_eq_true] at there
      exact ⟨List.contains_iff_mem.mp there.1, by decide⟩
    · cases raw
  · split_ifs at payload with there
    · obtain rfl := List.mem_singleton.mp payload
      exact ⟨List.contains_iff_mem.mp there, by decide⟩
    · cases payload

/-- What is compared is inserted as it was staged. -/
theorem distinct_inserted {name : Str} (compared : name ∈ (mergeOf table call).distinctCols) :
    name ∈ (mergeOf table call).insertCols := by
  obtain ⟨target, free⟩ := distinct_data compared
  refine List.mem_filter.mpr ⟨target, bne_iff_ne.mpr ?_⟩
  rintro rfl
  exact free (by decide)

/-- Every column is compared or in the key, but for the stamp, the time and the identity. -/
theorem compared_of_target {name : Str} (target : name ∈ (targetColumns table).map ColumnInfo.name)
    (data : name ∉ serverStampedCols) :
    name ∈ call.conflictCols ∨ name ∈ (mergeOf table call).distinctCols := by
  by_cases keyed : name ∈ call.conflictCols
  · exact Or.inl keyed
  · right
    simp only [mergeOf, buildMerge, List.mem_append]
    by_cases payload : name = "payload".str
    · subst payload
      rw [if_pos (List.contains_iff_mem.mpr target)]
      exact Or.inr List.mem_cons_self
    by_cases raw : name = "raw".str
    · subst raw
      refine Or.inl (Or.inr ?_)
      rw [if_pos]
      · exact List.mem_cons_self
      · rw [List.contains_iff_mem.mpr target]
        simp [isProvOrId]
    · refine Or.inl (Or.inl (List.mem_filter.mpr ⟨target, ?_⟩))
      have flat : isProvOrId name = false := by
        simp only [serverStampedCols, List.mem_cons, List.not_mem_nil, or_false, not_or] at data
        simp [isProvOrId, data, payload, raw]
      rw [flat]
      simpa using keyed

/-- A row that is inserted is like the staged one in the inserted columns. -/
theorem complete_inserted {merge : Merge} {at_ : Nat} {name : Str}
    (inserted : name ∈ merge.insertCols) : complete table merge row at_ name = row name := by
  rw [complete, if_pos (List.contains_iff_mem.mpr inserted)]

/-! ## The last row of a key -/

variable [DecidableEq V]

/-- The row has the key in some columns. -/
def hasKey (cols : List Str) (key : List V) (row : Row V) : Bool := keyOf cols row = some key

/-- The last row with a key. -/
def lastOf (cols : List Str) (rows : List (Row V)) (key : List V) : Option (Row V) :=
  rows.reverse.find? (hasKey cols key)

/-- Rows that are alike in the columns of a key have it together. -/
theorem hasKey_congr {cols : List Str} {key : List V} {first second : Row V}
    (alike : ∀ name ∈ cols, first name = second name) :
    hasKey cols key first = hasKey cols key second := by
  have same : valuesOf cols first = valuesOf cols second := List.map_congr_left alike
  rw [hasKey, hasKey, decide_eq_decide, keyOf_eq_some, keyOf_eq_some, same]

/-- The rows without `NULL` in a key are alike exactly where they have the same one. -/
theorem valuesOf_eq_of_hasKey {cols : List Str} {key : List V} {first second : Row V}
    (has : hasKey cols key first = true) :
    valuesOf cols second = valuesOf cols first ↔ hasKey cols key second = true := by
  rw [hasKey, decide_eq_true_eq, keyOf_eq_some] at has
  rw [hasKey, decide_eq_true_eq, keyOf_eq_some, has]

/-- Of each key the last row is kept. -/
theorem find_distinctOn (cols : List Str) (rows : List (Row V)) (key : List V) :
    (distinctOn cols rows).find? (hasKey cols key) = lastOf cols rows key := by
  induction rows with
  | nil => rfl
  | cons row rest inductionHypothesis =>
    rw [lastOf] at inductionHypothesis
    rw [lastOf, List.reverse_cons, List.find?_append, ← inductionHypothesis, distinctOn]
    by_cases has : hasKey cols key row = true
    · by_cases again : rest.any (fun later => valuesOf cols later = valuesOf cols row) = true
      · rw [if_pos again]
        obtain ⟨later, member, same⟩ := List.any_eq_true.mp again
        have also := (valuesOf_eq_of_hasKey has).mp (of_decide_eq_true same)
        have found : ((distinctOn cols rest).find? (hasKey cols key)).isSome = true := by
          rw [inductionHypothesis, List.find?_isSome]
          exact ⟨later, List.mem_reverse.mpr member, also⟩
        obtain ⟨last, is⟩ := Option.isSome_iff_exists.mp found
        rw [is, Option.some_or]
      · have gone : (distinctOn cols rest).find? (hasKey cols key) = none := by
          rw [inductionHypothesis, List.find?_eq_none]
          intro later member also
          apply again
          exact List.any_eq_true.mpr ⟨later, List.mem_reverse.mp member,
            decide_eq_true ((valuesOf_eq_of_hasKey has).mpr also)⟩
        rw [if_neg again, gone, Option.none_or, List.find?_cons_of_pos has,
          List.find?_cons_of_pos has]
    · rw [List.find?_cons_of_neg has, List.find?_nil, Option.or_none]
      split_ifs
      · rfl
      · rw [List.find?_cons_of_neg has]

/-! ## What a call puts into the table -/

variable {staged : List (Row V)} {moment : Nat}

/-- Rows that have a key in full pass the filter for `NULL` in it. -/
theorem lastOf_filter (targetCols : List ColumnInfo) (cols : List Str) (rows : List (Row V))
    (key : List V) :
    lastOf cols (rows.filter (fun row =>
      (buildMerge targetCols cols).notNullKeys.all (fun name => (row name).isSome))) key =
      lastOf cols rows key := by
  rw [lastOf, lastOf, ← List.filter_reverse, List.find?_filter]
  apply congrArg (fun p => rows.reverse.find? p)
  funext row
  by_cases has : hasKey cols key row = true
  · have full : (buildMerge targetCols cols).notNullKeys.all (fun name => (row name).isSome) =
        true := by
      rw [List.all_eq_true]
      intro name member
      have among : name ∈ cols := (List.mem_filter.mp member).1
      rw [hasKey, decide_eq_true_eq, keyOf_eq_some] at has
      have value : row name ∈ key.map some := has ▸ List.mem_map_of_mem among
      obtain ⟨v, -, same⟩ := List.mem_map.mp value
      rw [← same]
      rfl
    simp [full, has]
  · simp [has]

theorem hasKey_complete (ready : prepares table (mergeOf table call) = true)
    (noId : "id".str ∉ call.conflictCols) (key : List V) (at_ : Nat) :
    hasKey call.conflictCols key (complete table (mergeOf table call) row at_) =
      hasKey call.conflictCols key row :=
  hasKey_congr fun _ keyed => complete_inserted (key_inserted ready noId keyed)

theorem keyOf_complete (ready : prepares table (mergeOf table call) = true)
    (noId : "id".str ∉ call.conflictCols) (at_ : Nat) :
    keyOf call.conflictCols (complete table (mergeOf table call) row at_) =
      keyOf call.conflictCols row := by
  refine Option.ext fun key => ?_
  have same : hasKey call.conflictCols key (complete table (mergeOf table call) row at_) =
      hasKey call.conflictCols key row := hasKey_complete ready noId key at_
  rwa [hasKey, hasKey, decide_eq_decide] at same

/-- A row that the statement selects is proposed, completed. -/
theorem proposed_of_selected {merge : Merge} (chosen : row ∈ selected table merge staged) :
    ∃ at_, complete table merge row at_ ∈ proposed table merge staged moment := by
  have numbered : row ∈ ((selected table merge staged).zipIdx moment).map Prod.fst := by
    rw [List.zipIdx_map_fst]
    exact chosen
  obtain ⟨entry, listed, rfl⟩ := List.mem_map.mp numbered
  exact ⟨entry.2, List.mem_map.mpr ⟨entry, listed, rfl⟩⟩

/-- The last staged row of a key is proposed, completed. -/
theorem lastOf_proposed {key : List V}
    (last : lastOf call.conflictCols staged key = some row) :
    ∃ at_, complete table (mergeOf table call) row at_ ∈
      proposed table (mergeOf table call) staged moment := by
  have kept : row ∈ distinctOn call.conflictCols (staged.filter (fun row =>
      (mergeOf table call).notNullKeys.all (fun name => (row name).isSome))) := by
    apply List.mem_of_find?_eq_some (p := hasKey call.conflictCols key)
    rw [find_distinctOn]
    exact (lastOf_filter (targetColumns table) call.conflictCols staged key).trans last
  exact proposed_of_selected ((List.perm_insertionSort _ _).mem_iff.mpr kept)

/-- After a call, the table holds at each key what the last staged row says, if there is one. -/
theorem look_call {nowIso : Str} {rows : List (Row V)} {merged : Merged V}
    (ran : copyAndMerge table coercion call nowIso moment rows = .ok merged)
    (noId : "id".str ∉ call.conflictCols) :
    ∃ staged, stage table coercion call nowIso moment = some staged ∧ ∀ key,
      Upsert.look (rules table (mergeOf table call)) merged.rows key =
        ((lastOf call.conflictCols staged key).map
          (valuesOf (mergeOf table call).distinctCols)).or
            (Upsert.look (rules table (mergeOf table call)) rows key) := by
  obtain ⟨-, ready, staged, staging, once, placed⟩ := copyAndMerge_ok.mp ran
  refine ⟨staged, staging, fun key => ?_⟩
  rw [Upsert.look_putAll (lawful table call) placed key, Upsert.written, Upsert.look]
  apply congrArg (fun held => Option.or held _)
  cases last : lastOf call.conflictCols staged key with
  | none =>
    have vacant : Upsert.find (rules table (mergeOf table call)) key (proposed table
        (mergeOf table call) staged (moment + call.records.length)).reverse = none := by
      rw [Upsert.find, List.find?_eq_none]
      intro new member
      obtain ⟨row, within, at_, rfl⟩ := mem_proposed (List.mem_reverse.mp member)
      have none_has := List.find?_eq_none.mp last row (List.mem_reverse.mpr within)
      rwa [← hasKey_complete ready noId key at_] at none_has
    rw [vacant]
    rfl
  | some row =>
    obtain ⟨at_, among⟩ := @lastOf_proposed V table call row _ staged
      (moment + call.records.length) key last
    have has : hasKey call.conflictCols key row = true := List.find?_some last
    have keyed : (rules table (mergeOf table call)).key
        (complete table (mergeOf table call) row at_) = some key := by
      rw [← hasKey_complete ready noId key at_] at has
      exact of_decide_eq_true has
    have different := of_decide_eq_true once
    have reversed : ((proposed table (mergeOf table call) staged
        (moment + call.records.length)).reverse.filterMap
          (rules table (mergeOf table call)).key).Nodup := by
      rw [List.filterMap_reverse, List.nodup_reverse]
      exact different
    rw [Upsert.find_of_nodup reversed (List.mem_reverse.mpr among) keyed, Option.map_some,
      Option.map_some]
    apply congrArg some
    exact List.map_congr_left fun name compared => complete_inserted (distinct_inserted compared)

/-! ## Stamps -/

/-- What stays true of the row of a key when it is settled with a row of this stamp is true after
the call. -/
theorem settles_call {nowIso : Str} {rows : List (Row V)} {merged : Merged V}
    (ran : copyAndMerge table coercion call nowIso moment rows = .ok merged) (key : List V)
    {P : Option (Row V) → Prop}
    (start : P (Upsert.find (rules table (mergeOf table call)) key rows))
    (step : ∀ new, (∀ entry ∈ call.stamp.entries,
        new entry.1 = textCell table entry.1 entry.2 moment) →
      ∀ old, P old → P (some (Upsert.settle (rules table (mergeOf table call)) old new))) :
    P (Upsert.find (rules table (mergeOf table call)) key merged.rows) := by
  obtain ⟨-, -, staged, staging, -, placed⟩ := copyAndMerge_ok.mp ran
  refine Upsert.find_putAll (lawful table call) placed key start fun new member _ old => ?_
  apply step
  intro entry stamped
  obtain ⟨null, text⟩ := proposed_stamp staging member stamped
  rw [textCell]
  split_ifs with token
  · exact null token
  · obtain ⟨v, value, here⟩ := text token
    rw [here, value]

/-! ## Batches -/

/-- The rules of a merge into the table with the natural key of its metadata. -/
def rulesOf (table : Table V) (tableMeta : TableMeta) :
    Upsert.Rules (Row V) (List V) (List (Option V)) :=
  rules table (buildMerge (targetColumns table) tableMeta.conflictCols)

/-- Batches are written one after the other, each at a moment of its own, and none fails. -/
inductive Written (table : Table V) (coercion : Coercion) (tableMeta : TableMeta)
    (req : WriteRequest) (times : Nat → Prop) :
    List (List Json) → List (Row V) → List (Row V) → Prop
  | nil (rows : List (Row V)) : Written table coercion tableMeta req times [] rows rows
  | cons {batch : List Json} {rest : List (List Json)} {nowIso : Str} {moment : Nat}
      {counts : Nat × Nat} {rows middle rows' : List (Row V)} (during : times moment)
      (first : writeRecords table coercion tableMeta (req.withRecords batch) nowIso moment rows =
        (.ok counts, middle))
      (others : Written table coercion tableMeta req times rest middle rows') :
      Written table coercion tableMeta req times (batch :: rest) rows rows'

/-- What is written at certain moments is written at any that include them. -/
theorem Written.mono {times' : Nat → Prop} (all : ∀ began, times began → times' began)
    {batches : List (List Json)} {rows rows' : List (Row V)}
    (written : Written table coercion tableMeta req times batches rows rows') :
    Written table coercion tableMeta req times' batches rows rows' := by
  induction written with
  | nil rows => exact .nil rows
  | cons during first _ inductionHypothesis => exact .cons (all _ during) first inductionHypothesis

/-- A batch that is written was empty, or merged. -/
theorem writeRecords_ok {nowIso : Str} {counts : Nat × Nat} {rows rows' : List (Row V)}
    (written : writeRecords table coercion tableMeta req nowIso moment rows =
      (.ok counts, rows')) :
    (req.records = [] ∧ rows' = rows) ∨ ∃ merged,
      copyAndMerge table coercion (req.call tableMeta) nowIso moment rows = .ok merged ∧
        rows' = merged.rows := by
  rw [writeRecords] at written
  split_ifs at written with empty unusable keyless
  · exact Or.inl ⟨List.isEmpty_iff.mp empty, (Prod.mk.inj written).2.symm⟩
  · cases (Prod.mk.inj written).1
  · cases (Prod.mk.inj written).1
  · split at written
    · rename_i merged ran
      exact Or.inr ⟨merged, ran, (Prod.mk.inj written).2.symm⟩
    · cases (Prod.mk.inj written).1
    · cases (Prod.mk.inj written).1

/-- A batch that fails leaves the rows as they are. -/
theorem writeRecords_error {nowIso : Str} {error : ApiError} {rows rows' : List (Row V)}
    (failed : writeRecords table coercion tableMeta req nowIso moment rows =
      (.error error, rows')) : rows' = rows := by
  rw [writeRecords] at failed
  split_ifs at failed
  · cases (Prod.mk.inj failed).1
  · exact (Prod.mk.inj failed).2.symm
  · exact (Prod.mk.inj failed).2.symm
  · split at failed
    · cases (Prod.mk.inj failed).1
    · exact (Prod.mk.inj failed).2.symm
    · exact (Prod.mk.inj failed).2.symm

/-- After all batches the table holds at each key what the last staged row of all says. -/
theorem look_written {batches : List (List Json)} {rows rows' : List (Row V)}
    (written : Written table coercion tableMeta req times batches rows rows')
    (noId : "id".str ∉ tableMeta.conflictCols) :
    ∃ staged,
      List.Forall₂ (StagedIn table coercion tableMeta req times batches) batches.flatten staged ∧
      ∀ key, Upsert.look (rulesOf table tableMeta) rows' key =
        ((lastOf tableMeta.conflictCols staged key).map
          (valuesOf (buildMerge (targetColumns table) tableMeta.conflictCols).distinctCols)).or
            (Upsert.look (rulesOf table tableMeta) rows key) := by
  induction written with
  | nil rows => exact ⟨[], .nil, fun key => rfl⟩
  | @cons batch rest nowIso moment counts rows middle rows' during first others
      inductionHypothesis =>
    obtain ⟨later, stagedLater, laterHolds⟩ := inductionHypothesis
    have one : ∃ staged, List.Forall₂
        (Stages table coercion tableMeta (req.withRecords batch) times) batch staged ∧ ∀ key,
        Upsert.look (rulesOf table tableMeta) middle key =
          ((lastOf tableMeta.conflictCols staged key).map
            (valuesOf (buildMerge (targetColumns table) tableMeta.conflictCols).distinctCols)).or
              (Upsert.look (rulesOf table tableMeta) rows key) := by
      rcases writeRecords_ok first with ⟨empty, rfl⟩ | ⟨merged, ran, rfl⟩
      · obtain rfl : batch = [] := empty
        exact ⟨[], .nil, fun key => rfl⟩
      · obtain ⟨staged, staging, holds⟩ := look_call ran noId
        exact ⟨staged, stage_rows during staging, holds⟩
    obtain ⟨staged, stagedFirst, holds⟩ := one
    refine ⟨staged ++ later, ?_, fun key => ?_⟩
    · rw [List.flatten_cons]
      have within : ∀ record ∈ batch, record ∈ batch := fun _ member => member
      refine List.rel_append ?_ ?_
      · refine ((List.forall₂_and_left _ _).mpr ⟨within, stagedFirst⟩).imp ?_
        rintro record row ⟨member, stages⟩
        exact ⟨batch, List.mem_cons_self, member, stages⟩
      · refine stagedLater.imp ?_
        rintro record row ⟨other, among, member, stages⟩
        exact ⟨other, List.mem_cons_of_mem _ among, member, stages⟩
    · rw [laterHolds, holds]
      simp only [lastOf, List.reverse_append, List.find?_append]
      cases later.reverse.find? (hasKey tableMeta.conflictCols key) with
      | none => rfl
      | some last => rfl

/-- What the table holds at a key in a column, if it has a row there. -/
def cellAt (cols : List Str) (rows : List (Row V)) (key : List V) (name : Str) :
    Option (Option V) :=
  (rows.find? (hasKey cols key)).map (fun row => row name)

/-- Rows of one key that agree in what is compared agree in every column of the data. -/
theorem map_of_compared {tableMeta : TableMeta} {key : List V} {first second : Option (Row V)}
    (keyed : ∀ row, first = some row → hasKey tableMeta.conflictCols key row = true)
    (keyed' : ∀ row, second = some row → hasKey tableMeta.conflictCols key row = true)
    (same : first.map (rulesOf table tableMeta).compared =
      second.map (rulesOf table tableMeta).compared) {name : Str}
    (data : name ∈ tableMeta.conflictCols ∨
      name ∈ (buildMerge (targetColumns table) tableMeta.conflictCols).distinctCols) :
    first.map (fun row => row name) = second.map (fun row => row name) := by
  cases first with
  | none =>
    cases second with
    | none => rfl
    | some row => cases same
  | some row =>
    cases second with
    | none => cases same
    | some row' =>
      apply congrArg some
      rcases data with key_col | compared
      · have alike := (valuesOf_eq_of_hasKey (keyed' row' rfl)).mpr (keyed row rfl)
        exact List.map_inj_left.mp alike name key_col
      · exact List.map_inj_left.mp (Option.some.inj same) name compared

/-- What the table holds after all batches, column by column. -/
theorem cellAt_written {batches : List (List Json)} {rows rows' : List (Row V)}
    (written : Written table coercion tableMeta req times batches rows rows')
    (noId : "id".str ∉ tableMeta.conflictCols) :
    ∃ staged,
      List.Forall₂ (StagedIn table coercion tableMeta req times batches) batches.flatten staged ∧
      ∀ key name, name ∈ tableMeta.conflictCols ∨
          name ∈ (buildMerge (targetColumns table) tableMeta.conflictCols).distinctCols →
        cellAt tableMeta.conflictCols rows' key name =
          ((lastOf tableMeta.conflictCols staged key).map (fun row => row name)).or
            (cellAt tableMeta.conflictCols rows key name) := by
  obtain ⟨staged, stages, holds⟩ := look_written written noId
  refine ⟨staged, stages, fun key name data => ?_⟩
  have here : (rows'.find? (hasKey tableMeta.conflictCols key)).map
      (rulesOf table tableMeta).compared = ((lastOf tableMeta.conflictCols staged key).or
        (rows.find? (hasKey tableMeta.conflictCols key))).map
          (rulesOf table tableMeta).compared := by
    rw [Option.map_or]
    exact holds key
  rw [cellAt, cellAt, ← Option.map_or]
  refine map_of_compared (fun row found => List.find?_some found) (fun row found => ?_) here data
  rcases Option.or_eq_some_iff.mp found with last | ⟨-, old⟩
  · exact List.find?_some last
  · exact List.find?_some old

/-- What stays true of the row of a key when it is settled with a row of this stamp is true after
all batches. -/
theorem settles_written {batches : List (List Json)} {rows rows' : List (Row V)}
    (written : Written table coercion tableMeta req times batches rows rows') (key : List V)
    {P : Option (Row V) → Prop} (start : P (rows.find? (hasKey tableMeta.conflictCols key)))
    (step : ∀ new began, times began → (∀ entry ∈ (req.call tableMeta).stamp.entries,
        new entry.1 = textCell table entry.1 entry.2 began) →
      ∀ old, P old → P (some (Upsert.settle (rulesOf table tableMeta) old new))) :
    P (rows'.find? (hasKey tableMeta.conflictCols key)) := by
  induction written with
  | nil rows => exact start
  | @cons batch rest nowIso moment counts rows middle rows' during first others
      inductionHypothesis =>
    apply inductionHypothesis
    rcases writeRecords_ok first with ⟨-, rfl⟩ | ⟨merged, ran, rfl⟩
    · exact start
    · exact settles_call ran key start (fun new => step new moment during)

/-- A row keeps the source that it was inserted with. -/
theorem source_written {batches : List (List Json)} {rows rows' : List (Row V)}
    (written : Written table coercion tableMeta req times batches rows rows') (key : List V)
    {value : Option V}
    (alike : ∀ began, times began → textCell table "source".str req.source began = value) :
    cellAt tableMeta.conflictCols rows' key "source".str =
      (cellAt tableMeta.conflictCols rows key "source".str).or
        ((rows'.find? (hasKey tableMeta.conflictCols key)).map (fun _ => value)) := by
  refine settles_written written key (P := fun row => row.map (fun r => r "source".str) =
    (cellAt tableMeta.conflictCols rows key "source".str).or
      (row.map (fun _ => value))) ?_ ?_
  · rw [cellAt]
    cases rows.find? (hasKey tableMeta.conflictCols key) with
    | none => rfl
    | some old => rfl
  · intro new began during stamped old held
    have stamp : new "source".str = value :=
      (stamped ("source".str, req.source) List.mem_cons_self).trans (alike began during)
    cases old with
    | none =>
      rw [Option.map_none, Option.map_none, Option.or_none] at held
      rw [← held, Option.none_or]
      exact congrArg some stamp
    | some row =>
      have kept : (Upsert.settle (rulesOf table tableMeta) (some row) new) "source".str =
          row "source".str := by
        rw [Upsert.settle]
        split_ifs
        · rfl
        · have notSet : (buildMerge (targetColumns table)
              tableMeta.conflictCols).updateTargets.contains "source".str = false := by
            rw [← Bool.not_eq_true, List.contains_iff_mem]
            exact @source_not_updated V table (req.call tableMeta)
          simp only [rulesOf, rules, notSet, Bool.false_eq_true, if_false]
      rw [Option.map_some, kept]
      exact held

/-- The endpoint and the run are those of the batches wherever a row was written. -/
theorem refreshed_written {batches : List (List Json)} {rows rows' : List (Row V)}
    (written : Written table coercion tableMeta req times batches rows rows') (key : List V)
    {entry : Str × Str} (stamped : entry ∈ (req.call tableMeta).stamp.entries) {value : Option V}
    (alike : ∀ began, times began → textCell table entry.1 entry.2 began = value)
    (set : entry.1 ∈ (buildMerge (targetColumns table) tableMeta.conflictCols).updateTargets) :
    rows'.find? (hasKey tableMeta.conflictCols key) =
        rows.find? (hasKey tableMeta.conflictCols key) ∨
      cellAt tableMeta.conflictCols rows' key entry.1 = some value := by
  refine settles_written written key (P := fun row =>
    row = rows.find? (hasKey tableMeta.conflictCols key) ∨
      row.map (fun r => r entry.1) = some value) (Or.inl rfl) ?_
  intro new began during stamps old held
  have stamp := (stamps entry stamped).trans (alike began during)
  cases old with
  | none => exact Or.inr (congrArg some stamp)
  | some row =>
    rw [Upsert.settle]
    split_ifs
    · exact held
    · right
      have updated : (rulesOf table tableMeta).update row new entry.1 = new entry.1 := by
        simp only [rulesOf, rules]
        rw [if_pos (List.contains_iff_mem.mpr set)]
      rw [Option.map_some, updated, stamp]

/-- A row without a full key stays as it is. -/
theorem keyless_written {batches : List (List Json)} {rows rows' : List (Row V)}
    (written : Written table coercion tableMeta req times batches rows rows') {row : Row V}
    (member : row ∈ rows) (keyless : keyOf tableMeta.conflictCols row = none) : row ∈ rows' := by
  induction written with
  | nil rows => exact member
  | cons during first others inductionHypothesis =>
    apply inductionHypothesis
    rcases writeRecords_ok first with ⟨-, rfl⟩ | ⟨merged, ran, rfl⟩
    · exact member
    · obtain ⟨-, -, staged, -, -, placed⟩ := copyAndMerge_ok.mp ran
      refine Upsert.mem_putAll placed member fun new _ key _ has => ?_
      exact Option.some_ne_none key (has.symm.trans keyless)

/-- Of no records at all nothing is written. -/
theorem written_flatten_nil {rows rows' : List (Row V)}
    (written : Written table coercion tableMeta req times [List.flatten []] rows rows') :
    rows' = rows := by
  cases written with
  | cons during first others =>
    cases others
    have empty : (req.withRecords (List.flatten [])).records.isEmpty = true := rfl
    rw [writeRecords, if_pos empty] at first
    exact (Prod.mk.inj first).2.symm

/-! ## Two ways to write a list -/

/-- Rows that are alike one by one have their keys and values in the same places. -/
theorem lastOf_alike {T : Type} {cols : List Str} {key : List V} {value : Row V → T}
    {first second : List (Row V)}
    (alike : List.Forall₂ (fun row row' => hasKey cols key row = hasKey cols key row' ∧
      value row = value row') first second) :
    (lastOf cols first key).map value = (lastOf cols second key).map value := by
  rw [lastOf, lastOf]
  have reversed := List.forall₂_reverse_iff.mpr alike
  generalize first.reverse = rows, second.reverse = rows' at reversed
  induction reversed with
  | nil => rfl
  | cons here _ inductionHypothesis =>
    rw [List.find?_cons, List.find?_cons, ← here.1]
    split
    · exact congrArg some here.2
    · exact inductionHypothesis

section TwoWays

variable {batches : List (List Json)} {rows rows₁ rows₂ : List (Row V)}

variable (once : Written table coercion tableMeta req times [batches.flatten] rows rows₁)
  (cut : Written table coercion tableMeta req times batches rows rows₂)
  (noId : "id".str ∉ tableMeta.conflictCols)
  (keyAlike : ∀ name ∈ tableMeta.conflictCols, ∀ batch ∈ batches,
    StagedAlike table coercion tableMeta req times batches.flatten batch name)

include once cut noId keyAlike

/-- Both ways the table holds the same in every data column that all batches stage alike. -/
theorem cells_alike (key : List V) {name : Str}
    (data : name ∈ tableMeta.conflictCols ∨
      name ∈ (buildMerge (targetColumns table) tableMeta.conflictCols).distinctCols)
    (alike : ∀ batch ∈ batches,
      StagedAlike table coercion tableMeta req times batches.flatten batch name) :
    cellAt tableMeta.conflictCols rows₁ key name =
      cellAt tableMeta.conflictCols rows₂ key name := by
  obtain ⟨first, stagesFirst, holdsFirst⟩ := cellAt_written once noId
  obtain ⟨second, stagesSecond, holdsSecond⟩ := cellAt_written cut noId
  rw [List.flatten_singleton] at stagesFirst
  rw [holdsFirst key name data, holdsSecond key name data]
  apply congrArg (fun last => Option.or last _)
  refine lastOf_alike ((staged_pairs stagesFirst stagesSecond).imp fun row row' same => ?_)
  exact ⟨hasKey_congr fun other keyed => same other (keyAlike other keyed), same name alike⟩

/-- Both ways the same keys have a row. -/
theorem rows_alike (key : List V) :
    (rows₁.find? (hasKey tableMeta.conflictCols key)).isSome =
      (rows₂.find? (hasKey tableMeta.conflictCols key)).isSome := by
  obtain ⟨first, stagesFirst, holdsFirst⟩ := look_written once noId
  obtain ⟨second, stagesSecond, holdsSecond⟩ := look_written cut noId
  rw [List.flatten_singleton] at stagesFirst
  have last : (lastOf tableMeta.conflictCols first key).map (fun _ => ()) =
      (lastOf tableMeta.conflictCols second key).map (fun _ => ()) := by
    refine lastOf_alike ((staged_pairs stagesFirst stagesSecond).imp fun row row' same => ?_)
    exact ⟨hasKey_congr fun other keyed => same other (keyAlike other keyed), rfl⟩
  have there := congrArg Option.isSome last
  rw [Option.isSome_map, Option.isSome_map] at there
  have left := congrArg Option.isSome (holdsFirst key)
  have right := congrArg Option.isSome (holdsSecond key)
  rw [Upsert.look, Upsert.look, Option.isSome_map, Option.isSome_or, Option.isSome_map,
    Option.isSome_map] at left right
  exact left.trans (by rw [there]; exact right.symm)

omit noId keyAlike in
/-- A part of the stamp that all batches stage alike is read alike, unless nothing is written. -/
theorem stamp_alike {entry : Str × Str} (stamped : entry ∈ (req.call tableMeta).stamp.entries)
    (alike : ∀ batch ∈ batches,
      StagedAlike table coercion tableMeta req times batches.flatten batch entry.1) :
    ReadsAlike table times entry.1 entry.2 ∨ rows₁ = rows ∧ rows₂ = rows := by
  cases batches with
  | nil =>
    cases cut
    exact Or.inr ⟨written_flatten_nil once, rfl⟩
  | cons batch rest =>
    left
    have listed : entry.1 ∈ ["source".str, "source_endpoint".str, "source_run_id".str] :=
      List.mem_map_of_mem stamped
    rcases alike batch List.mem_cons_self with ⟨usable, -⟩ | ⟨other, among, same, reads⟩ |
      ⟨-, noStamp, -⟩
    · exact absurd usable (stamp_unusable stamped _)
    · have distinct : ((req.call tableMeta).stamp.entries.map Prod.fst).Nodup :=
        (by decide : ["source".str, "source_endpoint".str, "source_run_id".str].Nodup)
      rwa [List.inj_on_of_nodup_map distinct among stamped same] at reads
    · exact absurd (List.mem_append_left ["ingest_ts".str] listed) noStamp

/-- Both ways every row has the same source, where it is read alike. -/
theorem sources_alike (key : List V) (alike : ∀ batch ∈ batches,
      StagedAlike table coercion tableMeta req times batches.flatten batch "source".str) :
    cellAt tableMeta.conflictCols rows₁ key "source".str =
      cellAt tableMeta.conflictCols rows₂ key "source".str := by
  have source : ("source".str, req.source) ∈ (req.call tableMeta).stamp.entries :=
    List.mem_cons_self
  rcases stamp_alike once cut source alike with ⟨value, reads⟩ | ⟨rfl, rfl⟩
  rotate_left
  · rfl
  have present := rows_alike once cut noId keyAlike key
  rw [source_written once key reads, source_written cut key reads]
  apply congrArg
  cases found : rows₁.find? (hasKey tableMeta.conflictCols key) with
  | none =>
    rw [found, Option.isSome_none, eq_comm, Option.isSome_eq_false_iff,
      Option.isNone_iff_eq_none] at present
    rw [present]
  | some row =>
    rw [found, Option.isSome_some, eq_comm, Option.isSome_iff_exists] at present
    obtain ⟨row', found'⟩ := present
    rw [found']
    rfl

/-- Both ways the table holds the same data at a key, where all batches stage the data alike. -/
theorem look_alike
    (dataAlike : ∀ name ∈ (buildMerge (targetColumns table) tableMeta.conflictCols).distinctCols,
      ∀ batch ∈ batches, StagedAlike table coercion tableMeta req times batches.flatten batch name)
    (key : List V) :
    Upsert.look (rulesOf table tableMeta) rows₁ key =
      Upsert.look (rulesOf table tableMeta) rows₂ key := by
  obtain ⟨first, stagesFirst, holdsFirst⟩ := look_written once noId
  obtain ⟨second, stagesSecond, holdsSecond⟩ := look_written cut noId
  rw [List.flatten_singleton] at stagesFirst
  rw [holdsFirst, holdsSecond]
  apply congrArg (fun last => Option.or last _)
  refine lastOf_alike ((staged_pairs stagesFirst stagesSecond).imp fun row row' same => ?_)
  exact ⟨hasKey_congr fun other keyed => same other (keyAlike other keyed),
    List.map_congr_left fun other compared => same other (dataAlike other compared)⟩

/-- Where the data of a key has changed, the row has the endpoint and the run of the list, both
ways, where these are read alike. -/
theorem stamps_alike
    (dataAlike : ∀ name ∈ (buildMerge (targetColumns table) tableMeta.conflictCols).distinctCols,
      ∀ batch ∈ batches, StagedAlike table coercion tableMeta req times batches.flatten batch name)
    {key : List V} {name : Str} (data : name ∈ tableMeta.conflictCols ∨
      name ∈ (buildMerge (targetColumns table) tableMeta.conflictCols).distinctCols)
    (changed : cellAt tableMeta.conflictCols rows₁ key name ≠
      cellAt tableMeta.conflictCols rows key name) {entry : Str × Str}
    (stamped : entry ∈ (req.call tableMeta).stamp.entries)
    (alike : ∀ batch ∈ batches,
      StagedAlike table coercion tableMeta req times batches.flatten batch entry.1)
    (set : entry.1 ∈ (buildMerge (targetColumns table) tableMeta.conflictCols).updateTargets) :
    cellAt tableMeta.conflictCols rows₁ key entry.1 =
      cellAt tableMeta.conflictCols rows₂ key entry.1 := by
  have held : cellAt tableMeta.conflictCols rows₁ key name =
      cellAt tableMeta.conflictCols rows₂ key name :=
    map_of_compared (fun _ found => List.find?_some found) (fun _ found => List.find?_some found)
      (look_alike once cut noId keyAlike dataAlike key) data
  rcases stamp_alike once cut stamped alike with ⟨value, reads⟩ | ⟨rfl, rfl⟩
  rotate_left
  · rfl
  rcases refreshed_written once key stamped reads set with same | first
  · exact absurd (congrArg (Option.map (fun row : Row V => row name)) same) changed
  · rcases refreshed_written cut key stamped reads set with same | second
    · have untouched := congrArg (Option.map (fun row : Row V => row name)) same
      exact absurd (held.trans untouched) changed
    · rw [first, second]

end TwoWays

end LumidPlatform.Write.Engine
