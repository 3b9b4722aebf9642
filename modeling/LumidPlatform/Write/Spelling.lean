import LumidPlatform.Write.Engine

/-!
# Names in the statements of the merge

The statements of the merge are texts, with the names of the schema, the table and its columns
put in as they are. Postgres reads such a name as an identifier without quotes: it folds it to
lower case, and refuses a reserved word in most places. So a statement may be about another
table or column than the one whose name was put in, and the columns that are listed in it are
those of the table that was looked up.
-/

namespace LumidPlatform.Write.Spelling

open Engine

/-! ## Identifiers -/

/-- The words that the merge itself puts in as names of columns. -/
def ownWords : List Str :=
  ["source".str, "source_endpoint".str, "source_run_id".str, "ingest_ts".str, "raw".str,
    "payload".str, "id".str]

/-- The words that Postgres refuses as a column or a schema. -/
structure Keywords where
  reserved : Str → Bool
  own_free : ∀ word ∈ ownWords, reserved word = false

def isIdentStart (c : Char) : Bool := Text.isAsciiAlphabetic c || c == '_' || 128 ≤ c.toNat

/-- The text of a name is one identifier without quotes. -/
def isUnquoted (name : Str) : Bool :=
  name.head?.any isIdentStart &&
    name.all (fun c => isIdentStart c || Text.isAsciiDigit c || c == '$')

variable (keywords : Keywords)

/-- The column or schema that Postgres reads. What it makes of other texts is left open. Names of a
catalog have at most 63 bytes, so that nothing is cut off. -/
def readColumn (name : Str) : Option Str :=
  if isUnquoted name && !keywords.reserved (Text.toAsciiLowercase name) then
    some (Text.toAsciiLowercase name)
  else none

/-- The table that Postgres reads. After a dot any word may stand. -/
def readTarget (name : Str × Str) : Option (Str × Str) :=
  match readColumn keywords name.1 with
  | some schema => if isUnquoted name.2 then some (schema, Text.toAsciiLowercase name.2) else none
  | none => none

/-! ## The statements as they are read -/

variable {V : Type}

/-- The staging table: a clone of what the statement names, without the columns that are dropped. -/
def tmpColumns (target : Table V) (dropped : List Str) : List ColumnInfo :=
  (target.columns.filter (fun column => !dropped.contains column.name)).map
    TableColumn.toColumnInfo

/-- One line of the `COPY` into a staging table with these columns. -/
def copyRowInto (target : Table V) (tmp : List ColumnInfo) (names fields : List Str)
    (began moment : Nat) : Option (Row V) :=
  let value (column : ColumnInfo) : Option (Option V) :=
    copyValue target ((names.zip fields).lookup column.name) column began moment
  if tmp.all (fun column => (value column).any (fun v => v.isSome || column.isNullable)) then
    some (fun name =>
      (tmp.find? (fun column => column.name == name)).bind (fun column => (value column).join))
  else none

/-- All lines of the `COPY` into it; the moment moves on with each. -/
def copyRowsInto (target : Table V) (tmp : List ColumnInfo) (names : List Str) (began : Nat) :
    Nat → List (List Str) → Option (List (Row V))
  | _, [] => some []
  | moment, fields :: rest =>
    match copyRowInto target tmp names fields began moment,
        copyRowsInto target tmp names began (moment + 1) rest with
    | some row, some rows => some (row :: rows)
    | _, _ => none

def copiesInto (tmp : List ColumnInfo) (names : List Str) : Bool :=
  decide names.Nodup && names.all (fun name => tmp.any (fun column => column.name == name))

/-- The columns in the parts of the merge statement, as they are read. -/
def readMerge (merge : Merge) : Option Merge := do
  let updateTargets ← merge.updateTargets.mapM (readColumn keywords)
  let distinctCols ← merge.distinctCols.mapM (readColumn keywords)
  let insertCols ← merge.insertCols.mapM (readColumn keywords)
  let conflictCols ← merge.conflictCols.mapM (readColumn keywords)
  let notNullKeys ← merge.notNullKeys.mapM (readColumn keywords)
  return ⟨updateTargets, distinctCols, insertCols, conflictCols, notNullKeys⟩

/-- The statement names columns of the staging table, each once to insert, and its key is that of
a constraint of its target. -/
def preparesInto (target : Table V) (tmp : List ColumnInfo) (merge : Merge) : Bool :=
  decide merge.insertCols.Nodup && !merge.conflictCols.isEmpty && !merge.updateTargets.isEmpty &&
    (merge.conflictCols ++ merge.insertCols).all (fun name =>
      tmp.any (fun column => column.name == name)) &&
    target.uniques.any (fun unique =>
      unique.all merge.conflictCols.contains && merge.conflictCols.all unique.contains)

section

variable [DecidableEq V]

/-- `merge`, on the staged rows and the rows of its target. -/
def mergeInto (target : Table V) (tmp : List ColumnInfo) (merge : Merge)
    (staged rows : List (Row V)) (moment : Nat) : Except MergeError (Merged V) :=
  if preparesInto target tmp merge && affectsOnce merge (proposed target merge staged moment) then
    match Upsert.putAll (rules target merge) (proposed target merge staged moment) rows with
    | some (rows, outcomes) => .ok ⟨rows, outcomes⟩
    | none => .error .refused
  else .error .refused

/-- The statements of `copy_and_merge` for a table that was looked up, on the target that they
name. -/
def sentTo (table target : Table V) (coercion : Coercion) (call : Call) (nowIso : Str)
    (moment : Nat) (rows : List (Row V)) : Except MergeError (Merged V) :=
  match (generatedColumns table).mapM (readColumn keywords),
      (fullCols table call).mapM (readColumn keywords),
      readMerge keywords (mergeOf table call) with
  | some dropped, some names, some merge =>
    let tmp := tmpColumns target dropped
    if copiesInto tmp names then
      match copyRowsInto target tmp names moment moment (buildCsv coercion (dtypeOf table) call
          (if hasIngestTs table then some nowIso else none)) with
      | some staged => mergeInto target tmp merge staged rows (moment + call.records.length)
      | none => .error .refused
    else .error .refused
  | _, _, _ => .error .refused

/-- `copy_and_merge`, with the table that it writes to. -/
def copyAndMergeSent (tables : Str × Str → Option (Table V)) (name : Str × Str)
    (coercion : Coercion) (call : Call) (nowIso : Str) (moment : Nat)
    (rows : Str × Str → List (Row V)) : Except MergeError ((Str × Str) × Merged V) :=
  match tables name with
  | none => .error (.noColumns name.1 name.2)
  | some table =>
    if (targetColumns table).isEmpty then .error (.noColumns name.1 name.2)
    else
      match readTarget keywords name with
      | none => .error .refused
      | some read =>
        match tables read with
        | none => .error .refused
        | some target =>
          match sentTo keywords table target coercion call nowIso moment (rows read) with
          | .ok merged => .ok (read, merged)
          | .error error => .error error

/-- `PostgresBackend::write_records`, on the rows of all tables. -/
def writeRecordsSent (tables : Str × Str → Option (Table V)) (name : Str × Str)
    (coercion : Coercion) (tableMeta : TableMeta) (req : WriteRequest) (nowIso : Str)
    (moment : Nat) (rows : Str × Str → List (Row V)) :
    ApiResult (Nat × Nat) × (Str × Str → List (Row V)) :=
  if req.records.isEmpty then (.ok (0, 0), rows)
  else if (usableCols tableMeta req.records).isEmpty then
    (.error (.internal ("no usable columns after intersection with ".str ++ name.1 ++
      '.' :: name.2)), rows)
  else if tableMeta.conflictCols.isEmpty then
    (.error (.internal (name.1 ++ '.' :: name.2 ++
      " has no UNIQUE/PRIMARY KEY — refusing to upsert".str)), rows)
  else
    match copyAndMergeSent keywords tables name coercion (req.call tableMeta) nowIso moment rows with
    | .ok (read, merged) =>
      (.ok (merged.inserted, merged.updated), Function.update rows read merged.rows)
    | .error (.noColumns schema table) =>
      (.error (.internal ("no columns found for ".str ++ schema ++ '.' :: table)), rows)
    | .error .refused => (.error (.internal "db error".str), rows)

end

/-! ## Reading a name -/

theorem toAsciiLowercase_self {s : Str} (low : ∀ c ∈ s, Text.isAsciiUpper c = false) :
    Text.toAsciiLowercase s = s := by
  rw [Text.toAsciiLowercase]
  refine (List.map_congr_left (fun c member => ?_)).trans (List.map_id s)
  simp [Text.asciiLower, low c member]

/-- Nothing that was folded is upper case. -/
theorem asciiLower_low (c : Char) : Text.isAsciiUpper (Text.asciiLower c) = false := by
  by_cases capital : Text.isAsciiUpper c = true
  · have small := Text.asciiLower_upper capital
    simp only [Text.isAsciiLower, Bool.and_eq_true, decide_eq_true_eq] at small
    simp only [Text.isAsciiUpper, Bool.and_eq_false_iff, decide_eq_false_iff_not]
    omega
  · rw [Text.asciiLower, if_neg capital]
    simpa using capital

theorem toAsciiLowercase_idem (s : Str) :
    Text.toAsciiLowercase (Text.toAsciiLowercase s) = Text.toAsciiLowercase s := by
  refine toAsciiLowercase_self (fun c member => ?_)
  obtain ⟨original, -, rfl⟩ := List.mem_map.mp member
  exact asciiLower_low original

theorem isIdentStart_lower {c : Char} (start : isIdentStart c = true) :
    isIdentStart (Text.asciiLower c) = true := by
  by_cases capital : Text.isAsciiUpper c = true
  · rw [isIdentStart, Text.isAsciiAlphabetic, Text.asciiLower_upper capital]
    simp
  · rwa [Text.asciiLower, if_neg capital]

theorem isUnquoted_lower {name : Str} (plain : isUnquoted name = true) :
    isUnquoted (Text.toAsciiLowercase name) = true := by
  rw [isUnquoted, Bool.and_eq_true, List.all_eq_true] at plain ⊢
  refine ⟨?_, fun c member => ?_⟩
  · cases name with
    | nil => exact plain.1
    | cons first rest => exact isIdentStart_lower plain.1
  · obtain ⟨original, inside, rfl⟩ := List.mem_map.mp member
    have allowed := plain.2 original inside
    by_cases capital : Text.isAsciiUpper original = true
    · have start : isIdentStart (Text.asciiLower original) = true := by
        refine isIdentStart_lower ?_
        rw [isIdentStart, Text.isAsciiAlphabetic, capital]
        rfl
      simp only [start, Bool.true_or]
    · rw [Text.asciiLower, if_neg capital]
      exact allowed

/-- What was read is read as itself. -/
theorem readColumn_read {keywords : Keywords} {name read : Str}
    (reads : readColumn keywords name = some read) : readColumn keywords read = some read := by
  rw [readColumn] at reads
  split_ifs at reads with plain
  obtain rfl := Option.some.inj reads
  rw [Bool.and_eq_true] at plain
  rw [readColumn, toAsciiLowercase_idem, isUnquoted_lower plain.1, plain.2]
  rfl

/-- The words of the merge are read as they are. -/
theorem readColumn_own {keywords : Keywords} {word : Str} (own : word ∈ ownWords) :
    readColumn keywords word = some word := by
  have plain : ∀ word ∈ ownWords, isUnquoted word = true ∧ Text.toAsciiLowercase word = word := by
    decide
  obtain ⟨unquoted, low⟩ := plain word own
  rw [readColumn, unquoted, low, keywords.own_free word own]
  rfl

/-- Names that are all read are read one by one. -/
theorem mapM_read {read : Str → Option Str} {names found : List Str}
    (reads : names.mapM read = some found) :
    found = names.map (fun name => (read name).getD []) ∧
      ∀ name ∈ names, read name = some ((read name).getD []) := by
  induction names generalizing found with
  | nil =>
    obtain rfl := Option.some.inj reads
    exact ⟨rfl, fun name member => by cases member⟩
  | cons first rest inductionHypothesis =>
    rw [List.mapM_cons] at reads
    obtain ⟨head, one, more⟩ := Option.bind_eq_some_iff.mp reads
    obtain ⟨tail, others, same⟩ := Option.bind_eq_some_iff.mp more
    obtain rfl := Option.some.inj same
    obtain ⟨rfl, later⟩ := inductionHypothesis others
    rw [List.map_cons, one, List.forall_mem_cons, one]
    exact ⟨rfl, rfl, later⟩

theorem mapM_self {read : Str → Option Str} {names : List Str}
    (self : ∀ name ∈ names, read name = some name) : names.mapM read = some names := by
  induction names with
  | nil => rfl
  | cons first rest inductionHypothesis =>
    rw [List.forall_mem_cons] at self
    rw [List.mapM_cons, self.1, inductionHypothesis self.2]
    rfl

/-! ## Statements that name what was looked up -/

/-- The columns of a table are identifiers. Those that are dropped from the staging table are read
as themselves, and no other column as `id`. -/
structure Spelled (keywords : Keywords) (table : Table V) : Prop where
  unquoted : ∀ column ∈ table.columns, isUnquoted column.name = true
  dropped : ∀ name ∈ generatedColumns table, readColumn keywords name = some name
  noId : ∀ column ∈ targetColumns table,
    readColumn keywords column.name = some "id".str → column.name = "id".str

/-- The columns that a call lists, as `write_records` chooses them. -/
structure Chosen (table : Table V) (call : Call) : Prop where
  cols : ∀ name ∈ call.cols, name ∈ (targetColumns table).map ColumnInfo.name ∧ name ≠ "id".str
  keys : ∀ name ∈ call.conflictCols, name ∈ table.columns.map (fun column => column.name)

variable {keywords : Keywords} {table : Table V} {call : Call}

theorem mem_insertCols {name : Str} : name ∈ (mergeOf table call).insertCols ↔
    name ∈ (targetColumns table).map ColumnInfo.name ∧ name ≠ "id".str := by
  rw [mergeOf, buildMerge, List.mem_filter, bne_iff_ne]

/-- A column is a target of the merge, or is dropped from the staging table. -/
theorem target_or_dropped {name : Str}
    (known : name ∈ table.columns.map (fun column => column.name)) :
    name ∈ (targetColumns table).map ColumnInfo.name ∨ name ∈ generatedColumns table := by
  obtain ⟨column, member, rfl⟩ := List.mem_map.mp known
  by_cases left : (column.isGenerated || column.identityGeneration.isSome) = true
  · right
    exact List.mem_map.mpr ⟨column, List.mem_filter.mpr ⟨member, left⟩, rfl⟩
  · left
    rw [Bool.or_eq_true, not_or, Bool.not_eq_true, Bool.not_eq_true, Option.isSome_eq_false_iff,
      Option.isNone_iff_eq_none] at left
    refine List.mem_map.mpr ⟨column.toColumnInfo, List.mem_map.mpr ⟨column, ?_, rfl⟩, rfl⟩
    exact List.mem_filter.mpr ⟨member, by simp [left.1, left.2]⟩

/-- Where the staging table has what is inserted, each once, the names are read as themselves. -/
theorem insertCols_self (spelled : Spelled keywords table) {inserted : List Str}
    (reads : (mergeOf table call).insertCols.mapM (readColumn keywords) = some inserted)
    (once : inserted.Nodup)
    (there : ∀ name ∈ inserted, name ∈ (stagedColumns table).map ColumnInfo.name) :
    ∀ name ∈ (mergeOf table call).insertCols, readColumn keywords name = some name := by
  intro name member
  obtain ⟨rfl, all⟩ := mapM_read reads
  have one := all name member
  generalize readEq : (readColumn keywords name).getD [] = read at one
  have again := readColumn_read one
  have inList : read ∈ (mergeOf table call).insertCols.map
      (fun name => (readColumn keywords name).getD []) := List.mem_map.mpr ⟨name, member, readEq⟩
  -- what was read is staged, so it is a column that the merge inserts as well
  have staged := there read inList
  have kept : read ∈ (targetColumns table).map ColumnInfo.name := by
    obtain ⟨column, inside, rfl⟩ := List.mem_map.mp staged
    obtain ⟨original, inTable, rfl⟩ := List.mem_map.mp inside
    obtain ⟨member', free⟩ := List.mem_filter.mp inTable
    rcases target_or_dropped (List.mem_map.mpr ⟨original, member', rfl⟩) with target | dropped
    · exact target
    · exact absurd dropped (by simpa using free)
  obtain ⟨inTarget, notId⟩ := mem_insertCols.mp member
  have alsoInserted : read ∈ (mergeOf table call).insertCols := by
    refine mem_insertCols.mpr ⟨kept, ?_⟩
    rintro rfl
    obtain ⟨column, inside, rfl⟩ := List.mem_map.mp inTarget
    exact notId (spelled.noId column inside one)
  have same : name = read := by
    refine List.inj_on_of_nodup_map once member alsoInserted ?_
    rw [readEq, again]
    rfl
  rw [one, ← same]

theorem updateTargets_inserted {name : Str} (set : name ∈ (mergeOf table call).updateTargets) :
    name ∈ (mergeOf table call).insertCols := by
  rw [mem_insertCols]
  simp only [mergeOf, buildMerge, List.mem_append, List.mem_filter] at set
  rcases set with (⟨flat, free⟩ | ⟨refresh, there⟩) | payload
  · refine ⟨flat, ?_⟩
    rintro rfl
    rw [Bool.and_eq_true] at free
    exact absurd free.2 (by decide)
  · refine ⟨List.contains_iff_mem.mp there, ?_⟩
    rintro rfl
    exact absurd refresh (by decide)
  · split_ifs at payload with there
    · rw [List.mem_singleton.mp payload]
      exact ⟨List.contains_iff_mem.mp there, by decide⟩
    · cases payload

/-- Copied into the clone of the table itself, the lines are the staged rows. -/
theorem copyRowsInto_staged (names : List Str) (began moment : Nat) (lines : List (List Str)) :
    copyRowsInto table (stagedColumns table) names began moment lines =
      copyRows table names began moment lines := by
  induction lines generalizing moment with
  | nil => rfl
  | cons fields rest inductionHypothesis =>
    rw [copyRowsInto, copyRows, inductionHypothesis]
    rfl

/-- Statements that go through, on the table that was looked up, are read as they are meant. -/
theorem reads_self (spelled : Spelled keywords table) (chosen : Chosen table call)
    {names : List Str} {read : Merge}
    (namesEq : (fullCols table call).mapM (readColumn keywords) = some names)
    (readEq : readMerge keywords (mergeOf table call) = some read)
    (ready : preparesInto table (stagedColumns table) read = true) :
    names = fullCols table call ∧ read = mergeOf table call := by
  rw [readMerge] at readEq
  obtain ⟨updates, updatesEq, readEq⟩ := Option.bind_eq_some_iff.mp readEq
  obtain ⟨distincts, distinctsEq, readEq⟩ := Option.bind_eq_some_iff.mp readEq
  obtain ⟨inserted, insertedEq, readEq⟩ := Option.bind_eq_some_iff.mp readEq
  obtain ⟨conflicts, conflictsEq, readEq⟩ := Option.bind_eq_some_iff.mp readEq
  obtain ⟨notNulls, notNullsEq, readEq⟩ := Option.bind_eq_some_iff.mp readEq
  obtain rfl := Option.some.inj readEq
  simp only [preparesInto, Bool.and_eq_true, decide_eq_true_eq, List.all_eq_true, List.any_eq_true,
    beq_iff_eq] at ready
  obtain ⟨⟨⟨⟨once, -⟩, -⟩, there⟩, -⟩ := ready
  have self := insertCols_self spelled insertedEq once (fun name member => by
    obtain ⟨column, inside, rfl⟩ := there name (List.mem_append_right _ member)
    exact List.mem_map_of_mem inside)
  have listed : ∀ name ∈ fullCols table call, readColumn keywords name = some name := by
    intro name member
    rw [fullCols, List.append_assoc] at member
    rcases List.mem_append.mp member with payload | stamp
    · obtain ⟨target, notId⟩ := chosen.cols name payload
      exact self name (mem_insertCols.mpr ⟨target, notId⟩)
    · refine readColumn_own ?_
      rcases List.mem_append.mp stamp with triplet | time
      · exact (List.subset_def.mp (by decide)) triplet
      · split_ifs at time
        · rw [List.mem_singleton.mp time]
          decide
        · cases time
  have conflictSelf : ∀ name ∈ (mergeOf table call).conflictCols,
      readColumn keywords name = some name := by
    intro name member
    rcases target_or_dropped (chosen.keys name member) with target | dropped
    · by_cases isId : name = "id".str
      · rw [isId]
        exact readColumn_own (by decide)
      · exact self name (mem_insertCols.mpr ⟨target, isId⟩)
    · exact spelled.dropped name dropped
  have updateSelf : ∀ name ∈ (mergeOf table call).updateTargets,
      readColumn keywords name = some name := fun name member =>
    self name (updateTargets_inserted member)
  have distinctSelf : ∀ name ∈ (mergeOf table call).distinctCols,
      readColumn keywords name = some name := fun name member =>
    updateSelf name (distinctCols_subset member)
  have notNullSelf : ∀ name ∈ (mergeOf table call).notNullKeys,
      readColumn keywords name = some name := fun name member =>
    conflictSelf name (List.mem_of_mem_filter member)
  rw [mapM_self listed] at namesEq
  rw [mapM_self updateSelf] at updatesEq
  rw [mapM_self distinctSelf] at distinctsEq
  rw [mapM_self self] at insertedEq
  rw [mapM_self conflictSelf] at conflictsEq
  rw [mapM_self notNullSelf] at notNullsEq
  refine ⟨(Option.some.inj namesEq).symm, ?_⟩
  rw [← Option.some.inj updatesEq, ← Option.some.inj distinctsEq, ← Option.some.inj insertedEq,
    ← Option.some.inj conflictsEq, ← Option.some.inj notNullsEq]

/-- A name as it was looked up: an identifier that is read as itself, or as that of no table, with
columns that are spelled out. -/
structure SpelledName (keywords : Keywords) (tables : Str × Str → Option (Table V))
    (name : Str × Str) : Prop where
  unquoted : isUnquoted name.1 = true ∧ isUnquoted name.2 = true
  read : ∀ read, readTarget keywords name = some read → read = name ∨ tables read = none
  columns : ∀ table, tables name = some table → Spelled keywords table

/-- What was looked up for a table: its columns, and a key of some of them. -/
def LookedUp (table : Table V) (tableMeta : TableMeta) : Prop :=
  ∃ conflictCols, tableMeta = metaOf table conflictCols ∧
    ∀ name ∈ conflictCols, name ∈ table.columns.map (fun column => column.name)

theorem LookedUp.chosen {tableMeta : TableMeta} (known : LookedUp table tableMeta)
    (req : WriteRequest) : Chosen table (req.call tableMeta) := by
  obtain ⟨conflictCols, rfl, keys⟩ := known
  constructor
  · intro name member
    rw [WriteRequest.call, usableCols, List.mem_filter, Bool.and_eq_true] at member
    refine ⟨member.1, ?_⟩
    rintro rfl
    exact absurd member.2.2 (by decide)
  · exact keys

section

variable [DecidableEq V] {coercion : Coercion} {nowIso : Str} {moment : Nat}
  {rows : List (Row V)} {merged : Merged V}

/-- What is behind statements that go through. -/
theorem sentTo_ok {target : Table V}
    (sent : sentTo keywords table target coercion call nowIso moment rows = .ok merged) :
    ∃ dropped names read staged,
      (generatedColumns table).mapM (readColumn keywords) = some dropped ∧
      (fullCols table call).mapM (readColumn keywords) = some names ∧
      readMerge keywords (mergeOf table call) = some read ∧
      copiesInto (tmpColumns target dropped) names = true ∧
      copyRowsInto target (tmpColumns target dropped) names moment moment
        (buildCsv coercion (dtypeOf table) call (if hasIngestTs table then some nowIso else none)) =
          some staged ∧
      preparesInto target (tmpColumns target dropped) read = true ∧
      affectsOnce read (proposed target read staged (moment + call.records.length)) = true ∧
      Upsert.putAll (rules target read)
        (proposed target read staged (moment + call.records.length)) rows =
          some (merged.rows, merged.outcomes) := by
  rw [sentTo] at sent
  split at sent
  next dropped names read droppedEq namesEq readEq =>
    dsimp only at sent
    by_cases copied : copiesInto (tmpColumns target dropped) names = true
    · rw [if_pos copied] at sent
      split at sent
      next staged staging =>
        rw [mergeInto] at sent
        by_cases ready : (preparesInto target (tmpColumns target dropped) read && affectsOnce read
            (proposed target read staged (moment + call.records.length))) = true
        · rw [if_pos ready] at sent
          rw [Bool.and_eq_true] at ready
          split at sent
          next after outcomes put =>
            obtain rfl := Except.ok.inj sent
            exact ⟨dropped, names, read, staged, droppedEq, namesEq, readEq, copied, staging,
              ready.1, ready.2, put⟩
          next => cases sent
        · rw [if_neg ready] at sent
          cases sent
      next => cases sent
    · rw [if_neg copied] at sent
      cases sent
  next => cases sent

/-- Statements that go through, on the table that was looked up, are the merge on it. -/
theorem sentTo_self (spelled : Spelled keywords table) (chosen : Chosen table call)
    (some_column : (targetColumns table).isEmpty = false)
    (sent : sentTo keywords table table coercion call nowIso moment rows = .ok merged) :
    copyAndMerge table coercion call nowIso moment rows = .ok merged := by
  obtain ⟨dropped, names, read, staged, droppedEq, namesEq, readEq, copied, staging, ready, once,
    put⟩ := sentTo_ok sent
  obtain rfl := Option.some.inj ((mapM_self spelled.dropped).symm.trans droppedEq)
  obtain ⟨rfl, rfl⟩ := reads_self spelled chosen namesEq readEq ready
  have prepared : prepares table (mergeOf table call) = true := by
    rw [preparesInto, Bool.and_assoc, Bool.and_assoc, Bool.and_assoc, Bool.and_eq_true] at ready
    rw [prepares, Bool.and_assoc, Bool.and_assoc]
    exact ready.2
  refine copyAndMerge_ok.mpr ⟨some_column, prepared, staged, ?_, once, put⟩
  rw [stage]
  have whole : copies table (fullCols table call) = true := copied
  rw [if_pos whole]
  exact (copyRowsInto_staged _ _ _ _).symm.trans staging

/-- What goes through under a name that is spelled out is the merge on the table of that name. -/
theorem copyAndMergeSent_named {tables : Str × Str → Option (Table V)} {name read : Str × Str}
    {rows : Str × Str → List (Row V)} (spelled : SpelledName keywords tables name)
    {table : Table V} (found : tables name = some table) (chosen : Chosen table call)
    (sent : copyAndMergeSent keywords tables name coercion call nowIso moment rows =
      .ok (read, merged)) :
    read = name ∧ copyAndMerge table coercion call nowIso moment (rows name) = .ok merged := by
  rw [copyAndMergeSent, found] at sent
  dsimp only at sent
  by_cases bare : (targetColumns table).isEmpty = true
  · rw [if_pos bare] at sent
    cases sent
  · rw [if_neg bare] at sent
    rw [Bool.not_eq_true] at bare
    split at sent
    next => cases sent
    next other reads =>
      split at sent
      next => cases sent
      next target named =>
        split at sent
        next result through =>
          obtain ⟨rfl, rfl⟩ := Prod.mk.inj (Except.ok.inj sent)
          rcases spelled.read other reads with rfl | absent
          · obtain rfl := Option.some.inj (found.symm.trans named)
            exact ⟨rfl, sentTo_self (spelled.columns table found) chosen bare through⟩
          · rw [absent] at named
            cases named
        next => cases sent

/-- A write under a name that is spelled out writes the records to the table of that name, or
fails and leaves all rows. -/
theorem writeRecordsSent_named {tables : Str × Str → Option (Table V)} {name : Str × Str}
    {tableMeta : TableMeta} {req : WriteRequest} {rows after : Str × Str → List (Row V)}
    {answer : ApiResult (Nat × Nat)} (spelled : SpelledName keywords tables name)
    (known : ∀ table, tables name = some table → LookedUp table tableMeta)
    (there : (tables name).isSome = true)
    (written : writeRecordsSent keywords tables name coercion tableMeta req nowIso moment rows =
      (answer, after)) :
    (∃ error, answer = .error error ∧ after = rows) ∨
      ∃ table counts own, answer = .ok counts ∧ tables name = some table ∧
        writeRecords table coercion tableMeta req nowIso moment (rows name) = (.ok counts, own) ∧
        after = Function.update rows name own := by
  obtain ⟨table, found⟩ := Option.isSome_iff_exists.mp there
  rw [writeRecordsSent] at written
  by_cases empty : req.records.isEmpty = true
  · rw [if_pos empty] at written
    obtain ⟨rfl, rfl⟩ := Prod.mk.inj written
    refine Or.inr ⟨table, (0, 0), rows name, rfl, found, ?_, (Function.update_eq_self name rows).symm⟩
    rw [writeRecords, if_pos empty]
  · rw [if_neg empty] at written
    by_cases unusable : (usableCols tableMeta req.records).isEmpty = true
    · rw [if_pos unusable] at written
      exact Or.inl ⟨_, (Prod.mk.inj written).1.symm, (Prod.mk.inj written).2.symm⟩
    · rw [if_neg unusable] at written
      by_cases keyless : tableMeta.conflictCols.isEmpty = true
      · rw [if_pos keyless] at written
        exact Or.inl ⟨_, (Prod.mk.inj written).1.symm, (Prod.mk.inj written).2.symm⟩
      · rw [if_neg keyless] at written
        split at written
        next read merged sent =>
          obtain ⟨rfl, rfl⟩ := Prod.mk.inj written
          obtain ⟨rfl, through⟩ := copyAndMergeSent_named spelled found
            ((known table found).chosen req) sent
          refine Or.inr ⟨table, _, merged.rows, rfl, found, ?_, rfl⟩
          rw [writeRecords, if_neg empty, if_neg unusable, if_neg keyless, through]
        next =>
          exact Or.inl ⟨_, (Prod.mk.inj written).1.symm, (Prod.mk.inj written).2.symm⟩
        next =>
          exact Or.inl ⟨_, (Prod.mk.inj written).1.symm, (Prod.mk.inj written).2.symm⟩

end

end LumidPlatform.Write.Spelling
