import LumidPlatform.Ingest.Writable

/-!
# Proposals and the records behind them

A proposal folds the keys of its records into names of columns, the validator compares keys
with the columns as they are, and each has its own list of columns that are the platform's.
-/

namespace LumidPlatform.Ingest.Admission

open LumidPlatform.Write LumidPlatform.Write.Engine WriteAuthority

variable {deployment : Deployment} {unicode : Unicode} {V : Type}

/-- What `table_meta` reads of the table that an approval creates on an engine. -/
def createdMeta (kind : BackendKind) (base : Table V) (name : TableName) (ddl : CreateTable) :
    TableMeta :=
  match kind with
  | .postgres => ddl.pgTable.tableMeta base name
  | .clickHouse => ddl.chMeta

/-- A key of a record that is a column of the proposal. -/
def Taken (unicode : Unicode) (p : Proposal) (key : Str) : Prop :=
  ∃ name ∈ p.inferredSchema.map Prod.fst, normIdent unicode key = some name

/-- The key that a record is rejected for: the first that is not to be supplied or is unknown. -/
def refusedKey (table : TableMeta) (members : JsonMap) : Option Str :=
  (members.find? (fun entry => (keyError table entry.1).isSome)).map Prod.fst

/-- A record has a value for every column of the key of a proposal. -/
def SuppliesKey (unicode : Unicode) (p : Proposal) (members : JsonMap) : Prop :=
  ∀ name ∈ p.inferredKey, ∃ key value, JsonMap.get members key = some value ∧ value ≠ .null ∧
    normIdent unicode key = some name

/-- The validator refuses no record for a key that became a column, and accepts each record with
a full key. -/
structure Admits (unicode : Unicode) (p : Proposal) (records : List Json) (table : TableMeta) :
    Prop where
  fields : ∀ record ∈ records, ∀ members, record.asObject? = some members →
    ∀ key, refusedKey table members = some key → ¬Taken unicode p key
  keyed : ∀ record ∈ records, ∀ members, record.asObject? = some members →
    SuppliesKey unicode p members → accepts table record = true

/-- A key under which the created table takes values. -/
def usable (p : Proposal) (key : Str) : Bool :=
  (p.inferredSchema.map Prod.fst).contains key && key != "id".str || key == "raw".str

/-- The condition on a record: the first of its keys that cannot be used is no column under
another spelling; and with a full key it has only usable keys, and on ClickHouse a value for
every column. -/
structure Spelled (unicode : Unicode) (kind : BackendKind) (p : Proposal) (members : JsonMap) :
    Prop where
  first : ∀ entry, members.find? (fun entry => !usable p entry.1) = some entry →
    ¬Taken unicode p entry.1
  keyed : SuppliesKey unicode p members → (∀ entry ∈ members, usable p entry.1 = true) ∧
    (kind = .clickHouse → ∀ name ∈ p.inferredSchema.map Prod.fst, name ≠ "id".str →
      ∃ value, JsonMap.get members name = some value ∧ value ≠ .null)

/-! ## The validator -/

theorem findSome?_of_find? {α β : Type} {f : α → Option β} {items : List α} {item : α}
    (found : items.find? (fun item => (f item).isSome) = some item) :
    items.findSome? f = f item ∧ (f item).isSome = true := by
  induction items with
  | nil => cases found
  | cons first rest inductionHypothesis =>
    rw [List.find?_cons] at found
    rw [List.findSome?_cons]
    cases here : f first with
    | none =>
      simp only [here, Option.isSome_none] at found
      exact inductionHypothesis found
    | some result =>
      simp only [here, Option.isSome_some, Option.some.injEq] at found
      subst found
      rw [here]
      exact ⟨rfl, rfl⟩

/-- A record that is rejected for a key gets the error about it. -/
theorem validateOne_of_refusedKey {table : TableMeta} {record : Json} {members : JsonMap} {key : Str}
    (isObject : record.asObject? = some members) (refused : refusedKey table members = some key) :
    validateOne table record = keyError table key ∧ (keyError table key).isSome = true := by
  obtain ⟨entry, found, rfl⟩ := Option.map_eq_some_iff.mp refused
  obtain ⟨first, wrong⟩ :=
    findSome?_of_find? (f := fun entry : Str × Json => keyError table entry.1) found
  refine ⟨?_, wrong⟩
  obtain ⟨error, same⟩ := Option.isSome_iff_exists.mp wrong
  rw [validateOne, isObject]
  dsimp only
  rw [first, same]

/-! ## Created tables -/

section

variable {kind : BackendKind} {base : Table V} {name : TableName} {p : Proposal} {ddl : CreateTable}

theorem names_createdMeta : (createdMeta kind base name ddl).columns.map ColumnInfo.name =
    ddl.columns.map Prod.fst := by
  cases kind with
  | postgres => exact targetNames_created
  | clickHouse =>
    rw [createdMeta, CreateTable.chMeta, List.map_map]
    rfl

/-- Of the columns of the provenance only `raw` can be supplied. -/
theorem eq_raw_of_provenance {column : Str} (provenance : column ∈ provenanceCols)
    (unstamped : column ∉ serverStampedCols) : column = "raw".str := by
  revert column
  decide

/-- A column of a clean proposal can be supplied unless it is `id`. -/
theorem unstamped_of_inferred (clean : Clean unicode p) {column : Str}
    (inferred : column ∈ p.inferredSchema.map Prod.fst) (other : column ≠ "id".str) :
    column ∉ serverStampedCols := by
  have outside := (clean.names column inferred).2
  simp only [provenanceCols, serverStampedCols, List.mem_cons, List.not_mem_nil, or_false,
    not_or] at outside ⊢
  exact ⟨outside.1, outside.2.1, outside.2.2.1, outside.2.2.2.1, other⟩

/-- The validator takes a key for a created table where the key is usable. -/
theorem keyError_created (clean : Clean unicode p) (laysOut : LaysOut p ddl) {key : Str} :
    keyError (createdMeta kind base name ddl) key = none ↔ usable p key = true := by
  rw [keyError_eq_none, names_createdMeta, laysOut.columns, List.mem_append, usable,
    Bool.or_eq_true, Bool.and_eq_true, bne_iff_ne, beq_iff_eq, List.contains_iff_mem]
  constructor
  · rintro ⟨unstamped, inferred | provenance⟩
    · left
      refine ⟨inferred, ?_⟩
      rintro rfl
      exact unstamped (by decide)
    · exact Or.inr (eq_raw_of_provenance provenance unstamped)
  · rintro (⟨inferred, other⟩ | rfl)
    · exact ⟨unstamped_of_inferred clean inferred other, Or.inl inferred⟩
    · exact ⟨by decide, Or.inr (by decide)⟩

/-- What has to have a value is a column of the proposal, and on Postgres one of its key. -/
theorem inferred_of_required (laysOut : LaysOut p ddl) {column : ColumnInfo}
    (member : column ∈ (createdMeta kind base name ddl).columns) (required : column.required = true) :
    column.name ≠ "id".str ∧ column.name ∈ p.inferredSchema.map Prod.fst ∧
      (kind = .postgres → column.name ∈ p.inferredKey) := by
  obtain ⟨unstamped, notRaw, filled, -⟩ := ColumnInfo.required_iff.mp required
  have other : column.name ≠ "id".str := by
    intro same
    rw [same] at unstamped
    exact unstamped (by decide)
  have listed : column.name ∈ p.inferredSchema.map Prod.fst ++ provenanceCols := by
    rw [← laysOut.columns]
    have names : (createdMeta kind base name ddl).columns.map ColumnInfo.name =
        ddl.columns.map Prod.fst := names_createdMeta
    rw [← names]
    exact List.mem_map_of_mem member
  refine ⟨other, ?_, ?_⟩
  · rcases List.mem_append.mp listed with inferred | provenance
    · exact inferred
    · exact absurd (eq_raw_of_provenance provenance unstamped) notRaw
  · rintro rfl
    have target : column ∈ targetColumns (ddl.pgTable.table base name) := member
    rw [targetColumns_created] at target
    obtain ⟨entry, -, rfl⟩ := List.mem_map.mp target
    have key : entry.1 ∈ ddl.primaryKey := by
      have inside : entry.1 ∈ ddl.primaryKey ++ ["source".str, "source_endpoint".str,
          "source_run_id".str, "ingest_ts".str] :=
        List.contains_iff_mem.mp (Bool.not_eq_eq_eq_not.mp filled)
      rcases List.mem_append.mp inside with primary | stamped
      · exact primary
      · exact absurd (List.mem_append_left ["id".str] stamped) unstamped
    rw [laysOut.primaryKey] at key
    split_ifs at key with none
    · exact absurd (List.mem_singleton.mp key) other
    · rcases List.mem_append.mp key with declared | source
      · exact declared
      · refine absurd ?_ unstamped
        rw [show (ddl.column entry).toColumnInfo.name = "source".str from
          List.mem_singleton.mp source]
        decide

/-- On ClickHouse every column of the proposal has to have a value. -/
theorem required_of_inferred (clean : Clean unicode p) (laysOut : LaysOut p ddl) {column : Str}
    (inferred : column ∈ p.inferredSchema.map Prod.fst) (other : column ≠ "id".str) :
    ∃ info ∈ (createdMeta .clickHouse base name ddl).columns, info.required = true ∧
      info.name = column := by
  have listed : column ∈ (createdMeta .clickHouse base name ddl).columns.map ColumnInfo.name := by
    rw [names_createdMeta, laysOut.columns]
    exact List.mem_append_left _ inferred
  obtain ⟨info, member, rfl⟩ := List.mem_map.mp listed
  refine ⟨info, member, ?_, rfl⟩
  obtain ⟨entry, -, rfl⟩ := List.mem_map.mp member
  refine ColumnInfo.required_iff.mpr ⟨unstamped_of_inferred clean inferred other, ?_, rfl, rfl⟩
  intro raw
  exact (clean.names _ inferred).2 (raw ▸ (by decide))

/-- A usable key is its own normal form. -/
theorem normal_of_usable (clean : Clean unicode p) {key : Str} (takes : usable p key = true) :
    Normal unicode key := by
  rw [usable, Bool.or_eq_true, Bool.and_eq_true, beq_iff_eq, List.contains_iff_mem] at takes
  rcases takes with ⟨inferred, -⟩ | rfl
  · exact (clean.names key inferred).1
  · exact Writable.normal_provenance (by decide)

/-- A created table admits the records exactly where they are spelled like it. -/
theorem admits_created (clean : Clean unicode p) (laysOut : LaysOut p ddl) {records : List Json} :
    Admits unicode p records (createdMeta kind base name ddl) ↔
      ∀ record ∈ records, ∀ members, record.asObject? = some members →
        Spelled unicode kind p members := by
  have refused (members : JsonMap) :
      refusedKey (createdMeta kind base name ddl) members =
        (members.find? (fun entry => !usable p entry.1)).map Prod.fst := by
    have same : (fun entry : Str × Json =>
        (keyError (createdMeta kind base name ddl) entry.1).isSome) =
          fun entry => !usable p entry.1 := by
      funext entry
      rw [Bool.eq_iff_iff, Bool.not_eq_true', ← Bool.not_eq_true, ← keyError_created clean laysOut,
        Option.isSome_iff_ne_none]
    rw [refusedKey, same]
  constructor
  · intro admits record member members isObject
    constructor
    · intro entry found
      apply admits.fields record member members isObject
      rw [refused, found]
      rfl
    · intro supplies
      obtain ⟨keys, columns⟩ := (accepts_iff isObject).mp
        (admits.keyed record member members isObject supplies)
      refine ⟨fun entry inside => (keyError_created clean laysOut).mp (keys entry inside), ?_⟩
      rintro rfl column inferred other
      obtain ⟨info, listed, required, rfl⟩ := required_of_inferred clean laysOut inferred other
      exact columnError_eq_none.mp (columns info listed) required
  · intro spelled
    constructor
    · intro record member members isObject key first
      rw [refused] at first
      obtain ⟨entry, found, rfl⟩ := Option.map_eq_some_iff.mp first
      exact (spelled record member members isObject).first entry found
    · intro record member members isObject supplies
      obtain ⟨keys, columns⟩ := (spelled record member members isObject).keyed supplies
      refine (accepts_iff isObject).mpr
        ⟨fun entry inside => (keyError_created clean laysOut).mpr (keys entry inside), ?_⟩
      intro info listed
      refine columnError_eq_none.mpr fun required => ?_
      obtain ⟨other, inferred, key⟩ := inferred_of_required laysOut listed required
      cases kind with
      | clickHouse => exact columns rfl info.name inferred other
      | postgres =>
        obtain ⟨spelling, value, found, notNull, folds⟩ := supplies info.name (key rfl)
        -- A record with usable keys spells the column as it is.
        have inside : spelling ∈ members.map Prod.fst :=
          get_isSome_iff.mp (by rw [found]; rfl)
        obtain ⟨entry, entered, rfl⟩ := List.mem_map.mp inside
        have same := normal_of_usable clean (keys entry entered)
        rw [Normal, folds, Option.some.injEq] at same
        rw [same]
        exact ⟨value, found, notNull⟩

end

/-- A proposal that is made from records, and approved onto an engine as it is, admits the records
exactly where the table was there and admits them, or each of them is spelled like the new
table. -/
theorem admits_iff_spelled {db db' : Db} {schema table role sub newId : Str} {records : List Json}
    {made : Json} {p : Proposal}
    (creates : create deployment db schema table role sub records newId = .ok (made, db'))
    (appended : db'.proposals = db.proposals ++ [p]) (kind : BackendKind)
    (existing : Option TableMeta) (base : Table V) :
    ∃ ddl, buildCreateTable deployment.crates.unicode p = .ok ddl ∧
      (Admits deployment.crates.unicode p records
          (existing.getD (createdMeta kind base p.target ddl)) ↔
        (∀ old, existing = some old → Admits deployment.crates.unicode p records old) ∧
        (existing = none → ∀ record ∈ records, ∀ members, record.asObject? = some members →
          Spelled deployment.crates.unicode kind p members)) := by
  have negotiated : Negotiated deployment p := .created creates appended
  obtain ⟨clean, schemaNormal, tableNormal⟩ := negotiated.clean
  obtain ⟨ddl, built, laysOut⟩ := buildCreateTable_clean clean schemaNormal tableNormal
  refine ⟨ddl, built, ?_⟩
  cases existing with
  | some old =>
    constructor
    · intro admits
      exact ⟨fun other same => Option.some.inj same ▸ admits, fun absent => (nomatch absent)⟩
    · intro condition
      exact condition.1 old rfl
  | none =>
    rw [Option.getD_none, admits_created clean laysOut]
    constructor
    · intro spelled
      exact ⟨fun old same => (nomatch same), fun _ => spelled⟩
    · intro condition
      exact condition.2 rfl

/-! ## Two batches -/

/-- Quotes whose price has a capital. -/
def capitalQuotes : List Json :=
  [.object [("Price".str, .ofNat 7), ("symbol_id".str, .string "A".str)]]

/-- What is proposed for some records. -/
def proposalFor (records : List Json) : Option Proposal :=
  (Writable.proposedFrom records).bind (fun s => s.db.proposals.head?)

/-- What is proposed comes from `create`. -/
theorem proposalFor_created {records : List Json} {p : Proposal}
    (proposed : proposalFor records = some p) :
    ∃ answer db, create postgresOnly Writable.noTables "md".str "quote".str "producer".str
      "bob".str records "p1".str = .ok (answer, db) ∧
        db.proposals = Writable.noTables.proposals ++ [p] := by
  obtain ⟨s, made, first⟩ := Option.bind_eq_some_iff.mp proposed
  rw [Writable.proposedFrom] at made
  split at made
  · rename_i answer db creates
    obtain rfl := Option.some.inj made
    obtain ⟨q, -, -, -, rfl⟩ := create_ok creates
    obtain rfl := Option.some.inj first
    exact ⟨answer, _, creates, rfl⟩
  · cases made

/-- Quotes in the spelling of the columns are admitted. -/
theorem symbolQuotes_admitted : ∃ p ddl, proposalFor Writable.symbolQuotes = some p ∧
    buildCreateTable postgresOnly.crates.unicode p = .ok ddl ∧
    Admits postgresOnly.crates.unicode p Writable.symbolQuotes
      (createdMeta .postgres Writable.emptyTable p.target ddl) := by
  have ran : (proposalFor Writable.symbolQuotes).map (fun p =>
      usable p "price".str && usable p "symbol_id".str) = some true := by decide +kernel
  obtain ⟨p, proposed, both⟩ := Option.map_eq_some_iff.mp ran
  obtain ⟨answer, db, creates, appended⟩ := proposalFor_created proposed
  obtain ⟨ddl, built, admits⟩ :=
    admits_iff_spelled creates appended .postgres none Writable.emptyTable
  refine ⟨p, ddl, proposed, built, admits.mpr ⟨fun old absent => (nomatch absent), fun _ => ?_⟩⟩
  intro record member members isObject
  obtain rfl := List.mem_singleton.mp member
  obtain rfl := Option.some.inj isObject
  rw [Bool.and_eq_true] at both
  refine ⟨?_, fun _ => ⟨?_, fun other => (nomatch other)⟩⟩
  · intro entry found
    rw [List.find?_cons, both.1, List.find?_cons, both.2] at found
    cases found
  · intro entry inside
    rcases List.mem_cons.mp inside with rfl | last
    · exact both.1
    · rw [List.mem_singleton.mp last]
      exact both.2

/-- What the table that a proposal creates says of the quote with a capital. -/
def capitalSeen (p : Proposal) : Option (List Str × List (Option Str) × Option Str) :=
  match buildCreateTable postgresOnly.crates.unicode p with
  | .ok ddl => some (p.inferredSchema.map Prod.fst,
      capitalQuotes.map (validateOne (createdMeta .postgres Writable.emptyTable p.target ddl)),
      refusedKey (createdMeta .postgres Writable.emptyTable p.target ddl)
        [("Price".str, .ofNat 7), ("symbol_id".str, .string "A".str)])
  | .error _ => none

/-- A capital in a key became a column, and is refused by the table: `unknown field`. -/
theorem capitalQuotes_refused : ∃ p answer db ddl,
    create postgresOnly Writable.noTables "md".str "quote".str "producer".str "bob".str
      capitalQuotes "p1".str = .ok (answer, db) ∧
    db.proposals = Writable.noTables.proposals ++ [p] ∧
    buildCreateTable postgresOnly.crates.unicode p = .ok ddl ∧
    p.inferredSchema.map Prod.fst = ["price".str, "symbol_id".str] ∧
    capitalQuotes.map (validateOne (createdMeta .postgres Writable.emptyTable p.target ddl)) =
      [some "unknown field 'Price'".str] ∧
    ¬Admits postgresOnly.crates.unicode p capitalQuotes
      (createdMeta .postgres Writable.emptyTable p.target ddl) := by
  have ran : (proposalFor capitalQuotes).bind capitalSeen =
      some (["price".str, "symbol_id".str], [some "unknown field 'Price'".str],
        some "Price".str) := by
    decide +kernel
  obtain ⟨p, proposed, observed⟩ := Option.bind_eq_some_iff.mp ran
  obtain ⟨answer, db, creates, appended⟩ := proposalFor_created proposed
  rw [capitalSeen] at observed
  split at observed
  · rename_i ddl built
    simp only [Option.some.injEq, Prod.mk.injEq] at observed
    obtain ⟨names, errors, refused⟩ := observed
    refine ⟨p, answer, db, ddl, creates, appended, built, names, errors, fun admits => ?_⟩
    apply admits.fields _ List.mem_cons_self _ rfl _ refused
    refine ⟨"price".str, ?_, by decide⟩
    rw [names]
    exact List.mem_cons_self
  · cases observed

end LumidPlatform.Ingest.Admission
