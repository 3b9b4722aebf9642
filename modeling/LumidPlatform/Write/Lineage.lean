import LumidPlatform.Lib.Transitions
import LumidPlatform.Write.Engine

/-!
# Where rows come from

Every row carries a source, an endpoint and a run. A call stamps the rows that it inserts
with its own three, and re-stamps those that it updates, except for the source, which only
comes along where it is part of the key. A mark beside each row, which decides nothing, says
who wrote it last.
-/

namespace LumidPlatform.Write.Engine

open Transitions

/-! ## Stamps -/

/-- What a call stamps its rows with. -/
structure Stamp where
  source : Str
  sourceEndpoint : Str
  sourceRunId : Str
  deriving DecidableEq

def Call.stamp (call : Call) : Stamp := ⟨call.source, call.sourceEndpoint, call.sourceRunId⟩

/-- The columns of a stamp, each with its text. -/
def Stamp.entries (stamp : Stamp) : List (Str × Str) := [
  ("source".str, stamp.source), ("source_endpoint".str, stamp.sourceEndpoint),
  ("source_run_id".str, stamp.sourceRunId)]

/-- No part of the stamp is the token for `NULL`. -/
def Stamp.whole (stamp : Stamp) : Bool := stamp.entries.all (fun entry => entry.2 != nullToken)

variable {V : Type} (table : Table V)

/-- The value that a text of a stamp is in its column, in a transaction of that moment. -/
def stampValue (name text : Str) (began : Nat) : Option V :=
  ((stagedColumns table).find? (fun column => column.name == name)).bind
    (fun column => table.input column text began)

variable {table} {call : Call} {row : Row V}

/-! ## Staged rows -/

theorem name_of_find {columns : List ColumnInfo} {name : Str} {column : ColumnInfo}
    (found : columns.find? (fun column => column.name == name) = some column) :
    column.name = name := by
  simpa using List.find?_some found

/-- A column that is staged is one of the target columns. -/
theorem staged_subset {column : ColumnInfo} (staged : column ∈ stagedColumns table) :
    column ∈ targetColumns table := by
  obtain ⟨whole, kept, rfl⟩ := List.mem_map.mp staged
  obtain ⟨listed, free⟩ := List.mem_filter.mp kept
  refine List.mem_map.mpr ⟨whole, List.mem_filter.mpr ⟨listed, ?_⟩, rfl⟩
  by_contra hidden
  have generated : whole.name ∈ generatedColumns table := by
    refine List.mem_map.mpr ⟨whole, List.mem_filter.mpr ⟨listed, ?_⟩, rfl⟩
    rw [Bool.not_eq_true, Bool.and_eq_false_iff] at hidden
    rw [Bool.or_eq_true]
    rcases hidden with computed | always
    · exact Or.inl (by simpa using computed)
    · right
      rw [bne_eq_false_iff_eq] at always
      rw [always]
      rfl
  rw [Bool.not_eq_true', ← Bool.not_eq_true, List.contains_iff_mem] at free
  exact free generated

/-- What lies before a name in two lists of one length does not matter. -/
theorem lookup_zip_append {names more : List Str} {fields others : List Str} {name : Str}
    (same : names.length = fields.length) (absent : name ∉ names) :
    ((names ++ more).zip (fields ++ others)).lookup name = (more.zip others).lookup name := by
  induction names generalizing fields with
  | nil =>
    obtain rfl := List.length_eq_zero_iff.mp same.symm
    rfl
  | cons first rest inductionHypothesis =>
    cases fields with
    | nil => cases same
    | cons field fields =>
      have different : (name == first) = false := by
        rw [beq_eq_false_iff_ne]
        rintro rfl
        exact absent List.mem_cons_self
      rw [List.cons_append, List.cons_append, List.zip_cons_cons, List.lookup_cons, different]
      exact inductionHypothesis (Nat.succ.inj same)
        (fun within => absent (List.mem_cons_of_mem _ within))

/-- The fields of a stamp stand where its columns do. -/
theorem lookup_stamp {coercion : Coercion} {dtype : Str → Str} {ingestTs : Option Str}
    {record : Json} (different : (fullCols table call).Nodup) {entry : Str × Str}
    (stamped : entry ∈ call.stamp.entries) :
    ((fullCols table call).zip (fieldsOf coercion dtype call ingestTs record)).lookup entry.1 =
      some entry.2 := by
  have apart : entry.1 ∉ call.cols := by
    rw [fullCols, List.append_assoc] at different
    intro payload
    refine List.disjoint_of_nodup_append different payload (List.mem_append_left _ ?_)
    simp only [Stamp.entries, List.mem_cons, List.not_mem_nil, or_false] at stamped
    rcases stamped with rfl | rfl | rfl
    · exact List.mem_cons_self
    · exact List.mem_cons_of_mem _ List.mem_cons_self
    · exact List.mem_cons_of_mem _ (List.mem_cons_of_mem _ List.mem_cons_self)
  rw [fullCols, fieldsOf, List.append_assoc, List.append_assoc,
    lookup_zip_append (by rw [List.length_map]) apart]
  simp only [Stamp.entries, Call.stamp, List.mem_cons, List.not_mem_nil, or_false] at stamped
  rcases stamped with rfl | rfl | rfl
  · simp
  · have first : ("source_endpoint".str == "source".str) = false := by decide
    simp [List.lookup_cons, first]
  · have first : ("source_run_id".str == "source".str) = false := by decide
    have second : ("source_run_id".str == "source_endpoint".str) = false := by decide
    simp [List.lookup_cons, first, second]

/-- Every staged row was copied from a record. -/
theorem mem_copyRows {names : List Str} {began moment : Nat} {lines : List (List Str)}
    {staged : List (Row V)} (copied : copyRows table names began moment lines = some staged)
    (member : row ∈ staged) :
    ∃ fields ∈ lines, ∃ at_, copyRow table names fields began at_ = some row := by
  induction lines generalizing moment staged with
  | nil =>
    obtain rfl := Option.some.inj copied
    cases member
  | cons fields rest inductionHypothesis =>
    rw [copyRows] at copied
    split at copied
    · rename_i first rows one others
      obtain rfl := Option.some.inj copied
      rcases List.mem_cons.mp member with rfl | later
      · exact ⟨fields, List.mem_cons_self, moment, one⟩
      · obtain ⟨line, among, at_, copies⟩ := inductionHypothesis others later
        exact ⟨line, List.mem_cons_of_mem _ among, at_, copies⟩
    · cases copied

variable {coercion : Coercion} {nowIso : Str} {moment : Nat} {staged : List (Row V)}

theorem stage_row (staging : stage table coercion call nowIso moment = some staged)
    (member : row ∈ staged) :
    copies table (fullCols table call) = true ∧ ∃ record ingestTs at_,
      copyRow table (fullCols table call)
        (fieldsOf coercion (dtypeOf table) call ingestTs record) moment at_ = some row := by
  rw [stage] at staging
  split_ifs at staging with ready
  · obtain ⟨fields, among, at_, copied⟩ := mem_copyRows staging member
    obtain ⟨record, -, rfl⟩ := List.mem_map.mp among
    exact ⟨ready, record, _, at_, copied⟩
  · obtain ⟨fields, among, at_, copied⟩ := mem_copyRows staging member
    obtain ⟨record, -, rfl⟩ := List.mem_map.mp among
    exact ⟨ready, record, _, at_, copied⟩

/-- The columns of a stamp are columns of the staging table. -/
theorem stamp_staged (ready : copies table (fullCols table call) = true) {entry : Str × Str}
    (stamped : entry ∈ call.stamp.entries) :
    ∃ column ∈ stagedColumns table, column.name = entry.1 ∧
      (stagedColumns table).find? (fun column => column.name == entry.1) = some column := by
  rw [copies, Bool.and_eq_true, List.all_eq_true] at ready
  have named : entry.1 ∈ fullCols table call := by
    simp only [Stamp.entries, List.mem_cons, List.not_mem_nil, or_false] at stamped
    rw [fullCols, List.append_assoc]
    apply List.mem_append_right
    apply List.mem_append_left
    rcases stamped with rfl | rfl | rfl
    · exact List.mem_cons_self
    · exact List.mem_cons_of_mem _ List.mem_cons_self
    · exact List.mem_cons_of_mem _ (List.mem_cons_of_mem _ List.mem_cons_self)
  have there := ready.2 entry.1 named
  obtain ⟨column, found⟩ := Option.isSome_iff_exists.mp
    (List.find?_isSome.mpr (List.any_eq_true.mp there))
  exact ⟨column, List.mem_of_find?_eq_some found, name_of_find found, found⟩

/-- A staged row holds the texts of its stamp as their columns read them, and `NULL` for the
token. -/
theorem staged_stamp (staging : stage table coercion call nowIso moment = some staged)
    (member : row ∈ staged) {entry : Str × Str} (stamped : entry ∈ call.stamp.entries) :
    (entry.2 = nullToken → row entry.1 = none) ∧
      (entry.2 ≠ nullToken → ∃ v, stampValue table entry.1 entry.2 moment = some v ∧
        row entry.1 = some v) := by
  obtain ⟨ready, record, ingestTs, at_, copied⟩ := stage_row staging member
  obtain ⟨column, within, named, found⟩ := stamp_staged ready stamped
  have different : (fullCols table call).Nodup := by
    rw [copies, Bool.and_eq_true] at ready
    exact of_decide_eq_true ready.1
  rw [copyRow] at copied
  dsimp only at copied
  split_ifs at copied with reads
  obtain rfl := Option.some.inj copied
  rw [List.all_eq_true] at reads
  have reading := reads column within
  rw [named, lookup_stamp different stamped, copyValue] at reading
  simp only [found, Option.bind_some, named, lookup_stamp different stamped, copyValue, stampValue]
  constructor
  · intro token
    rw [if_pos token]
    rfl
  · intro text
    rw [if_neg text] at reading ⊢
    cases value : table.input column entry.2 moment with
    | none => simp [value] at reading
    | some v => exact ⟨v, rfl, rfl⟩

/-- A column of a stamp is inserted from the staged row. -/
theorem stamp_inserted (ready : copies table (fullCols table call) = true) {entry : Str × Str}
    (stamped : entry ∈ call.stamp.entries) :
    entry.1 ∈ (targetColumns table).map ColumnInfo.name ∧
      entry.1 ∈ (mergeOf table call).insertCols := by
  obtain ⟨column, within, named, -⟩ := stamp_staged ready stamped
  have target : entry.1 ∈ (targetColumns table).map ColumnInfo.name :=
    List.mem_map.mpr ⟨column, staged_subset within, named⟩
  refine ⟨target, List.mem_filter.mpr ⟨target, ?_⟩⟩
  simp only [Stamp.entries, List.mem_cons, List.not_mem_nil, or_false] at stamped
  rcases stamped with rfl | rfl | rfl
  · exact (by decide : ("source".str != "id".str) = true)
  · exact (by decide : ("source_endpoint".str != "id".str) = true)
  · exact (by decide : ("source_run_id".str != "id".str) = true)

/-- The source is never set by an update, the endpoint and the run always are. -/
theorem source_not_updated : "source".str ∉ (mergeOf table call).updateTargets := by
  intro set
  simp only [mergeOf, buildMerge, List.mem_append, List.mem_filter] at set
  rcases set with (⟨-, flat⟩ | ⟨refreshed, -⟩) | payload
  · exact absurd flat (by simp [isProvOrId])
  · exact absurd refreshed (by decide)
  · split_ifs at payload
    · exact absurd payload (by decide)
    · cases payload

theorem refreshed_updated {name : Str} (refreshed : name ∈ provRefresh)
    (target : name ∈ (targetColumns table).map ColumnInfo.name) :
    name ∈ (mergeOf table call).updateTargets := by
  simp only [mergeOf, buildMerge, List.mem_append, List.mem_filter]
  exact Or.inl (Or.inr ⟨refreshed, List.contains_iff_mem.mpr target⟩)

/-! ## Proposed rows -/

variable [DecidableEq V]

theorem mem_of_mem_distinctOn {cols : List Str} {rows : List (Row V)}
    (member : row ∈ distinctOn cols rows) : row ∈ rows := by
  induction rows with
  | nil => exact member
  | cons first rest inductionHypothesis =>
    rw [distinctOn] at member
    split_ifs at member
    · exact List.mem_cons_of_mem _ (inductionHypothesis member)
    · rcases List.mem_cons.mp member with rfl | later
      · exact List.mem_cons_self
      · exact List.mem_cons_of_mem _ (inductionHypothesis later)

/-- A row that is proposed completes a staged one. -/
theorem mem_proposed {merge : Merge} {new : Row V}
    (member : new ∈ proposed table merge staged moment) :
    ∃ row ∈ staged, ∃ at_, new = complete table merge row at_ := by
  obtain ⟨entry, listed, rfl⟩ := List.mem_map.mp member
  have chosen : entry.1 ∈ selected table merge staged := List.fst_mem_of_mem_zipIdx listed
  rw [selected] at chosen
  have kept := mem_of_mem_distinctOn ((List.perm_insertionSort _ _).mem_iff.mp chosen)
  exact ⟨entry.1, (List.mem_filter.mp kept).1, entry.2, rfl⟩

/-- A proposed row holds what it was staged with in the columns of its stamp. -/
theorem proposed_stamp (staging : stage table coercion call nowIso moment = some staged)
    {at_ : Nat} {new : Row V}
    (member : new ∈ proposed table (mergeOf table call) staged at_) {entry : Str × Str}
    (stamped : entry ∈ call.stamp.entries) :
    (entry.2 = nullToken → new entry.1 = none) ∧
      (entry.2 ≠ nullToken → ∃ v, stampValue table entry.1 entry.2 moment = some v ∧
        new entry.1 = some v) := by
  obtain ⟨row, within, moment', rfl⟩ := mem_proposed member
  obtain ⟨ready, -⟩ := stage_row staging within
  have same : complete table (mergeOf table call) row moment' entry.1 = row entry.1 := by
    rw [complete, if_pos (List.contains_iff_mem.mpr (stamp_inserted ready stamped).2)]
  rw [same]
  exact staged_stamp staging within stamped

/-! ## Rows that carry a stamp -/

/-- The row holds the part of a stamp, as it is read at a moment. -/
def carriesEntry (table : Table V) (began : Nat) (row : Row V) (entry : Str × Str) : Bool :=
  (stampValue table entry.1 entry.2 began).isSome &&
    decide (row entry.1 = stampValue table entry.1 entry.2 began)

/-- The row holds the three texts of a stamp, as they are read at a moment. -/
def carries (table : Table V) (began : Nat) (row : Row V) (stamp : Stamp) : Bool :=
  stamp.entries.all (carriesEntry table began row)

theorem carriesEntry_iff {began : Nat} {entry : Str × Str} :
    carriesEntry table began row entry = true ↔
      ∃ v, stampValue table entry.1 entry.2 began = some v ∧ row entry.1 = some v := by
  rw [carriesEntry, Bool.and_eq_true, Option.isSome_iff_exists, decide_eq_true_eq]
  constructor
  · rintro ⟨⟨v, value⟩, same⟩
    exact ⟨v, value, same.trans value⟩
  · rintro ⟨v, value, here⟩
    exact ⟨⟨v, value⟩, here.trans value.symm⟩

/-- A proposed row carries a part of its stamp exactly if that is not the token for `NULL`. -/
theorem proposed_carriesEntry (staging : stage table coercion call nowIso moment = some staged)
    {at_ : Nat} {new : Row V}
    (member : new ∈ proposed table (mergeOf table call) staged at_) {entry : Str × Str}
    (stamped : entry ∈ call.stamp.entries) :
    carriesEntry table moment new entry = true ↔ entry.2 ≠ nullToken := by
  obtain ⟨null, text⟩ := proposed_stamp staging member stamped
  rw [carriesEntry_iff]
  constructor
  · rintro ⟨v, -, here⟩ token
    rw [null token] at here
    cases here
  · exact text

theorem proposed_carries (staging : stage table coercion call nowIso moment = some staged)
    {at_ : Nat} {new : Row V}
    (member : new ∈ proposed table (mergeOf table call) staged at_) :
    carries table moment new call.stamp = call.stamp.whole := by
  rw [Bool.eq_iff_iff, carries, Stamp.whole, List.all_eq_true, List.all_eq_true]
  apply forall₂_congr
  intro entry stamped
  rw [proposed_carriesEntry staging member stamped, bne_iff_ne]

/-- What an update has to find: a row of the source that the call stamps, and an endpoint and
a run that are not the token for `NULL`. -/
def updatesWhole (table : Table V) (began : Nat) (call : Call) (row : Row V) : Bool :=
  carriesEntry table began row ("source".str, call.source) && call.sourceEndpoint != nullToken &&
    call.sourceRunId != nullToken

theorem update_carries (staging : stage table coercion call nowIso moment = some staged)
    {at_ : Nat} {old new : Row V}
    (member : new ∈ proposed table (mergeOf table call) staged at_) :
    carries table moment ((rules table (mergeOf table call)).update old new) call.stamp =
      updatesWhole table moment call old := by
  obtain ⟨row, within, -, -⟩ := mem_proposed member
  obtain ⟨ready, -⟩ := stage_row staging within
  have entries : call.stamp.entries = [("source".str, call.source),
      ("source_endpoint".str, call.sourceEndpoint),
      ("source_run_id".str, call.sourceRunId)] := rfl
  have endpoint : ("source_endpoint".str, call.sourceEndpoint) ∈ call.stamp.entries := by
    simp [entries]
  have run : ("source_run_id".str, call.sourceRunId) ∈ call.stamp.entries := by
    simp [entries]
  have setEndpoint : (mergeOf table call).updateTargets.contains "source_endpoint".str = true :=
    List.contains_iff_mem.mpr (refreshed_updated (by decide) (stamp_inserted ready endpoint).1)
  have setRun : (mergeOf table call).updateTargets.contains "source_run_id".str = true :=
    List.contains_iff_mem.mpr (refreshed_updated (by decide) (stamp_inserted ready run).1)
  have notSet : (mergeOf table call).updateTargets.contains "source".str = false := by
    rw [← Bool.not_eq_true, List.contains_iff_mem]
    exact source_not_updated
  have source : carriesEntry table moment ((rules table (mergeOf table call)).update old new)
      ("source".str, call.source) = carriesEntry table moment old ("source".str, call.source) := by
    simp only [carriesEntry, rules, notSet, Bool.false_eq_true, if_false]
  have sameEndpoint : carriesEntry table moment ((rules table (mergeOf table call)).update old new)
      ("source_endpoint".str, call.sourceEndpoint) = (call.sourceEndpoint != nullToken) := by
    rw [Bool.eq_iff_iff, bne_iff_ne, ← proposed_carriesEntry staging member endpoint]
    simp only [carriesEntry, rules, setEndpoint, if_true]
  have sameRun : carriesEntry table moment ((rules table (mergeOf table call)).update old new)
      ("source_run_id".str, call.sourceRunId) = (call.sourceRunId != nullToken) := by
    rw [Bool.eq_iff_iff, bne_iff_ne, ← proposed_carriesEntry staging member run]
    simp only [carriesEntry, rules, setRun, if_true]
  rw [carries, entries, List.all_cons, List.all_cons, List.all_cons, List.all_nil, source,
    sameEndpoint, sameRun, Bool.and_true, updatesWhole, Bool.and_assoc]

/-! ## Writing with marks -/

/-- A call as it is made. -/
structure Writing where
  call : Call
  nowIso : Str
  moment : Nat

/-- The rows that a call proposes, if it can stage its records. -/
def Writing.news (table : Table V) (coercion : Coercion) (w : Writing) : Option (List (Row V)) :=
  (stage table coercion w.call w.nowIso w.moment).map (fun staged =>
    proposed table (mergeOf table w.call) staged (w.moment + w.call.records.length))

/-- A call on rows with marks: what it writes gets its mark. -/
def Writing.perform {M : Type} (table : Table V) (coercion : Coercion) (w : Writing) (mark : M)
    (rows : List (Row V × M)) : Option (List (Row V × M)) :=
  match copyAndMerge table coercion w.call w.nowIso w.moment (rows.map Prod.fst),
      w.news table coercion with
  | .ok _, some news =>
    (Upsert.putAll (Upsert.marked (rules table (mergeOf table w.call)))
      (news.map (fun new => (new, mark))) rows).map Prod.fst
  | _, _ => none

theorem perform_ok {M : Type} {w : Writing} {mark : M} {rows rows' : List (Row V × M)}
    (performed : w.perform table coercion mark rows = some rows') :
    ∃ staged outcomes, stage table coercion w.call w.nowIso w.moment = some staged ∧
      affectsOnce (mergeOf table w.call) (proposed table (mergeOf table w.call) staged
        (w.moment + w.call.records.length)) = true ∧
      Upsert.putAll (Upsert.marked (rules table (mergeOf table w.call)))
        ((proposed table (mergeOf table w.call) staged
          (w.moment + w.call.records.length)).map (fun new => (new, mark))) rows =
          some (rows', outcomes) := by
  rw [Writing.perform] at performed
  split at performed
  · rename_i merged news ran found
    obtain ⟨-, -, staged, staging, once, -⟩ := copyAndMerge_ok.mp ran
    rw [Writing.news, staging, Option.map_some, Option.some.injEq] at found
    obtain ⟨result, placed, rfl⟩ := Option.map_eq_some_iff.mp performed
    rw [← found] at placed
    exact ⟨staged, result.2, staging, once, placed⟩
  · cases performed

/-- The marks apart, it is the call of the code. -/
theorem perform_rows {M : Type} (w : Writing) (mark : M) (rows : List (Row V × M)) :
    (w.perform table coercion mark rows).map (fun rows' => rows'.map Prod.fst) =
      (copyAndMerge table coercion w.call w.nowIso w.moment (rows.map Prod.fst)).toOption.map
        Merged.rows := by
  rw [Writing.perform]
  cases ran : copyAndMerge table coercion w.call w.nowIso w.moment (rows.map Prod.fst) with
  | error e => rfl
  | ok merged =>
    obtain ⟨-, -, staged, staging, once, placed⟩ := copyAndMerge_ok.mp ran
    have same : _ = Upsert.putAll (rules table (mergeOf table w.call)) _ _ :=
      Upsert.putAll_marked ((proposed table (mergeOf table w.call) staged
        (w.moment + w.call.records.length)).map (fun new => (new, mark))) rows
    rw [List.map_map, show Prod.fst ∘ (fun new : Row V => (new, mark)) = id from rfl, List.map_id,
      placed] at same
    obtain ⟨result, marked, projected⟩ := Option.map_eq_some_iff.mp same
    rw [Writing.news, staging, Option.map_some]
    dsimp only
    rw [marked]
    exact congrArg some (Prod.mk.inj projected).1

/-! ## Lineage -/

/-- A call finds the source that it stamps in every row that it updates, and none of its three
texts is the token for `NULL`; what it proposes and keeps does not matter. -/
def stampsWhole (table : Table V) (coercion : Coercion) (w : Writing) (rows : List (Row V)) :
    Bool :=
  let rules := rules table (mergeOf table w.call)
  ((w.news table coercion).getD []).all (fun new =>
    match rules.key new with
    | none => w.call.stamp.whole
    | some key =>
      match Upsert.find rules key rows with
      | none => w.call.stamp.whole
      | some old => decide (rules.compared old = rules.compared new) ||
          rows.all (fun row => !(Upsert.holds rules key row) || updatesWhole table w.moment w.call row))

/-- Where the marks say what a row should carry, a call keeps them right exactly if it stamps
whole. -/
theorem perform_carries {M : Type} {w : Writing} {mark : M} {rows rows' : List (Row V × M)}
    (right : Row V × M → Prop)
    (own : ∀ row, right (row, mark) ↔ carries table w.moment row w.call.stamp = true)
    (performed : w.perform table coercion mark rows = some rows')
    (before : ∀ entry ∈ rows, right entry) :
    (∀ entry ∈ rows', right entry) ↔
      stampsWhole table coercion w (rows.map Prod.fst) = true := by
  obtain ⟨staged, outcomes, staging, once, placed⟩ := perform_ok performed
  have different : (((proposed table (mergeOf table w.call) staged
      (w.moment + w.call.records.length)).map (fun new => (new, mark))).filterMap
        (fun entry => (rules table (mergeOf table w.call)).key entry.1)).Nodup := by
    rw [List.filterMap_map]
    exact of_decide_eq_true once
  rw [Upsert.forall_putAll_iff (lawful table w.call).marked placed different before]
  simp only [stampsWhole, Writing.news, staging, Option.map_some, Option.getD_some,
    List.forall_mem_map, List.all_eq_true]
  apply forall₂_congr
  intro new member
  have inserted : right (new, mark) ↔ w.call.stamp.whole = true := by
    rw [own, proposed_carries staging member]
  have found (key : List V) : (Upsert.find (Upsert.marked (rules table (mergeOf table w.call)))
      key rows).map Prod.fst =
        Upsert.find (rules table (mergeOf table w.call)) key (rows.map Prod.fst) :=
    Upsert.find_marked key rows
  rw [Upsert.Writes, show (Upsert.marked (rules table (mergeOf table w.call))).key (new, mark) =
    (rules table (mergeOf table w.call)).key new from rfl]
  cases keyed : (rules table (mergeOf table w.call)).key new with
  | none => exact inserted
  | some key =>
    dsimp only
    rw [← found key]
    cases Upsert.find (Upsert.marked (rules table (mergeOf table w.call))) key rows with
    | none => exact inserted
    | some old =>
      simp only [Option.map_some, Bool.or_eq_true, decide_eq_true_eq, List.all_eq_true,
        List.forall_mem_map, Bool.not_eq_true']
      apply or_congr Iff.rfl
      apply forall₂_congr
      intro entry within
      have updated : right ((Upsert.marked (rules table (mergeOf table w.call))).update entry
          (new, mark)) ↔ updatesWhole table w.moment w.call entry.1 = true := by
        rw [← update_carries staging member]
        exact own _
      rw [updated, ← Bool.not_eq_true, Upsert.holds_iff, ← imp_iff_not_or]
      exact Iff.rfl

/-- Where the source is part of the key, a call whose texts are not the token stamps whole. -/
theorem stampsWhole_of_keyed {w : Writing} (keyed : "source".str ∈ w.call.conflictCols)
    (whole : w.call.stamp.whole = true) (rows : List (Row V)) :
    stampsWhole table coercion w rows = true := by
  rw [stampsWhole, List.all_eq_true]
  intro new member
  cases staging : stage table coercion w.call w.nowIso w.moment with
  | none =>
    rw [Writing.news, staging] at member
    cases member
  | some staged =>
    rw [Writing.news, staging, Option.map_some, Option.getD_some] at member
    split
    · exact whole
    · rename_i key newKey
      split
      · exact whole
      · rw [Bool.or_eq_true, List.all_eq_true]
        right
        intro row within
        rw [Bool.or_eq_true, Bool.not_eq_true', ← Bool.not_eq_true, Upsert.holds_iff,
          ← imp_iff_not_or]
        intro rowKey
        have parts := whole
        simp only [Stamp.whole, Stamp.entries, Call.stamp, List.all_cons, List.all_nil,
          Bool.and_true, Bool.and_eq_true] at parts
        have source : ("source".str, w.call.source) ∈ w.call.stamp.entries :=
          List.mem_cons_self
        obtain ⟨v, value, here⟩ := carriesEntry_iff.mp
          ((proposed_carriesEntry staging member source).mpr (bne_iff_ne.mp parts.1))
        have agree := List.map_inj_left.mp
          ((keyOf_eq_some.mp rowKey).trans (keyOf_eq_some.mp newKey).symm)
        have carried : carriesEntry table w.moment row ("source".str, w.call.source) = true :=
          carriesEntry_iff.mpr ⟨v, value, (agree "source".str keyed).trans here⟩
        rw [updatesWhole, carried, parts.2.1, parts.2.2]
        rfl

/-- Who wrote a row, and when. -/
structure Writer where
  stamp : Stamp
  moment : Nat

def Writing.writer (w : Writing) : Writer := ⟨w.call.stamp, w.moment⟩

/-- A table with its rows and who wrote each last. -/
def step (table : Table V) (coercion : Coercion) (rows : List (Row V × Writer)) (w : Writing) :
    Option (List (Row V × Writer)) := w.perform table coercion w.writer rows

/-- Whatever a table held before, the rows that a call inserts or updates carry the three texts
of the call exactly if the call finds its own source in the rows that it updates and none of
the texts is the token for `NULL`. In a run of calls on an empty table every row carries
throughout what its last writer stamped exactly if this is so for each of the calls. -/
theorem lineage_iff_stampsWhole (table : Table V) (coercion : Coercion) :
    (∀ (w : Writing) (rows : List (Row V)) (rows' : List (Row V × Bool)),
      w.perform table coercion true (rows.map (fun row => (row, false))) = some rows' →
        ((∀ entry ∈ rows', entry.2 = true → carries table w.moment entry.1 w.call.stamp = true) ↔
          stampsWhole table coercion w rows = true)) ∧
    ∀ (writings : List Writing) (reached : List (Row V × Writer)),
      run (step table coercion) [] writings = some reached →
        ((∀ before, before <+: writings → ∀ rows, run (step table coercion) [] before = some rows →
            ∀ entry ∈ rows, carries table entry.2.moment entry.1 entry.2.stamp = true) ↔
          (run (guarded (fun rows w => stampsWhole table coercion w (rows.map Prod.fst))
            (step table coercion)) [] writings).isSome = true) := by
  constructor
  · intro w rows rows' performed
    have unmarked : (rows.map (fun row => (row, false))).map Prod.fst = rows := by
      rw [List.map_map]
      exact List.map_id rows
    rw [perform_carries
      (fun entry => entry.2 = true → carries table w.moment entry.1 w.call.stamp = true)
      ?_ performed ?_, unmarked]
    · intro row
      exact ⟨fun right => right rfl, fun carried _ => carried⟩
    · intro entry listed written
      obtain ⟨row, -, rfl⟩ := List.mem_map.mp listed
      cases written
  · intro writings reached ran
    apply guarded_exact _ _ ran
    · intro rows w next before stepped
      exact (perform_carries
        (fun entry => carries table entry.2.moment entry.1 entry.2.stamp = true)
        (fun row => Iff.rfl) stepped before).symm
    · intro entry listed
      cases listed

/-! ## A row of two writers -/

/-- Prices by ticker, whoever they are from. -/
def prices : Table Str :=
  textTable [textColumn "ticker".str false false, textColumn "px".str true false]
    [["ticker".str]] (fun _ _ => none)

/-- A price that a writer sends. -/
def priceOf (writer px : String) : Writing where
  call := {
    cols := ["ticker".str, "px".str]
    records := [.object [("ticker".str, .string "ACME".str), ("px".str, .string px.str)]]
    source := writer.str
    sourceEndpoint := writer.str
    sourceRunId := writer.str
    conflictCols := ["ticker".str] }
  nowIso := "t".str
  moment := 0

/-- Prices of one writer carry that writer throughout. -/
theorem ownPrices_carried : ∀ before, before <+: [priceOf "reuters" "10", priceOf "reuters" "11"] →
    ∀ rows, run (step prices plainCoercion) [] before = some rows →
      ∀ entry ∈ rows, carries prices entry.2.moment entry.1 entry.2.stamp = true := by
  have ends : (run (step prices plainCoercion) []
      [priceOf "reuters" "10", priceOf "reuters" "11"]).isSome = true := by
    decide +kernel
  obtain ⟨reached, ran⟩ := Option.isSome_iff_exists.mp ends
  exact ((lineage_iff_stampsWhole prices plainCoercion).2 _ reached ran).mpr (by decide +kernel)

/-- A price is updated by another writer: its source is of the first, and its endpoint and run
are of the second. -/
theorem price_mixed : ∃ reached,
    run (step prices plainCoercion) [] [priceOf "reuters" "10", priceOf "ice" "11"] =
        some reached ∧
      ∃ entry ∈ reached, entry.2.stamp = (priceOf "ice" "11").call.stamp ∧
        carries prices 0 entry.1 (priceOf "ice" "11").call.stamp = false ∧
        carries prices 0 entry.1 (priceOf "reuters" "10").call.stamp = false := by
  have mixed : (run (step prices plainCoercion) []
      [priceOf "reuters" "10", priceOf "ice" "11"]).any (fun reached => reached.any (fun entry =>
        entry.2.stamp == (priceOf "ice" "11").call.stamp &&
          (!carries prices 0 entry.1 (priceOf "ice" "11").call.stamp &&
            !carries prices 0 entry.1 (priceOf "reuters" "10").call.stamp))) = true := by
    decide +kernel
  obtain ⟨reached, ran, some_row⟩ := (Option.any_eq_true _ _).mp mixed
  obtain ⟨entry, listed, facts⟩ := List.any_eq_true.mp some_row
  simp only [Bool.and_eq_true, Bool.not_eq_true', beq_iff_eq] at facts
  exact ⟨reached, ran, entry, listed, facts⟩

end LumidPlatform.Write.Engine
