import Mathlib.Data.List.ReduceOption
import LumidPlatform.Write.Chunks

/-!
# Merging the same records again

The merge compares what it writes with what is there, so that the same records change
nothing when they come again. They are not quite the same, though: what the records leave
out is filled in by the defaults of the staging table and by the clock, a text such as `now`
is read anew in each transaction, and a row with `NULL` in its key is new every time.
-/

namespace LumidPlatform.Write.Engine

variable {V : Type} {table : Table V} {call : Call} {coercion : Coercion} {nowIso : Str}
  {moment : Nat} {rows : List (Row V)} {merged : Merged V}

/-- Nothing is counted where every row was kept. -/
theorem counts_zero_iff : merged.inserted = 0 ∧ merged.updated = 0 ↔
    ∀ outcome ∈ merged.outcomes, outcome = .kept := by
  simp only [Merged.inserted, Merged.updated, List.count_eq_zero]
  constructor
  · rintro ⟨noInsert, noUpdate⟩ outcome member
    cases outcome with
    | inserted => exact absurd member noInsert
    | updated => exact absurd member noUpdate
    | kept => rfl
  · intro kept
    constructor
    · intro member
      cases kept _ member
    · intro member
      cases kept _ member

variable [DecidableEq V]

/-- A call that counts nothing leaves every row. -/
theorem rows_of_counts_zero
    (ran : copyAndMerge table coercion call nowIso moment rows = .ok merged)
    (zero : merged.inserted = 0 ∧ merged.updated = 0) : merged.rows = rows := by
  obtain ⟨-, -, staged, -, -, placed⟩ := copyAndMerge_ok.mp ran
  exact Upsert.putAll_kept placed (counts_zero_iff.mp zero)

/-! ## Rows that are proposed again -/

/-- The rows of a second proposal repeat those of a first: each has a full key of its own, and
in every column that is compared it is like the last row of that key in the first proposal, or
like the row that the table had where the first proposal has none. -/
def ProposedAgain (table : Table V) (call : Call) (rows first second : List (Row V)) : Prop :=
  let merge := mergeOf table call
  affectsOnce merge second = true ∧
    ∀ row ∈ second, ∃ key, keyOf merge.conflictCols row = some key ∧
      (Upsert.written (rules table merge) first key).or
        (Upsert.look (rules table merge) rows key) = some (valuesOf merge.distinctCols row)

/-- The same call made again, at a later moment, inserts and updates nothing and leaves every
row exactly if it proposes rows again. -/
theorem again_iff_proposed
    (ran : copyAndMerge table coercion call nowIso moment rows = .ok merged)
    (nowIso' : Str) (moment' : Nat) :
    (∃ merged', copyAndMerge table coercion call nowIso' moment' merged.rows = .ok merged' ∧
        merged'.inserted = 0 ∧ merged'.updated = 0 ∧ merged'.rows = merged.rows) ↔
      ∃ staged staged', stage table coercion call nowIso moment = some staged ∧
        stage table coercion call nowIso' moment' = some staged' ∧
        ProposedAgain table call rows
          (proposed table (mergeOf table call) staged (moment + call.records.length))
          (proposed table (mergeOf table call) staged' (moment' + call.records.length)) := by
  obtain ⟨known, ready, staged, staging, -, placed⟩ := copyAndMerge_ok.mp ran
  have holds (key : List V) := Upsert.look_putAll (lawful table call) placed key
  constructor
  · rintro ⟨merged', again, noInsert, noUpdate, -⟩
    obtain ⟨-, -, staged', staging', once, placed'⟩ := copyAndMerge_ok.mp again
    refine ⟨staged, staged', staging, staging', once, fun row member => ?_⟩
    obtain ⟨key, keyed, held⟩ := Upsert.putAll_kept_iff.mp
      ⟨_, _, placed', counts_zero_iff.mp ⟨noInsert, noUpdate⟩⟩ row member
    exact ⟨key, keyed, (holds key).symm.trans held⟩
  · rintro ⟨staged₁, staged', staging₁, staging', once, repeats⟩
    obtain rfl : staged = staged₁ := Option.some.inj (staging.symm.trans staging₁)
    have kept : ∀ row ∈ proposed table (mergeOf table call) staged'
        (moment' + call.records.length), ∃ key,
          (rules table (mergeOf table call)).key row = some key ∧
            Upsert.look (rules table (mergeOf table call)) merged.rows key =
              some ((rules table (mergeOf table call)).compared row) := by
      intro row member
      obtain ⟨key, keyed, held⟩ := repeats row member
      exact ⟨key, keyed, (holds key).trans held⟩
    obtain ⟨rows', outcomes, placed', all⟩ := Upsert.putAll_kept_iff.mpr kept
    obtain ⟨noInsert, noUpdate⟩ := (@counts_zero_iff V ⟨rows', outcomes⟩).mpr all
    exact ⟨⟨rows', outcomes⟩, copyAndMerge_ok.mpr ⟨known, ready, staged', staging', once, placed'⟩,
      noInsert, noUpdate, Upsert.putAll_kept placed' all⟩

/-! ## Records that are read again -/

/-- What the records of a call are read as in a transaction, each on its line of the `COPY`:
nothing where a text is none of its column's type, or where a column that has to have a value
gets none. -/
def readings (table : Table V) (coercion : Coercion) (call : Call) (nowIso : Str)
    (moment : Nat) : List (Option (Row V)) :=
  ((buildCsv coercion (dtypeOf table) call
      (if hasIngestTs table then some nowIso else none)).zipIdx moment).map
    (fun line => copyRow table (fullCols table call) line.1 moment line.2)

omit [DecidableEq V] in
theorem copyRows_eq_some {names : List Str} {began moment : Nat} {lines : List (List Str)}
    {staged : List (Row V)} : copyRows table names began moment lines = some staged ↔
      (lines.zipIdx moment).map (fun line => copyRow table names line.1 began line.2) =
        staged.map some := by
  induction lines generalizing moment staged with
  | nil =>
    rw [copyRows, List.zipIdx_nil, List.map_nil, Option.some.injEq, List.nil_eq, List.nil_eq,
      List.map_eq_nil_iff]
  | cons fields rest inductionHypothesis =>
    rw [copyRows, List.zipIdx_cons, List.map_cons]
    dsimp only
    cases staged with
    | nil => cases copyRow table names fields began moment <;>
        cases copyRows table names began (moment + 1) rest <;> simp
    | cons row rows =>
      rw [List.map_cons, List.cons.injEq, ← inductionHypothesis]
      cases copyRow table names fields began moment with
      | none => simp
      | some first =>
        cases copyRows table names began (moment + 1) rest with
        | none => simp
        | some others => simp

omit [DecidableEq V] in
/-- Records are staged where all of them can be read. -/
theorem stage_eq_some {staged : List (Row V)} :
    stage table coercion call nowIso moment = some staged ↔
      copies table (fullCols table call) = true ∧
        readings table coercion call nowIso moment = staged.map some := by
  rw [stage, readings, ← copyRows_eq_some]
  split_ifs with ready
  · simp [ready]
  · simp [ready]
  · simp [ready]
  · simp [ready]

/-- The records are read again as they were: each can be read, and the last one of each key has
a full key, at which the last record that was read with this key before, or the row that the
table had where there is none, is like it in every column that is compared. -/
structure RecordsAgain (table : Table V) (call : Call) (rows : List (Row V))
    (first second : List (Option (Row V))) : Prop where
  readable : ∀ reading ∈ second, reading.isSome = true
  kept : ∀ before row after, second = before ++ some row :: after →
    (∀ later, some later ∈ after →
      valuesOf call.conflictCols later ≠ valuesOf call.conflictCols row) →
    ∃ key, keyOf call.conflictCols row = some key ∧
      ∃ like, (lastOf call.conflictCols first.reduceOption key).or
          (rows.find? (hasKey call.conflictCols key)) = some like ∧
        valuesOf (mergeOf table call).distinctCols like =
          valuesOf (mergeOf table call).distinctCols row

/-! ## The rows that are selected -/

variable {staged : List (Row V)} {row : Row V}

/-- Rows are kept where no later one is like them. -/
theorem mem_distinctOn {cols : List Str} : row ∈ distinctOn cols staged ↔
    ∃ before after, staged = before ++ row :: after ∧
      ∀ later ∈ after, valuesOf cols later ≠ valuesOf cols row := by
  induction staged with
  | nil => simp [distinctOn]
  | cons first rest inductionHypothesis =>
    have apart : (∃ before after, first :: rest = before ++ row :: after ∧
          ∀ later ∈ after, valuesOf cols later ≠ valuesOf cols row) ↔
        (first = row ∧ ∀ later ∈ rest, valuesOf cols later ≠ valuesOf cols row) ∨
          row ∈ distinctOn cols rest := by
      rw [inductionHypothesis]
      constructor
      · rintro ⟨before, after, whole, last⟩
        cases before with
        | nil =>
          obtain ⟨rfl, rfl⟩ := List.cons.inj whole
          exact Or.inl ⟨rfl, last⟩
        | cons other before => exact Or.inr ⟨before, after, (List.cons.inj whole).2, last⟩
      · rintro (⟨rfl, last⟩ | ⟨before, after, rfl, last⟩)
        · exact ⟨[], rest, rfl, last⟩
        · exact ⟨first :: before, after, rfl, last⟩
    rw [apart, distinctOn]
    by_cases again : rest.any (fun later => valuesOf cols later = valuesOf cols first) = true
    · rw [if_pos again, or_iff_right]
      rintro ⟨rfl, last⟩
      obtain ⟨later, within, same⟩ := List.any_eq_true.mp again
      exact last later within (of_decide_eq_true same)
    · rw [if_neg again, List.mem_cons]
      apply or_congr_left
      constructor
      · rintro rfl
        refine ⟨rfl, fun later within same => again ?_⟩
        exact List.any_eq_true.mpr ⟨later, within, decide_eq_true same⟩
      · rintro ⟨rfl, -⟩
        rfl

/-- No two rows that are kept are alike. -/
theorem distinctOn_pairwise (cols : List Str) (rows : List (Row V)) :
    (distinctOn cols rows).Pairwise (fun row later => valuesOf cols later ≠ valuesOf cols row) := by
  induction rows with
  | nil => exact .nil
  | cons first rest inductionHypothesis =>
    rw [distinctOn]
    split_ifs with again
    · exact inductionHypothesis
    · refine .cons (fun later kept same => again ?_) inductionHypothesis
      exact List.any_eq_true.mpr ⟨later, mem_of_mem_distinctOn kept, decide_eq_true same⟩

/-- Where the key is not generated, no key is proposed twice. -/
theorem affectsOnce_proposed (ready : prepares table (mergeOf table call) = true)
    (noId : "id".str ∉ call.conflictCols) (at_ : Nat) :
    affectsOnce (mergeOf table call) (proposed table (mergeOf table call) staged at_) = true := by
  have keys (row : Row V) (at_ : Nat) : keyOf (mergeOf table call).conflictCols
      (complete table (mergeOf table call) row at_) = keyOf (mergeOf table call).conflictCols row :=
    keyOf_complete ready noId at_
  have unnumbered : (proposed table (mergeOf table call) staged at_).filterMap
      (keyOf (mergeOf table call).conflictCols) =
        (selected table (mergeOf table call) staged).filterMap
          (keyOf (mergeOf table call).conflictCols) := by
    rw [proposed, List.filterMap_map]
    simp only [Function.comp_def, keys]
    rw [← Function.comp_def, ← List.filterMap_map, List.zipIdx_map_fst]
  rw [affectsOnce, decide_eq_true_eq, unnumbered, selected,
    ((List.perm_insertionSort _ _).filterMap _).nodup_iff]
  refine List.Pairwise.filterMap _ (fun row later apart key has key' has' => ?_)
    (distinctOn_pairwise _ _)
  rintro rfl
  exact apart ((keyOf_eq_some.mp has').trans (keyOf_eq_some.mp has).symm)

/-- What is proposed repeats what was proposed exactly if the last staged row of each key repeats
what the first call or the table holds at its key. -/
theorem proposedAgain_iff {staged' : List (Row V)} {at_ : Nat}
    (ran : copyAndMerge table coercion call nowIso moment rows = .ok merged)
    (noId : "id".str ∉ call.conflictCols)
    (staging : stage table coercion call nowIso moment = some staged)
    {nowIso' : Str} {moment' : Nat}
    (staging' : stage table coercion call nowIso' moment' = some staged') :
    ProposedAgain table call rows
        (proposed table (mergeOf table call) staged (moment + call.records.length))
        (proposed table (mergeOf table call) staged' at_) ↔
      ∀ row ∈ distinctOn call.conflictCols staged', ∃ key,
        keyOf call.conflictCols row = some key ∧
          ∃ like, (lastOf call.conflictCols staged key).or
              (rows.find? (hasKey call.conflictCols key)) = some like ∧
            valuesOf (mergeOf table call).distinctCols like =
              valuesOf (mergeOf table call).distinctCols row := by
  obtain ⟨-, ready, staged₁, staging₁, -, placed⟩ := copyAndMerge_ok.mp ran
  obtain rfl : staged = staged₁ := Option.some.inj (staging.symm.trans staging₁)
  obtain ⟨staged₂, staging₂, holds⟩ := look_call ran noId
  obtain rfl : staged = staged₂ := Option.some.inj (staging.symm.trans staging₂)
  have held (key : List V) (value : List (Option V)) :
      (Upsert.written (rules table (mergeOf table call))
          (proposed table (mergeOf table call) staged (moment + call.records.length)) key).or
          (Upsert.look (rules table (mergeOf table call)) rows key) = some value ↔
        ∃ like, (lastOf call.conflictCols staged key).or
            (rows.find? (hasKey call.conflictCols key)) = some like ∧
          valuesOf (mergeOf table call).distinctCols like = value := by
    rw [← Upsert.look_putAll (lawful table call) placed key, holds key, Upsert.look,
      show Upsert.find (rules table (mergeOf table call)) key rows =
        rows.find? (hasKey call.conflictCols key) from rfl,
      show (rules table (mergeOf table call)).compared =
        valuesOf (mergeOf table call).distinctCols from rfl,
      ← Option.map_or, Option.map_eq_some_iff]
  have compared (row : Row V) (at_ : Nat) : valuesOf (mergeOf table call).distinctCols
      (complete table (mergeOf table call) row at_) =
        valuesOf (mergeOf table call).distinctCols row :=
    List.map_congr_left fun name among => complete_inserted (distinct_inserted among)
  constructor
  · rintro ⟨-, again⟩ row kept
    obtain ⟨at_, member⟩ := @proposed_of_selected V table row _ staged' at_ _
      ((selected_perm ready staging').mem_iff.mpr kept)
    obtain ⟨key, keyed, same⟩ := again _ member
    rw [compared] at same
    exact ⟨key, (keyOf_complete ready noId at_).symm.trans keyed, (held key _).mp same⟩
  · intro again
    refine ⟨affectsOnce_proposed ready noId at_, fun new member => ?_⟩
    obtain ⟨entry, listed, rfl⟩ := List.mem_map.mp member
    have chosen : entry.1 ∈ selected table (mergeOf table call) staged' :=
      List.fst_mem_of_mem_zipIdx listed
    obtain ⟨key, keyed, same⟩ := again entry.1 ((selected_perm ready staging').mem_iff.mp chosen)
    refine ⟨key, (keyOf_complete ready noId entry.2).trans keyed, (held key _).mpr ?_⟩
    rw [compared]
    exact same

/-! ## Twice in a row -/

/-- What a call made again has to find: its records read as they were or, where the key contains
the `id` that each insertion generates, the rows that it proposes there already. -/
def Repeats (table : Table V) (coercion : Coercion) (call : Call) (rows : List (Row V))
    (nowIso : Str) (moment : Nat) (nowIso' : Str) (moment' : Nat) : Prop :=
  if "id".str ∈ call.conflictCols then
    ∃ staged staged', stage table coercion call nowIso moment = some staged ∧
      stage table coercion call nowIso' moment' = some staged' ∧
      ProposedAgain table call rows
        (proposed table (mergeOf table call) staged (moment + call.records.length))
        (proposed table (mergeOf table call) staged' (moment' + call.records.length))
  else
    RecordsAgain table call rows (readings table coercion call nowIso moment)
      (readings table coercion call nowIso' moment')

omit [DecidableEq V] in
/-- Readings that are all there are those of a list of rows. -/
theorem readings_of_isSome {readings : List (Option (Row V))}
    (readable : ∀ reading ∈ readings, reading.isSome = true) :
    ∃ staged : List (Row V), readings = staged.map some := by
  induction readings with
  | nil => exact ⟨[], rfl⟩
  | cons reading rest inductionHypothesis =>
    obtain ⟨row, rfl⟩ := Option.isSome_iff_exists.mp (readable reading List.mem_cons_self)
    obtain ⟨staged, rfl⟩ := inductionHypothesis fun other later =>
      readable other (List.mem_cons_of_mem _ later)
    exact ⟨row :: staged, rfl⟩

/-- The same call made again, at a later moment, inserts and updates nothing and leaves every
row exactly if its records are read as they were. -/
theorem again_iff_repeats
    (ran : copyAndMerge table coercion call nowIso moment rows = .ok merged)
    (nowIso' : Str) (moment' : Nat) :
    (∃ merged', copyAndMerge table coercion call nowIso' moment' merged.rows = .ok merged' ∧
        merged'.inserted = 0 ∧ merged'.updated = 0 ∧ merged'.rows = merged.rows) ↔
      Repeats table coercion call rows nowIso moment nowIso' moment' := by
  rw [again_iff_proposed ran nowIso' moment', Repeats]
  split_ifs with generated
  · rfl
  obtain ⟨-, -, staged, staging, -, -⟩ := copyAndMerge_ok.mp ran
  obtain ⟨ready, first⟩ := stage_eq_some.mp staging
  have reduced : (readings table coercion call nowIso moment).reduceOption = staged := by
    rw [first, List.reduceOption, List.filterMap_map]
    exact List.filterMap_some
  constructor
  · rintro ⟨staged₁, staged', staging₁, staging', again⟩
    obtain rfl : staged = staged₁ := Option.some.inj (staging.symm.trans staging₁)
    obtain ⟨-, second⟩ := stage_eq_some.mp staging'
    have kept := (proposedAgain_iff ran generated staging staging').mp again
    rw [← reduced] at kept
    refine ⟨fun reading member => ?_, fun before row after whole last => ?_⟩
    · rw [second] at member
      obtain ⟨row, -, rfl⟩ := List.mem_map.mp member
      rfl
    · rw [second] at whole
      obtain ⟨before', rest, rfl, -, tail⟩ := List.map_eq_append_iff.mp whole
      obtain ⟨row', after', rfl, same, rfl⟩ := List.map_eq_cons_iff.mp tail
      obtain rfl := Option.some.inj same
      refine kept row' (mem_distinctOn.mpr ⟨before', after', rfl, fun later within => ?_⟩)
      exact last later (List.mem_map_of_mem within)
  · intro again
    obtain ⟨staged', second⟩ := readings_of_isSome again.readable
    have staging' := stage_eq_some.mpr ⟨ready, second⟩
    refine ⟨staged, staged', staging, staging', ?_⟩
    rw [proposedAgain_iff ran generated staging staging', ← reduced]
    intro row member
    obtain ⟨before, after, rfl, last⟩ := mem_distinctOn.mp member
    refine again.kept (before.map some) row (after.map some) ?_ fun later within => ?_
    · rw [second, List.map_append, List.map_cons]
    · obtain ⟨other, among, same⟩ := List.mem_map.mp within
      obtain rfl := Option.some.inj same
      exact last other among

/-! ## A default that is the clock -/

/-- Quotes by ticker. The time a quote was seen is set by default. -/
def quotes : Table Str :=
  textTable [textColumn "ticker".str false false, textColumn "px".str true false,
      textColumn "seen_at".str true true] [["ticker".str]]
    (fun name moment => if name = "seen_at".str then some (Text.showNat moment) else none)

/-- A call with one quote. -/
def quoteCall (members : JsonMap) : Call where
  cols := members.map Prod.fst
  records := [.object members]
  source := "vendor".str
  sourceEndpoint := "feed".str
  sourceRunId := "run".str
  conflictCols := ["ticker".str]

def seenQuote : Call := quoteCall [("ticker".str, .string "ACME".str), ("px".str, .string "10".str),
  ("seen_at".str, .string "noon".str)]

def unseenQuote : Call :=
  quoteCall [("ticker".str, .string "ACME".str), ("px".str, .string "10".str)]

/-- What a call counts, made a first time and again. -/
def countsTwice (call : Call) : Option ((Nat × Nat) × (Nat × Nat)) :=
  match copyAndMerge quotes plainCoercion call "t".str 0 [] with
  | .error _ => none
  | .ok first =>
    match copyAndMerge quotes plainCoercion call "t".str 10 first.rows with
    | .error _ => none
    | .ok second => some ((first.inserted, first.updated), (second.inserted, second.updated))

theorem countsTwice_eq_some {call : Call} {first second : Nat × Nat}
    (counted : countsTwice call = some (first, second)) :
    ∃ merged merged', copyAndMerge quotes plainCoercion call "t".str 0 [] = .ok merged ∧
      copyAndMerge quotes plainCoercion call "t".str 10 merged.rows = .ok merged' ∧
      (merged'.inserted, merged'.updated) = second := by
  rw [countsTwice] at counted
  split at counted
  · cases counted
  · rename_i merged ran
    split at counted
    · cases counted
    · rename_i merged' again
      obtain ⟨-, same⟩ := Prod.mk.inj (Option.some.inj counted)
      exact ⟨merged, merged', ran, again, same⟩

/-- A quote that says when it was seen is read as it was before. -/
theorem seenQuote_repeats :
    Repeats quotes plainCoercion seenQuote [] "t".str 0 "t".str 10 := by
  have counted : countsTwice seenQuote = some ((1, 0), (0, 0)) := by decide +kernel
  obtain ⟨merged, merged', ran, again, zero⟩ := countsTwice_eq_some counted
  obtain ⟨noInsert, noUpdate⟩ := Prod.mk.inj zero
  exact (again_iff_repeats ran "t".str 10).mp
    ⟨merged', again, noInsert, noUpdate, rows_of_counts_zero again ⟨noInsert, noUpdate⟩⟩

/-- A quote that does not say it gets another time when it comes again, and is updated. -/
theorem unseenQuote_updated : ∃ merged,
    copyAndMerge quotes plainCoercion unseenQuote "t".str 0 [] = .ok merged ∧
      ¬∃ merged', copyAndMerge quotes plainCoercion unseenQuote "t".str 10 merged.rows =
          .ok merged' ∧
        merged'.inserted = 0 ∧ merged'.updated = 0 ∧ merged'.rows = merged.rows := by
  have counted : countsTwice unseenQuote = some ((1, 0), (0, 1)) := by decide +kernel
  obtain ⟨merged, merged', ran, again, counts⟩ := countsTwice_eq_some counted
  refine ⟨merged, ran, ?_⟩
  rintro ⟨other, also, -, noUpdate, -⟩
  obtain rfl : merged' = other := Except.ok.inj (again.symm.trans also)
  rw [noUpdate] at counts
  exact absurd (Prod.mk.inj counts).2 (by decide)

end LumidPlatform.Write.Engine
