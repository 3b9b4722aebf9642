import LumidPlatform.Ingest.Closing

/-!
# What a stream reports

A stream adds up what its chunks report. The counts add up to those of one call for all
records. But each chunk numbers its rejected records from zero, and that every record was
rejected is a failure for one call only. So the reports agree exactly when nothing behind
the first chunk is rejected and something is accepted.
-/

namespace LumidPlatform.Ingest.Reports

open LumidPlatform.Write LumidPlatform.Ingest.Core LumidPlatform.Ingest.Stream
  LumidPlatform.Ingest.Closing

variable {D : Type} {unicode : Unicode} {p : IngestParams} {table : TableMeta}

/-! ## Chunks -/

/-- `STREAM_FLUSH`. -/
def streamFlush : Nat := 10000

/-- `records.chunks(STREAM_FLUSH)`. -/
def chunksOf (records : List Json) : List (List Json) :=
  (List.range ((records.length + (streamFlush - 1)) / streamFlush)).map
    (fun n => (records.drop (n * streamFlush)).take streamFlush)

/-- The first chunk is cut off, and the rest is cut likewise. -/
theorem chunksOf_step {records : List Json} (some : records ≠ []) :
    chunksOf records = records.take streamFlush :: chunksOf (records.drop streamFlush) := by
  have length := List.length_pos_iff.mpr some
  have count : (records.length + (streamFlush - 1)) / streamFlush =
      ((records.drop streamFlush).length + (streamFlush - 1)) / streamFlush + 1 := by
    rw [List.length_drop]
    simp only [streamFlush]
    omega
  unfold chunksOf
  rw [count]
  generalize streamFlush = size
  rw [List.range_succ_eq_map, List.map_cons, List.map_map, Nat.zero_mul, List.drop_zero]
  congr 1
  apply List.map_congr_left
  intro n _
  rw [Function.comp_apply, List.drop_drop, Nat.succ_mul, Nat.add_comm]

/-- No chunk is longer than allowed. -/
theorem length_of_mem_chunksOf {records chunk : List Json} (member : chunk ∈ chunksOf records) :
    chunk.length ≤ streamFlush := by
  obtain ⟨n, _, rfl⟩ := List.mem_map.mp member
  exact List.length_take_le _ _

/-! ## Numbering -/

/-- The rejected entries of two lists, one after the other. -/
theorem validateFrom_append (index : Nat) (before after : List Json) :
    (validateFrom table index (before ++ after)).2 =
      (validateFrom table index before).2 ++
        (validateFrom table (index + before.length) after).2 := by
  induction before generalizing index with
  | nil => rfl
  | cons record rest inductionHypothesis =>
    rw [List.cons_append, validateFrom, validateFrom]
    dsimp only
    have later := inductionHypothesis (index + 1)
    rw [Nat.add_right_comm index 1, Nat.add_assoc index] at later
    cases validateOne table record with
    | none => exact later
    | some error => exact congrArg (⟨index, error, record⟩ :: ·) later

/-- A rejected entry has the number of its record. -/
theorem index_of_rejected {index : Nat} {records : List Json} {entry : Rejected}
    (member : entry ∈ (validateFrom table index records).2) :
    index ≤ entry.index ∧ entry.index < index + records.length := by
  induction records generalizing index with
  | nil => cases member
  | cons record rest inductionHypothesis =>
    rw [validateFrom] at member
    dsimp only at member
    rw [List.length_cons]
    cases wrong : validateOne table record with
    | none =>
      rw [wrong] at member
      have later := inductionHypothesis member
      omega
    | some error =>
      rw [wrong] at member
      rcases List.mem_cons.mp member with rfl | member
      · dsimp only
        omega
      · have later := inductionHypothesis member
        omega

/-- How many are rejected does not depend on the numbering. -/
theorem length_rejected (index : Nat) (records : List Json) :
    (validateFrom table index records).2.length =
      records.countP (fun record => !accepts table record) := by
  rw [← List.length_map (f := Rejected.record), validateFrom_rejected, List.countP_eq_length_filter]

/-! ## What a call reports -/

/-- The status of a batch: failed when all of it was rejected. -/
def statusOf (parsed : List Json) (rejected : List Rejected) : Core.Status :=
  if parsed.isEmpty && !rejected.isEmpty then .failed
  else if rejected.isEmpty then .ok else .partly

/-- What is reported of the records themselves. -/
structure Reported (table : TableMeta) (records : List Json) (result : IngestResult) : Prop where
  received : result.received = records.length
  rejected : result.rejected = (validateBatch table records).2
  failed : result.failed = (validateBatch table records).2.length
  status : result.status = statusOf (validateBatch table records).1 (validateBatch table records).2

/-- The engines know the table of the parameters. -/
def Known (engines : Engines D) (p : IngestParams) (table : TableMeta) : Prop :=
  ∀ db, ∃ found, engines.tableMeta p.targetSchema p.targetTable db = (.ok (some table), found)

variable {engine : Engines D} {source : RunSource} {records : List Json} {w w' : World D}
  {result : IngestResult}

/-- Every result reports how its records were validated. -/
theorem ingest_reported (known : Known engine p table)
    (returned : ingest unicode engine true p source records w = (.returned (.ok result), w')) :
    paramsError unicode p = none ∧ Reported table records result := by
  obtain ⟨found, answered⟩ := known w.db
  rw [ingest] at returned
  cases checked : paramsError unicode p with
  | some error =>
    rw [checked] at returned
    cases (Prod.mk.inj returned).1
  | none =>
    refine ⟨rfl, ?_⟩
    rw [checked, answered] at returned
    simp only [validated, if_true] at returned
    by_cases refused : ((validateBatch table records).1.isEmpty &&
        !(validateBatch table records).2.isEmpty) = true
    · rw [if_pos refused] at returned
      obtain rfl := Except.ok.inj (Outcome.returned.inj (Prod.mk.inj returned).1)
      exact ⟨rfl, rfl, rfl, by rw [statusOf, if_pos refused]⟩
    · rw [if_neg refused] at returned
      have accounted : statusOf (validateBatch table records).1 (validateBatch table records).2 =
          if (validateBatch table records).2.isEmpty then .ok else .partly := if_neg refused
      cases opening : source.start w.runs with
      | mk started runs =>
        rw [opening] at returned
        cases started with
        | error error => cases (Prod.mk.inj returned).1
        | ok runId =>
          dsimp only at returned
          rw [writeIn] at returned
          cases written : engine.writeRecords ⟨p.targetSchema, p.targetTable, table,
              (validateBatch table records).1, p.source, p.sourceEndpoint, runId⟩ found with
          | mk outcome db =>
            rw [written] at returned
            cases outcome with
            | error error =>
              have first := (Prod.mk.inj returned).1
              dsimp only at first
              split at first <;> cases first
            | ok counts =>
              obtain rfl := Except.ok.inj (Outcome.returned.inj (Prod.mk.inj returned).1)
              exact ⟨rfl, rfl, rfl, accounted.symm⟩

/-! ## The chunks of a stream -/

/-- Calls for chunks, one after the other, with their results. -/
inductive Commits (unicode : Unicode) (engines : Nat → Engines D) (p : IngestParams) :
    Nat → World D → List (List Json) → List IngestResult → World D → Prop
  | nil (n : Nat) (w : World D) : Commits unicode engines p n w [] [] w
  | cons {n : Nat} {w w₁ w₂ : World D} {chunk : List Json} {chunks : List (List Json)}
      {result : IngestResult} {results : List IngestResult}
      (committed : ingest unicode (engines n) true p (.adopted p.runId) chunk w =
        (.returned (.ok result), w₁))
      (others : Commits unicode engines p (n + 1) w₁ chunks results w₂) :
      Commits unicode engines p n w (chunk :: chunks) (result :: results) w₂

variable {engines : Nat → Engines D} {n : Nat} {chunks : List (List Json)}
  {results : List IngestResult}

/-- The results of calls, each for its chunk. -/
theorem Commits.reported (known : ∀ n, Known (engines n) p table)
    (commits : Commits unicode engines p n w chunks results w') :
    List.Forall₂ (Reported table) chunks results := by
  induction commits with
  | nil => exact .nil
  | cons committed _ inductionHypothesis =>
    exact .cons (ingest_reported (known _) committed).2 inductionHypothesis

/-- A chunk at which the loop ends, after those that were committed. -/
structure Ended (unicode : Unicode) (engines : Nat → Engines D) (p : IngestParams)
    (chunks done : List (List Json)) (n : Nat) (middle : World D) (error : ApiError) : Prop where
  next : ∃ chunk rest, chunks = done ++ chunk :: rest ∧
    (ingest unicode (engines (n + done.length)) true p (.adopted p.runId) chunk middle).1 =
      .returned (.error error)

/-- The loop commits chunks up to the end or to a call that fails, and adds up their results. -/
theorem streamLoop_commits {tally tally' : Tally} {text : Option Str} (fresh : tally.error = none)
    (ran : streamLoop unicode engines p n chunks tally w = (some (tally', text), w')) :
    ∃ done results middle, Commits unicode engines p n w done results middle ∧
      tally' = { results.foldl Tally.add tally with error := tally'.error } ∧
      w'.runs = w.runs ∧ (tally'.error = none → done = chunks) ∧
      ∀ error, tally'.error = some error → Ended unicode engines p chunks done n middle error := by
  induction chunks generalizing n tally w with
  | nil =>
    obtain ⟨same, rfl⟩ := Prod.mk.inj ran
    obtain ⟨rfl, -⟩ := Prod.mk.inj (Option.some.inj same)
    refine ⟨[], [], w, .nil n w, rfl, rfl, fun _ => rfl, fun error failed => ?_⟩
    rw [fresh] at failed
    cases failed
  | cons chunk rest inductionHypothesis =>
    have kept : (ingest unicode (engines n) true p (.adopted p.runId) chunk w).2.runs = w.runs :=
      ingest_adopted_runs
    rw [streamLoop] at ran
    cases called : ingest unicode (engines n) true p (.adopted p.runId) chunk w with
    | mk outcome after =>
      rw [called] at ran kept
      rcases outcome with (error | result) | _
      case returned.ok =>
        have still : (tally.add result).error = none := fresh
        obtain ⟨done, results, middle, commits, added, runs, all, ends⟩ :=
          inductionHypothesis still ran
        refine ⟨chunk :: done, result :: results, middle, .cons called commits, added,
          runs.trans kept, fun unbroken => by rw [all unbroken], fun error failed => ?_⟩
        obtain ⟨next, later, split, wrong⟩ := (ends error failed).next
        refine ⟨next, later, by rw [split, List.cons_append], ?_⟩
        rw [List.length_cons, ← Nat.add_assoc, Nat.add_right_comm]
        exact wrong
      case panicked => cases (Prod.mk.inj ran).1
      case returned.error =>
        dsimp only at ran
        cases sliced : head4000 error.toText with
        | none =>
          rw [sliced] at ran
          cases (Prod.mk.inj ran).1
        | some cut =>
          rw [sliced] at ran
          obtain ⟨same, rfl⟩ := Prod.mk.inj ran
          obtain ⟨rfl, -⟩ := Prod.mk.inj (Option.some.inj same)
          refine ⟨[], [], w, .nil n w, rfl, kept, fun unbroken => (by cases unbroken),
            fun other failed => ?_⟩
          obtain rfl := Option.some.inj failed
          exact ⟨chunk, rest, rfl, by rw [List.length_nil, Nat.add_zero, called]⟩

/-- A run that is no longer running has what it was closed with. -/
theorem stamp_closed {runs : Runs} {runId status : Str} {inserted updated failed : Nat}
    {text : Option Str} {run : Run} (running : runs runId = some ⟨"running".str, 0, 0, 0, none⟩)
    (there : stamp true runId status inserted updated failed text runs runId = some run)
    (closed : run.status ≠ "running".str) : run = ⟨status, inserted, updated, failed, text⟩ := by
  rw [stamp, if_pos rfl, closeRun] at there
  split_ifs at there with nul
  · rw [Option.getD_none, running] at there
    exact absurd (congrArg Run.status (Option.some.inj there)).symm closed
  · rw [Option.getD_some, Function.update_self, running, Option.map_some] at there
    exact (Option.some.inj there).symm

/-- A stream that returns has gone through its loop and closed its run. -/
theorem postStream_returned {tally : Tally}
    (ran : postStream unicode engines p chunks w = (.returned (.ok tally), w')) :
    ∃ text w₁, streamLoop unicode engines p 0 chunks {} { w with runs := openRun p.runId w.runs } =
        (some (tally, text), w₁) ∧
      w' = ⟨w₁.db, stamp true p.runId tally.status.text tally.inserted tally.updated tally.failed
        text w₁.runs⟩ := by
  rw [postStream] at ran
  split at ran
  · cases (Prod.mk.inj ran).1
  · rename_i found text w₁ looped
    obtain ⟨same, rfl⟩ := Prod.mk.inj ran
    obtain rfl := Except.ok.inj (Outcome.returned.inj same)
    exact ⟨text, w₁, looped, rfl⟩

/-- What a tally holds after results were added. -/
theorem foldl_add (results : List IngestResult) (tally : Tally) :
    (results.foldl Tally.add tally).inserted =
        tally.inserted + (results.map IngestResult.inserted).sum ∧
      (results.foldl Tally.add tally).updated =
        tally.updated + (results.map IngestResult.updated).sum ∧
      (results.foldl Tally.add tally).failed =
        tally.failed + (results.map IngestResult.failed).sum ∧
      (results.foldl Tally.add tally).rejected =
        tally.rejected ++ results.flatMap IngestResult.rejected := by
  induction results generalizing tally with
  | nil => simp
  | cons result rest inductionHypothesis =>
    obtain ⟨inserted, updated, failed, rejected⟩ := inductionHypothesis (tally.add result)
    rw [List.foldl_cons, inserted, updated, failed, rejected]
    simp [Tally.add, Nat.add_assoc]

/-! ## Totals -/

theorem flatten_chunksOf (records : List Json) : (chunksOf records).flatten = records := by
  by_cases empty : records = []
  · rw [empty]
    rfl
  · rw [chunksOf_step empty, List.flatten_cons, flatten_chunksOf (records.drop streamFlush),
      List.take_append_drop]
termination_by records.length
decreasing_by
  have length := List.length_pos_iff.mpr empty
  rw [List.length_drop]
  simp only [streamFlush]
  omega

/-- The results of chunks count all rejected records. -/
theorem sum_failed (reported : List.Forall₂ (Reported table) chunks results) :
    (results.map IngestResult.failed).sum =
      chunks.flatten.countP (fun record => !accepts table record) := by
  induction reported with
  | nil => rfl
  | cons report _ inductionHypothesis =>
    rw [List.map_cons, List.sum_cons, inductionHypothesis, report.failed, validateBatch,
      length_rejected, List.flatten_cons, List.countP_append]

theorem flatMap_rejected (reported : List.Forall₂ (Reported table) chunks results) :
    results.flatMap IngestResult.rejected =
      chunks.flatMap (fun chunk => (validateBatch table chunk).2) := by
  induction reported with
  | nil => rfl
  | cons report _ inductionHypothesis =>
    rw [List.flatMap_cons, List.flatMap_cons, inductionHypothesis, report.rejected]

theorem rejected_eq_nil_iff {index : Nat} {records : List Json} :
    (validateFrom table index records).2 = [] ↔
      ∀ record ∈ records, accepts table record = true := by
  rw [← List.length_eq_zero_iff, length_rejected, List.countP_eq_zero]
  simp

/-- All chunks together report the rejected entries of the whole list exactly when they
are all in the first chunk: from there on the numbers of the whole list are beyond those
of any chunk. -/
theorem rejected_agree_iff (records : List Json) :
    (chunksOf records).flatMap (fun chunk => (validateBatch table chunk).2) =
        (validateBatch table records).2 ↔
      ∀ record ∈ records.drop streamFlush, accepts table record = true := by
  by_cases empty : records = []
  · rw [empty]
    exact iff_of_true rfl (by simp)
  have whole : (validateBatch table records).2 =
      (validateBatch table (records.take streamFlush)).2 ++
      (validateFrom table (records.take streamFlush).length (records.drop streamFlush)).2 := by
    have split := @validateFrom_append table 0 (records.take streamFlush)
      (records.drop streamFlush)
    rwa [List.take_append_drop, Nat.zero_add] at split
  rw [chunksOf_step empty, List.flatMap_cons, whole, List.append_cancel_left_eq,
    ← @rejected_eq_nil_iff table (records.take streamFlush).length]
  constructor
  · intro same
    by_contra rejected
    obtain ⟨entry, member⟩ := List.exists_mem_of_ne_nil _ rejected
    have numbered := (index_of_rejected member).1
    have full : (records.take streamFlush).length = streamFlush := by
      have numbers := index_of_rejected member
      rw [List.length_drop] at numbers
      rw [List.length_take]
      omega
    obtain ⟨chunk, inChunks, inChunk⟩ := List.mem_flatMap.mp (same ▸ member)
    have below := (index_of_rejected inChunk).2
    have short := length_of_mem_chunksOf inChunks
    omega
  · intro accepted
    rw [accepted]
    have each := rejected_eq_nil_iff.mp accepted
    refine List.flatMap_eq_nil_iff.mpr (fun chunk inChunks => ?_)
    refine validateBatch_rejected_eq_nil.mpr (fun record member => each record ?_)
    rw [← flatten_chunksOf (records.drop streamFlush)]
    exact List.mem_flatten.mpr ⟨chunk, inChunks, member⟩

/-! ## The law -/

/-- `body_out`, which lists at most 50 rejected entries. -/
def streamResult (p : IngestParams) (records : List Json) (tally : Tally) : IngestResult :=
  ⟨some p.runId, p.targetSchema, p.targetTable, records.length, tally.inserted, tally.updated,
    tally.failed, tally.rejected.take 50, tally.status⟩

/-- A stream and one call report the same. -/
structure Agrees (p : IngestParams) (records : List Json) (tally : Tally)
    (whole : IngestResult) : Prop where
  received : (streamResult p records tally).received = whole.received
  failed : (streamResult p records tally).failed = whole.failed
  rejected : tally.rejected = whole.rejected
  listed : (streamResult p records tally).rejected = whole.rejected.take 50
  status : (streamResult p records tally).status = whole.status

/-- A stream without a failure reports what any one call for all records does that returns
a result. The run of a stream with a failure, once closed, has the sums over the chunks
that were committed before. -/
structure Faithful (unicode : Unicode) (engines : Nat → Engines D) (p : IngestParams)
    (table : TableMeta) (records : List Json) (w : World D) (tally : Tally) (w' : World D) :
    Prop where
  whole : tally.error = none → ∀ (engine : Engines D) (source : RunSource) (start after : World D)
    (result : IngestResult), Known engine p table →
      ingest unicode engine true p source records start = (.returned (.ok result), after) →
      Agrees p records tally result
  cutShort : ∀ error, tally.error = some error → ∀ run, w'.runs p.runId = some run →
    run.status ≠ "running".str →
      ∃ done results middle,
        Commits unicode engines p 0 { w with runs := openRun p.runId w.runs } done results middle ∧
        Ended unicode engines p (chunksOf records) done 0 middle error ∧
        run.inserted = (results.map IngestResult.inserted).sum ∧
        run.updated = (results.map IngestResult.updated).sum ∧
        run.failed = (results.map IngestResult.failed).sum

/-- Everything behind the first chunk is accepted, and something is. -/
structure Plain (table : TableMeta) (records : List Json) : Prop where
  behind : ∀ record ∈ records.drop streamFlush, accepts table record = true
  something : records = [] ∨ ∃ record ∈ records, accepts table record = true

/-- The statuses agree unless there are records and all of them were rejected. -/
theorem status_agree_iff {tally : Tally} (unbroken : tally.error = none)
    (same : tally.rejected = [] ↔ (validateBatch table records).2 = []) :
    tally.status = statusOf (validateBatch table records).1 (validateBatch table records).2 ↔
      (records = [] ∨ ∃ record ∈ records, accepts table record = true) := by
  rw [Tally.status, unbroken]
  dsimp only
  by_cases accepted : (validateBatch table records).2 = []
  · have each := validateBatch_rejected_eq_nil.mp accepted
    rw [same.mpr accepted, accepted, statusOf]
    refine iff_of_true (by simp) ?_
    cases records with
    | nil => exact .inl rfl
    | cons record rest => exact .inr ⟨record, List.mem_cons_self, each record List.mem_cons_self⟩
  · have rejected : tally.rejected ≠ [] := fun none => accepted (same.mp none)
    have some : records ≠ [] := by
      rintro rfl
      exact accepted rfl
    rw [if_neg (by simpa using rejected), or_iff_right some, statusOf]
    by_cases parsed : (validateBatch table records).1 = []
    · rw [if_pos (by simp [parsed, accepted])]
      refine iff_of_false (by decide) ?_
      rintro ⟨record, member, fits⟩
      rw [validateBatch_parsed_eq_nil.mp parsed record member] at fits
      cases fits
    · rw [if_neg (by simp [parsed]), if_neg (by simpa using accepted)]
      refine iff_of_true rfl ?_
      by_contra refused
      refine parsed (validateBatch_parsed_eq_nil.mpr fun record member => ?_)
      exact Bool.eq_false_iff.mpr (fun fits => refused ⟨record, member, fits⟩)

/-- An engine that knows a table and writes nothing. -/
def idle (D : Type) (table : TableMeta) : Engines D where
  tableMeta _ _ db := (.ok (some table), db)
  writeRecords _ db := (.ok (0, 0), db)

theorem idle_known : Known (idle D table) p table := fun db => ⟨db, rfl⟩

/-- With parameters in order that engine returns a result for every list. -/
theorem idle_returns (right : paramsError unicode p = none) (w : World D) :
    ∃ result, ingest unicode (idle D table) true p (.adopted p.runId) records w =
      (.returned (.ok result), w) := by
  rw [ingest, right]
  simp only [idle, validated, if_true]
  split_ifs with refused
  · exact ⟨_, rfl⟩
  · exact ⟨_, rfl⟩

/-- A stream without a failure has committed all of its chunks. -/
theorem unbroken_commits {tally : Tally}
    (ran : postStream unicode engines p chunks w = (.returned (.ok tally), w'))
    (unbroken : tally.error = none) :
    ∃ results middle,
      Commits unicode engines p 0 { w with runs := openRun p.runId w.runs } chunks results middle ∧
      tally = { results.foldl Tally.add {} with error := tally.error } := by
  obtain ⟨text, w₁, looped, rfl⟩ := postStream_returned ran
  obtain ⟨done, results, middle, commits, added, -, all, -⟩ := streamLoop_commits rfl looped
  obtain rfl := all unbroken
  exact ⟨results, middle, commits, added⟩

/-- What a stream without a failure has collected. -/
theorem collected {tally : Tally} (known : ∀ n, Known (engines n) p table)
    (ran : postStream unicode engines p (chunksOf records) w = (.returned (.ok tally), w'))
    (unbroken : tally.error = none) :
    tally.failed = (validateBatch table records).2.length ∧
      tally.rejected = (chunksOf records).flatMap (fun chunk => (validateBatch table chunk).2) := by
  obtain ⟨results, middle, commits, added⟩ := unbroken_commits ran unbroken
  have reported := commits.reported known
  obtain ⟨-, -, failed, rejected⟩ := foldl_add results {}
  constructor
  · have count := (congrArg Tally.failed added).trans failed
    rw [sum_failed reported, flatten_chunksOf, Nat.zero_add] at count
    rw [count, validateBatch, length_rejected]
  · have entries := (congrArg Tally.rejected added).trans rejected
    rwa [flatMap_rejected reported, List.nil_append] at entries

/-- A stream that is faithful and met no failure had plain records. -/
theorem plain_of_faithful {tally : Tally} (known : ∀ n, Known (engines n) p table)
    (ran : postStream unicode engines p (chunksOf records) w = (.returned (.ok tally), w'))
    (faithful : Faithful unicode engines p table records w tally w')
    (unbroken : tally.error = none) : Plain table records := by
  by_cases empty : records = []
  · exact ⟨by rw [empty]; simp, .inl empty⟩
  have right : paramsError unicode p = none := by
    obtain ⟨results, middle, commits, -⟩ := unbroken_commits ran unbroken
    rw [chunksOf_step empty] at commits
    cases commits with
    | cons committed _ => exact (ingest_reported (known 0) committed).1
  obtain ⟨result, called⟩ := @idle_returns D unicode p table records right w
  have agrees := faithful.whole unbroken (idle D table) (.adopted p.runId) w w result idle_known
    called
  have report := (ingest_reported idle_known called).2
  have rejected : tally.rejected = (validateBatch table records).2 :=
    agrees.rejected.trans report.rejected
  refine ⟨(rejected_agree_iff records).mp ?_, (status_agree_iff unbroken ?_).mp ?_⟩
  · exact (collected known ran unbroken).2.symm.trans rejected
  · rw [rejected]
  · exact agrees.status.trans report.status

/-- A stream of plain records reports what one call does. -/
theorem agrees_of_plain {tally : Tally} (known : ∀ n, Known (engines n) p table)
    (ran : postStream unicode engines p (chunksOf records) w = (.returned (.ok tally), w'))
    (plain : Plain table records) (unbroken : tally.error = none)
    (report : Reported table records result) : Agrees p records tally result := by
  obtain ⟨failedEq, rejectedEq⟩ := collected known ran unbroken
  have rejected : tally.rejected = result.rejected := by
    rw [rejectedEq, report.rejected]
    exact (rejected_agree_iff records).mpr plain.behind
  refine ⟨report.received.symm, failedEq.trans report.failed.symm, rejected,
    congrArg (List.take 50) rejected, ?_⟩
  refine Eq.trans ?_ report.status.symm
  refine (status_agree_iff unbroken ?_).mpr plain.something
  rw [rejected, report.rejected]

/-- The run of a stream that met a failure is closed with the sums over what was committed. -/
theorem cutShort_sums {tally : Tally} {error : ApiError} {run : Run}
    (ran : postStream unicode engines p (chunksOf records) w = (.returned (.ok tally), w'))
    (failed : tally.error = some error) (there : w'.runs p.runId = some run)
    (closed : run.status ≠ "running".str) :
    ∃ done results middle,
      Commits unicode engines p 0 { w with runs := openRun p.runId w.runs } done results middle ∧
      Ended unicode engines p (chunksOf records) done 0 middle error ∧
      run.inserted = (results.map IngestResult.inserted).sum ∧
      run.updated = (results.map IngestResult.updated).sum ∧
      run.failed = (results.map IngestResult.failed).sum := by
  obtain ⟨text, w₁, looped, rfl⟩ := postStream_returned ran
  obtain ⟨done, results, middle, commits, added, runs, -, ends⟩ := streamLoop_commits rfl looped
  refine ⟨done, results, middle, commits, ends error failed, ?_⟩
  obtain ⟨inserted, updated, failures, -⟩ := foldl_add results {}
  have running : w₁.runs p.runId = some ⟨"running".str, 0, 0, 0, none⟩ := by
    rw [runs]
    exact Function.update_self _ _ _
  rw [stamp_closed running there closed, added]
  dsimp only
  rw [inserted, updated, failures]
  exact ⟨Nat.zero_add _, Nat.zero_add _, Nat.zero_add _⟩

/-- A stream that returns is faithful exactly when it met a failure or its records are plain. -/
theorem faithful_iff {tally : Tally} (known : ∀ n, Known (engines n) p table)
    (ran : postStream unicode engines p (chunksOf records) w = (.returned (.ok tally), w')) :
    Faithful unicode engines p table records w tally w' ↔
      (tally.error = none → Plain table records) := by
  constructor
  · exact plain_of_faithful known ran
  · intro plain
    refine ⟨fun unbroken engine source start after result knows called => ?_,
      fun error failed run there closed => cutShort_sums ran failed there closed⟩
    exact agrees_of_plain known ran (plain unbroken) unbroken (ingest_reported knows called).2

/-! ## A rejection behind the first chunk -/

def divs : TableMeta := ⟨[⟨"v".str, "bigint".str, true, false⟩], ["v".str]⟩

def right : Json := .object [("v".str, .ofNat 1)]

def wrong : Json := .ofNat 5

theorem right_accepted : accepts divs right = true := by decide +kernel

theorem wrong_rejected : accepts divs wrong = false := by decide +kernel

/-- Two records, of which the second is rejected, in one chunk. -/
theorem two_faithful : ∃ tally w',
    postStream Unicode.ascii (fun _ => idle Unit divs) toDivs (chunksOf [right, wrong]) fresh =
        (.returned (.ok tally), w') ∧ tally.rejected.map Rejected.index = [1] ∧
      Faithful Unicode.ascii (fun _ => idle Unit divs) toDivs divs [right, wrong] fresh tally w' :=
  ⟨_, _, rfl, by decide +kernel, (faithful_iff (fun _ => idle_known) rfl).mpr fun _ =>
    ⟨by decide +kernel, .inr ⟨right, List.mem_cons_self, right_accepted⟩⟩⟩

/-- A full chunk of records that are accepted, and one that is not. -/
def lateRejection : List Json := List.replicate streamFlush right ++ [wrong]

theorem chunksOf_lateRejection :
    chunksOf lateRejection = [List.replicate streamFlush right, [wrong]] := by
  have first : lateRejection.take streamFlush = List.replicate streamFlush right :=
    List.take_left' List.length_replicate
  have rest : lateRejection.drop streamFlush = [wrong] := List.drop_left' List.length_replicate
  rw [chunksOf_step (by simp [lateRejection]), first, rest]
  rfl

/-- With an engine that writes nothing every chunk is committed. -/
theorem idle_streams (right : paramsError unicode p = none) (chunks : List (List Json))
    (tally : Tally) (n : Nat) (w : World D) :
    ∃ tally', streamLoop unicode (fun _ => idle D table) p n chunks tally w =
      (some (tally', none), w) ∧ tally'.error = tally.error := by
  induction chunks generalizing tally n with
  | nil => exact ⟨tally, rfl, rfl⟩
  | cons chunk rest inductionHypothesis =>
    obtain ⟨result, called⟩ := @idle_returns D unicode p table chunk right w
    obtain ⟨tally', looped, same⟩ := inductionHypothesis (tally.add result) (n + 1)
    refine ⟨tally', ?_, same⟩
    rw [streamLoop, called]
    exact looped

theorem idle_posts (right : paramsError unicode p = none) (chunks : List (List Json))
    (w : World D) : ∃ tally w', postStream unicode (fun _ => idle D table) p chunks w =
      (.returned (.ok tally), w') ∧ tally.error = none := by
  obtain ⟨tally, looped, unbroken⟩ := @idle_streams D unicode p table right chunks {} 0
    { w with runs := openRun p.runId w.runs }
  exact ⟨tally, _, by rw [postStream, looped], unbroken⟩

/-- The late rejection is listed as the first record of the stream, where one call lists it
as the last one; and a single record that is rejected makes a stream that is no failure. -/
theorem lateRejection_renumbered :
    (∃ tally w', postStream Unicode.ascii (fun _ => idle Unit divs) toDivs
          (chunksOf lateRejection) fresh = (.returned (.ok tally), w') ∧
        tally.rejected.map Rejected.index = [0] ∧
        ¬Faithful Unicode.ascii (fun _ => idle Unit divs) toDivs divs lateRejection fresh tally
          w') ∧
      ∃ tally w', postStream Unicode.ascii (fun _ => idle Unit divs) toDivs (chunksOf [wrong])
          fresh = (.returned (.ok tally), w') ∧ tally.status = .partly ∧
        ¬Faithful Unicode.ascii (fun _ => idle Unit divs) toDivs divs [wrong] fresh tally w' := by
  have known : ∀ _ : Nat, Known (idle Unit divs) toDivs divs := fun _ => idle_known
  constructor
  · obtain ⟨tally, w', ran, unbroken⟩ := @idle_posts Unit Unicode.ascii toDivs divs (by decide)
      (chunksOf lateRejection) fresh
    refine ⟨tally, w', ran, ?_, fun faithful => ?_⟩
    · have ahead : (validateBatch divs (List.replicate streamFlush right)).2 = [] :=
        validateBatch_rejected_eq_nil.mpr (fun record member =>
          List.eq_of_mem_replicate member ▸ right_accepted)
      rw [(collected known ran unbroken).2, chunksOf_lateRejection, List.flatMap_cons, ahead]
      decide +kernel
    · have plain := plain_of_faithful known ran faithful unbroken
      have behind : wrong ∈ lateRejection.drop streamFlush := by
        rw [show lateRejection.drop streamFlush = [wrong] from
          List.drop_left' List.length_replicate]
        exact List.mem_cons_self
      exact absurd (plain.behind wrong behind) (by rw [wrong_rejected]; decide)
  · refine ⟨_, _, rfl, rfl, fun faithful => ?_⟩
    have plain := plain_of_faithful known rfl faithful rfl
    rcases plain.something with empty | ⟨record, member, accepted⟩
    · cases empty
    · obtain rfl := List.mem_singleton.mp member
      rw [wrong_rejected] at accepted
      cases accepted

end LumidPlatform.Ingest.Reports
