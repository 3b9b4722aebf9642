import LumidPlatform.Ingest.Stream

/-!
# Closing a run

A call of `ingest_records` without a run opens one and closes it, and so does `post_stream` for
all of its chunks. On a failure both cut the text of the error at a byte offset before they
close the run: where that offset is within a character they panic, and the run is never closed.
-/

namespace LumidPlatform.Ingest.Closing

open LumidPlatform.Write LumidPlatform.Ingest.Core LumidPlatform.Ingest.Stream

variable {D : Type} {unicode : Unicode} {engines : Engines D} {p : IngestParams} {validate : Bool}
  {records : List Json} {text cut : Str}

/-! ## Runs -/

/-- What `close_run` stamps on a row of `provenance.runs`. -/
structure Run where
  status : Str
  inserted : Nat
  updated : Nat
  failed : Nat
  errorText : Option Str
  deriving DecidableEq

/-- `provenance.runs`, by `run_id`. -/
abbrev Runs := Str → Option Run

/-- The row that `open_run` inserts. -/
def openRun (runId : Str) (runs : Runs) : Runs :=
  Function.update runs runId (some ⟨"running".str, 0, 0, 0, none⟩)

/-- `close_run`; `none` is an error of the statement. Postgres takes no text with a NUL. -/
def closeRun (runId status : Str) (inserted updated failed : Nat) (errorText : Option Str)
    (runs : Runs) : Option Runs :=
  if errorText.any (fun text => text.contains '\x00') then none
  else some (Function.update runs runId
    ((runs runId).map (fun _ => ⟨status, inserted, updated, failed, errorText⟩)))

/-- The databases and the runs. -/
structure World (D : Type) where
  db : D
  runs : Runs

/-- A call returns, or panics on the way. -/
inductive Outcome (T : Type) where
  | returned (result : ApiResult T)
  | panicked

/-- `&text[..text.len().min(4000)]`. -/
def head4000 (text : Str) : Option Str := Text.sliceTo text (min (Text.byteLen text) 4000)

/-! ## `ingest_records` -/

/-- The run of a call: that of the caller, or one of its own, which is opened and gets the
name of the caller. -/
inductive RunSource where
  | adopted (runId : Str)
  | owned (opened : ApiResult Str) (named : ApiResult Unit)

def RunSource.isOwned : RunSource → Bool
  | adopted _ => false
  | owned _ _ => true

/-- Open or adopt the run row. -/
def RunSource.start (runs : Runs) : RunSource → ApiResult Str × Runs
  | adopted runId => (.ok runId, runs)
  | owned (.error error) _ => (.error error, runs)
  | owned (.ok runId) (.error error) => (.error error, openRun runId runs)
  | owned (.ok runId) (.ok ()) => (.ok runId, openRun runId runs)

/-- The text of an engine's error: the causes of an internal one, else what is shown of it. -/
def errorText : ApiError → Str
  | .internal cause => cause
  | other => other.toText

/-- An owned run is closed; that it cannot be is only logged. -/
def stamp (owned : Bool) (runId status : Str) (inserted updated failed : Nat)
    (errorText : Option Str) (runs : Runs) : Runs :=
  if owned then (closeRun runId status inserted updated failed errorText runs).getD runs else runs

/-- The error arm of `ingest_records`. -/
def failWrite (owned : Bool) (runId : Str) (rejected : Nat) (text : Str) (runs : Runs) :
    Outcome IngestResult × Runs :=
  match head4000 text with
  | none => (.panicked, runs)
  | some trunc =>
    (.returned (.error (.internal ("ingest write failed; check server logs for run ".str ++ runId))),
      stamp owned runId "failed".str 0 0 rejected (some trunc) runs)

/-- `ingest_records` after the run was opened or adopted. -/
def writeIn (engines : Engines D) (p : IngestParams) (table : TableMeta) (received : Nat)
    (parsed : List Json) (rejected : List Rejected) (owned : Bool) (runId : Str) (w : World D) :
    Outcome IngestResult × World D :=
  match engines.writeRecords ⟨p.targetSchema, p.targetTable, table, parsed, p.source,
      p.sourceEndpoint, runId⟩ w.db with
  | (.error error, db) =>
    let (outcome, runs) := failWrite owned runId rejected.length (errorText error) w.runs
    (outcome, ⟨db, runs⟩)
  | (.ok (inserted, updated), db) =>
    let status : Core.Status := if rejected.isEmpty then .ok else .partly
    (.returned (.ok ⟨some runId, p.targetSchema, p.targetTable, received, inserted, updated,
        rejected.length, rejected, status⟩),
      ⟨db, stamp owned runId status.text inserted updated rejected.length none w.runs⟩)

/-- The records that are accepted, and those that are not. -/
def validated (validate : Bool) (table : TableMeta) (records : List Json) :
    List Json × List Rejected :=
  if validate then validateBatch table records else (records, [])

/-- `ingest_records`. -/
def ingest (unicode : Unicode) (engines : Engines D) (validate : Bool) (p : IngestParams)
    (source : RunSource) (records : List Json) (w : World D) : Outcome IngestResult × World D :=
  match paramsError unicode p with
  | some error => (.returned (.error error), w)
  | none =>
    match engines.tableMeta p.targetSchema p.targetTable w.db with
    | (.error error, db) => (.returned (.error error), { w with db })
    | (.ok none, db) =>
      (.returned (.error (.notFound ("unknown table: ".str ++ p.targetSchema ++
        '.' :: p.targetTable))), { w with db })
    | (.ok (some table), db) =>
      let (parsed, rejected) := validated validate table records
      if parsed.isEmpty && !rejected.isEmpty then
        (.returned (.ok ⟨none, p.targetSchema, p.targetTable, records.length, 0, 0,
          rejected.length, rejected, .failed⟩), { w with db })
      else
        match source.start w.runs with
        | (.error error, runs) => (.returned (.error error), ⟨db, runs⟩)
        | (.ok runId, runs) =>
          writeIn engines p table records.length parsed rejected source.isOwned runId ⟨db, runs⟩

/-! ## `post_stream` -/

/-- The chunk loop of `post_stream`, with `error_text`; `none` is a panic. -/
def streamLoop (unicode : Unicode) (engines : Nat → Engines D) (p : IngestParams) :
    Nat → List (List Json) → Tally → World D → Option (Tally × Option Str) × World D
  | _, [], tally, w => (some (tally, none), w)
  | n, chunk :: rest, tally, w =>
    match ingest unicode (engines n) true p (.adopted p.runId) chunk w with
    | (.panicked, w) => (none, w)
    | (.returned (.ok result), w) => streamLoop unicode engines p (n + 1) rest (tally.add result) w
    | (.returned (.error error), w) =>
      match head4000 error.toText with
      | none => (none, w)
      | some text => (some ({ tally with error := some error }, some text), w)

/-- `post_stream` from the opening of its run on. -/
def postStream (unicode : Unicode) (engines : Nat → Engines D) (p : IngestParams)
    (chunks : List (List Json)) (w : World D) : Outcome Tally × World D :=
  match streamLoop unicode engines p 0 chunks {} { w with runs := openRun p.runId w.runs } with
  | (none, w) => (.panicked, w)
  | (some (tally, text), w) =>
    (.returned (.ok tally), ⟨w.db, stamp true p.runId tally.status.text tally.inserted
      tally.updated tally.failed text w.runs⟩)

/-! ## The text of an error -/

/-- The first 4000 bytes of a text are whole characters, and none of them is a NUL. -/
def Recordable (text : Str) : Prop :=
  ∃ cut, cut <+: text ∧ Text.byteLen cut = min (Text.byteLen text) 4000 ∧ '\x00' ∉ cut

/-- The run is closed as failed, with the text cut to 4000 bytes. -/
def RecordedFailure (runs : Runs) (runId text : Str) : Prop :=
  ∃ run cut, runs runId = some run ∧ run.status = "failed".str ∧ run.errorText = some cut ∧
    cut <+: text ∧ Text.byteLen cut = min (Text.byteLen text) 4000

theorem head4000_iff : head4000 text = some cut ↔
    cut <+: text ∧ Text.byteLen cut = min (Text.byteLen text) 4000 := Text.sliceTo_eq_some

/-- A run that is open is closed with the cut text if that can be stored, and stays as it is if
it cannot. -/
theorem stamp_failed {runs : Runs} {runId : Str} {run : Run} {inserted updated rejected : Nat}
    (there : runs runId = some run) (going : run.status ≠ "failed".str)
    (sliced : head4000 text = some cut) :
    RecordedFailure (stamp true runId "failed".str inserted updated rejected (some cut) runs) runId
      text ↔ Recordable text := by
  obtain ⟨inside, length⟩ := head4000_iff.mp sliced
  rw [stamp, if_pos rfl, closeRun, Option.any_some]
  by_cases nul : cut.contains '\x00' = true
  · rw [if_pos nul, Option.getD_none]
    constructor
    · rintro ⟨other, -, here, failed, -⟩
      obtain rfl := Option.some.inj (there.symm.trans here)
      exact absurd failed going
    · rintro ⟨cut', inside', length', clean⟩
      obtain rfl := Option.some.inj (sliced.symm.trans (head4000_iff.mpr ⟨inside', length'⟩))
      exact absurd (List.contains_iff_mem.mp nul) clean
  · rw [if_neg nul, Option.getD_some]
    refine iff_of_true ⟨⟨"failed".str, inserted, updated, rejected, some cut⟩, cut, ?_, rfl, rfl,
      inside, length⟩ ⟨cut, inside, length, ?_⟩
    · rw [Function.update_self, there, Option.map_some]
    · exact fun member => nul (List.contains_iff_mem.mpr member)

/-! ## A write of one's own run -/

/-- A call comes to its write under a run, and the engine refuses it. -/
structure WriteFails (unicode : Unicode) (engines : Engines D) (validate : Bool)
    (p : IngestParams) (source : RunSource) (records : List Json) (w : World D)
    (runId : Str) (error : ApiError) : Prop where
  params : paramsError unicode p = none
  reached : ∃ table found left, engines.tableMeta p.targetSchema p.targetTable w.db =
      (.ok (some table), found) ∧
    ((validated validate table records).1.isEmpty &&
      !(validated validate table records).2.isEmpty) = false ∧
    (source.start w.runs).1 = .ok runId ∧
    engines.writeRecords ⟨p.targetSchema, p.targetTable, table,
      (validated validate table records).1, p.source, p.sourceEndpoint, runId⟩ found =
      (.error error, left)

variable {source : RunSource} {w : World D} {runId : Str} {error : ApiError}

/-- A failed write ends in the error arm. -/
theorem ingest_failWrite
    (fails : WriteFails unicode engines validate p source records w runId error) :
    ∃ left rejected, ingest unicode engines validate p source records w =
      ((failWrite source.isOwned runId rejected (errorText error) (source.start w.runs).2).1,
        ⟨left, (failWrite source.isOwned runId rejected (errorText error)
          (source.start w.runs).2).2⟩) := by
  obtain ⟨table, found, left, known, kept, started, refused⟩ := fails.reached
  refine ⟨left, (validated validate table records).2.length, ?_⟩
  rw [ingest, fails.params]
  dsimp only
  rw [known]
  dsimp only
  rw [kept, if_neg Bool.false_ne_true]
  generalize source.start w.runs = opening at started
  obtain ⟨opened, runs⟩ := opening
  dsimp only at started
  subst started
  dsimp only
  rw [writeIn, refused]

/-- A run of one's own is there, and running. -/
theorem start_owned {opened : ApiResult Str} {named : ApiResult Unit} {runs : Runs}
    (started : ((RunSource.owned opened named).start runs).1 = .ok runId) :
    ((RunSource.owned opened named).start runs).2 runId = some ⟨"running".str, 0, 0, 0, none⟩ := by
  cases opened with
  | error wrong => cases started
  | ok found =>
    cases named with
    | error wrong => cases started
    | ok done =>
      obtain rfl := Except.ok.inj started
      exact Function.update_self _ _ _

theorem ingest_closes {opened : ApiResult Str} {named : ApiResult Unit}
    (fails : WriteFails unicode engines validate p (.owned opened named) records w runId error) :
    ((∃ wrong, (ingest unicode engines validate p (.owned opened named) records w).1 =
          .returned (.error wrong)) ∧
        RecordedFailure (ingest unicode engines validate p (.owned opened named) records w).2.runs
          runId (errorText error)) ↔
      Recordable (errorText error) := by
  obtain ⟨left, rejected, ended⟩ := ingest_failWrite fails
  obtain ⟨_, _, _, -, -, started, -⟩ := fails.reached
  have running := start_owned started
  rw [ended]
  dsimp only
  rw [failWrite]
  cases sliced : head4000 (errorText error) with
  | none =>
    dsimp only
    refine iff_of_false ?_ ?_
    · rintro ⟨⟨_, impossible⟩, -⟩
      cases impossible
    · rintro ⟨cut, inside, length, -⟩
      rw [head4000_iff.mpr ⟨inside, length⟩] at sliced
      cases sliced
  | some cut =>
    dsimp only
    rw [RunSource.isOwned, stamp_failed running (by decide) sliced]
    exact and_iff_right ⟨_, rfl⟩

/-! ## A write of a stream -/

variable {chunkEngines : Nat → Engines D} {tally tally' : Tally} {w' : World D} {n : Nat}
  {done rest : List (List Json)} {chunk : List Json}

/-- A call under the run of its caller that does not panic is the call of the pipeline. -/
theorem ingest_adopted
    (returns : (ingest unicode engines true p (.adopted p.runId) records w).1 ≠ .panicked) :
    ingest unicode engines true p (.adopted p.runId) records w =
      (.returned (ingestRecords unicode engines p records w.db).1,
        ⟨(ingestRecords unicode engines p records w.db).2, w.runs⟩) := by
  rw [ingest] at returns ⊢
  rw [ingestRecords]
  generalize paramsError unicode p = checked at returns ⊢
  cases checked with
  | some error => rfl
  | none =>
    dsimp only at returns ⊢
    generalize engines.tableMeta p.targetSchema p.targetTable w.db = answered at returns ⊢
    obtain ⟨answer, db⟩ := answered
    rcases answer with error | _ | table
    · rfl
    · rfl
    · dsimp only at returns ⊢
      rw [writeTo]
      simp only [validated, if_true] at returns ⊢
      by_cases refused : ((validateBatch table records).1.isEmpty &&
          !(validateBatch table records).2.isEmpty) = true
      · rw [if_pos refused, if_pos refused]
      · rw [if_neg refused] at returns ⊢
        rw [if_neg refused]
        dsimp only [RunSource.start, RunSource.isOwned] at returns ⊢
        rw [writeIn] at returns ⊢
        generalize engines.writeRecords _ db = written at returns ⊢
        obtain ⟨result, after⟩ := written
        cases result with
        | ok counts => rfl
        | error error =>
          dsimp only at returns ⊢
          rw [failWrite] at returns ⊢
          cases sliced : head4000 (errorText error) with
          | none =>
            rw [sliced] at returns
            exact absurd rfl returns
          | some cut => rfl

/-- A call under the run of its caller leaves the runs as they are. -/
theorem ingest_adopted_runs :
    (ingest unicode engines validate p (.adopted runId) records w).2.runs = w.runs := by
  rw [ingest]
  split
  · rfl
  · split
    · rfl
    · rfl
    · dsimp only
      split_ifs
      · rfl
      · rw [RunSource.start]
        dsimp only
        rw [writeIn]
        split
        · dsimp only
          rw [failWrite]
          split
          · rfl
          · rfl
        · rfl

/-- After chunks that were written the loop goes on with the next one, under the same runs. -/
theorem streamLoop_append (chunk : List Json) (rest : List (List Json))
    (written : streamLoop unicode chunkEngines p n done tally w = (some (tally', none), w')) :
    streamLoop unicode chunkEngines p n (done ++ chunk :: rest) tally w =
        streamLoop unicode chunkEngines p (n + done.length) (chunk :: rest) tally' w' ∧
      w'.runs = w.runs := by
  induction done generalizing n tally w with
  | nil =>
    obtain ⟨same, rfl⟩ := Prod.mk.inj written
    obtain ⟨rfl, -⟩ := Prod.mk.inj (Option.some.inj same)
    exact ⟨rfl, rfl⟩
  | cons first later inductionHypothesis =>
    have kept : (ingest unicode (chunkEngines n) true p (.adopted p.runId) first w).2.runs =
        w.runs := ingest_adopted_runs
    rw [streamLoop] at written
    rw [List.cons_append, streamLoop]
    generalize ingest unicode (chunkEngines n) true p (.adopted p.runId) first w = called at *
    obtain ⟨outcome, after⟩ := called
    cases outcome with
    | panicked => cases (Prod.mk.inj written).1
    | returned result =>
      cases result with
      | error error =>
        dsimp only at written
        split at written
        · cases (Prod.mk.inj written).1
        · cases (Prod.mk.inj (Option.some.inj (Prod.mk.inj written).1)).2
      | ok result =>
        dsimp only at written kept ⊢
        obtain ⟨onward, same⟩ := inductionHypothesis written
        rw [onward, List.length_cons, Nat.add_right_comm, ← Nat.add_assoc]
        exact ⟨rfl, same.trans kept⟩

/-- The chunks before are written, and the call for the next one is at hand. -/
def UpTo (unicode : Unicode) (engines : Nat → Engines D) (p : IngestParams)
    (done : List (List Json)) (w : World D) (tally : Tally) (w' : World D) : Prop :=
  streamLoop unicode engines p 0 done {} { w with runs := openRun p.runId w.runs } =
    (some (tally, none), w')

/-- A call that returns an error ends the stream. Its run is closed as failed if the text of the
error can be recorded. -/
theorem stream_closes (upTo : UpTo unicode chunkEngines p done w tally w')
    (failed : (ingest unicode (chunkEngines done.length) true p (.adopted p.runId) chunk w').1 =
      .returned (.error error)) :
    ((∃ t, (postStream unicode chunkEngines p (done ++ chunk :: rest) w).1 = .returned (.ok t)) ∧
        RecordedFailure (postStream unicode chunkEngines p (done ++ chunk :: rest) w).2.runs
          p.runId error.toText) ↔
      Recordable error.toText := by
  obtain ⟨onward, same⟩ := streamLoop_append chunk rest upTo
  have kept : (ingest unicode (chunkEngines done.length) true p (.adopted p.runId) chunk w').2.runs =
      w'.runs := ingest_adopted_runs
  rw [postStream, onward, Nat.zero_add, streamLoop]
  generalize ingest unicode (chunkEngines done.length) true p (.adopted p.runId) chunk w' = called
    at failed kept
  obtain ⟨outcome, after⟩ := called
  dsimp only at failed kept
  subst failed
  dsimp only
  have running : after.runs p.runId = some ⟨"running".str, 0, 0, 0, none⟩ := by
    rw [kept, same]
    exact Function.update_self _ _ _
  cases sliced : head4000 error.toText with
  | none =>
    dsimp only
    refine iff_of_false ?_ ?_
    · rintro ⟨⟨_, impossible⟩, -⟩
      cases impossible
    · rintro ⟨cut, inside, length, -⟩
      rw [head4000_iff.mpr ⟨inside, length⟩] at sliced
      cases sliced
  | some cut =>
    dsimp only
    exact (and_iff_right ⟨_, rfl⟩).trans (stamp_failed running (by decide) sliced)

/-- A write of a chunk that fails. Its text is only cut, not stored. -/
theorem stream_write_closes (upTo : UpTo unicode chunkEngines p done w tally w')
    (fails : WriteFails unicode (chunkEngines done.length) true p (.adopted p.runId) chunk w'
      p.runId error) :
    ((∃ t, (postStream unicode chunkEngines p (done ++ chunk :: rest) w).1 = .returned (.ok t)) ∧
        RecordedFailure (postStream unicode chunkEngines p (done ++ chunk :: rest) w).2.runs
          p.runId "internal error".str) ↔
      ∃ cut, cut <+: errorText error ∧
        Text.byteLen cut = min (Text.byteLen (errorText error)) 4000 := by
  obtain ⟨left, rejected, ended⟩ := ingest_failWrite fails
  rw [failWrite] at ended
  cases sliced : head4000 (errorText error) with
  | none =>
    rw [sliced] at ended
    obtain ⟨onward, -⟩ := streamLoop_append chunk rest upTo
    rw [postStream, onward, Nat.zero_add, streamLoop, ended]
    dsimp only
    refine iff_of_false ?_ ?_
    · rintro ⟨⟨_, impossible⟩, -⟩
      cases impossible
    · rintro ⟨cut, whole⟩
      rw [head4000_iff.mpr whole] at sliced
      cases sliced
  | some cut =>
    rw [sliced] at ended
    have internal : (ingest unicode (chunkEngines done.length) true p (.adopted p.runId) chunk
        w').1 = .returned (.error (.internal
          ("ingest write failed; check server logs for run ".str ++ p.runId))) := by
      rw [ended]
    refine iff_of_true ((stream_closes upTo internal).mpr ?_) ⟨cut, head4000_iff.mp sliced⟩
    refine ⟨"internal error".str, List.prefix_rfl, ?_, by decide⟩
    show Text.byteLen "internal error".str = min (Text.byteLen "internal error".str) 4000
    decide

/-! ## Every failure -/

/-- A failed write under a run of its own returns an error and closes the run as failed, with
the text cut to 4000 bytes, if and only if these bytes are whole characters and none is a NUL.
A stream closes its run so for an error of a chunk, too; of a failed write of a chunk it only
needs whole characters. -/
theorem failed_write_closes :
    (∀ (unicode : Unicode) (engines : Engines D) (validate : Bool) (p : IngestParams)
        (opened : ApiResult Str) (named : ApiResult Unit) (records : List Json) (w : World D)
        (runId : Str) (error : ApiError),
        WriteFails unicode engines validate p (.owned opened named) records w runId error →
          (((∃ wrong, (ingest unicode engines validate p (.owned opened named) records w).1 =
                .returned (.error wrong)) ∧
              RecordedFailure (ingest unicode engines validate p (.owned opened named) records
                w).2.runs runId (errorText error)) ↔
            Recordable (errorText error))) ∧
      ∀ (unicode : Unicode) (engines : Nat → Engines D) (p : IngestParams)
        (done rest : List (List Json)) (chunk : List Json) (w w' : World D) (tally : Tally)
        (error : ApiError), UpTo unicode engines p done w tally w' →
          ((ingest unicode (engines done.length) true p (.adopted p.runId) chunk w').1 =
              .returned (.error error) →
            (((∃ t, (postStream unicode engines p (done ++ chunk :: rest) w).1 =
                  .returned (.ok t)) ∧
                RecordedFailure (postStream unicode engines p (done ++ chunk :: rest) w).2.runs
                  p.runId error.toText) ↔
              Recordable error.toText)) ∧
          (WriteFails unicode (engines done.length) true p (.adopted p.runId) chunk w' p.runId
              error →
            (((∃ t, (postStream unicode engines p (done ++ chunk :: rest) w).1 =
                  .returned (.ok t)) ∧
                RecordedFailure (postStream unicode engines p (done ++ chunk :: rest) w).2.runs
                  p.runId "internal error".str) ↔
              ∃ cut, cut <+: errorText error ∧
                Text.byteLen cut = min (Text.byteLen (errorText error)) 4000)) :=
  ⟨fun _ _ _ _ _ _ _ _ _ _ fails => ingest_closes fails,
    fun _ _ _ _ _ _ _ _ _ _ upTo => ⟨stream_closes upTo, stream_write_closes upTo⟩⟩

/-! ## Two error texts -/

/-- A table with one column, behind an engine that fails with a text. -/
def failing (text : Str) : Engines Unit where
  tableMeta _ _ _ := (.ok (some ⟨[⟨"v".str, "bigint".str, true, false⟩], ["v".str]⟩), ())
  writeRecords _ _ := (.error (.internal text), ())

/-- A call for that table. -/
def toDivs : IngestParams := ⟨"market".str, "divs".str, "fmp".str, "x".str, []⟩

def oneRecord : List Json := [.object [("v".str, .ofNat 1)]]

def fresh : World Unit := ⟨(), fun _ => none⟩

/-- The write of the record fails, under the new run `r`. -/
theorem failing_fails (text : Str) : WriteFails Unicode.ascii (failing text) true toDivs
    (.owned (.ok "r".str) (.ok ())) oneRecord fresh "r".str (.internal text) where
  params := by decide
  reached := ⟨_, _, _, rfl, by decide, rfl, rfl⟩

/-- A short text is recorded. -/
theorem timeout_recorded : RecordedFailure (ingest Unicode.ascii (failing "timeout".str) true toDivs
    (.owned (.ok "r".str) (.ok ())) oneRecord fresh).2.runs "r".str "timeout".str :=
  ((failed_write_closes.1 Unicode.ascii (failing "timeout".str) true toDivs (.ok "r".str) (.ok ())
    oneRecord fresh "r".str (.internal "timeout".str) (failing_fails _)).mpr
      ⟨"timeout".str, List.prefix_rfl, by decide, by decide⟩).2

/-- A text of 4001 bytes with a character across the 4000th. -/
def straddling : Str := 'x' :: List.replicate 1000 '😀'

/-- On that text the call panics, and the run is left running. -/
theorem straddling_left_running :
    (ingest Unicode.ascii (failing straddling) true toDivs (.owned (.ok "r".str) (.ok ())) oneRecord
        fresh).1 = .panicked ∧
      (ingest Unicode.ascii (failing straddling) true toDivs (.owned (.ok "r".str) (.ok ()))
        oneRecord fresh).2.runs "r".str = some ⟨"running".str, 0, 0, 0, none⟩ := by
  have sliced : head4000 straddling = none := by decide +kernel
  obtain ⟨left, rejected, ended⟩ := ingest_failWrite (failing_fails straddling)
  have text : errorText (.internal straddling) = straddling := rfl
  have running : ((RunSource.owned (.ok "r".str) (.ok ())).start fresh.runs).2 "r".str =
      some ⟨"running".str, 0, 0, 0, none⟩ := start_owned rfl
  rw [ended, failWrite, text, sliced]
  exact ⟨rfl, running⟩

end LumidPlatform.Ingest.Closing
