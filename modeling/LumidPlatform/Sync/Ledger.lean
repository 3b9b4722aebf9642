import LumidPlatform.Lib.Transitions
import LumidPlatform.Sync.Inbox

/-!
# What stands in the ledger

A batch in the ledger is never applied again. That is right for a batch of which every
record was accepted once. The inbox takes a batch into the ledger as soon as one record was
accepted, so it is right in the runs in which no delivery is applied in part.
-/

namespace LumidPlatform.Sync.Ledger

open LumidPlatform.Ingest.Core LumidPlatform.Write Transitions

variable {D : Type} {unicode : Unicode} {labels : List Str} {target : Target D} {s s' : State D}

/-- Some processed delivery of the batch had no rejected record. -/
def completed (s : State D) (peer batchId : Str) : Bool :=
  s.processed.any (fun p => p.peer == peer && p.batchId == batchId && p.rejected == 0)

/-- Only complete batches are in the ledger, and only deliveries of complete batches were
answered as duplicates. -/
structure Sound (labels : List Str) (s : State D) : Prop where
  ledger : ∀ row ∈ s.ledger, completed s row.peer row.batchId = true
  answers : ∀ answer ∈ s.answers, ∀ ack, answer.result = .ok ack → ack.duplicate = true →
    ∃ peer, peerFrom labels answer.delivery.identity.role answer.delivery.identity.sub =
      some peer ∧ completed s peer answer.delivery.body.batchId = true

/-- The table a delivery is validated against, if it comes that far. -/
def tableAt (target : Target D) (delivery : Delivery) (db : D) : Option TableMeta :=
  match upsertPreamble target delivery.body.provenance db with
  | (.error _, _) => none
  | (.ok (), db) =>
    if target.runExists delivery.body.sourceRunId db then
      match target.tableMeta delivery.schema delivery.table db with
      | (.ok table, _) => table
      | (.error _, _) => none
    else none

/-- Some of the records are accepted and some are not. -/
def splits (table : TableMeta) (records : List Json) : Bool :=
  records.any (accepts table) && records.any (fun record => !accepts table record)

/-- A delivery is applied in part only where it fails on the way, or the batch is complete
already. -/
def whole (unicode : Unicode) (target : Target D) (s : State D) : Label D → Bool
  | .apply n =>
    match s.flights n with
    | some (.admitted peer delivery) =>
      match tableAt target delivery s.db, (applyBatch unicode target delivery s.db).1 with
      | some table, .ok _ =>
        !splits table delivery.body.records || completed s peer delivery.body.batchId
      | _, _ => true
    | _ => true
  | _ => true

/-! ## One delivery -/

/-- What goes through the pipeline was validated against the table found for it. -/
theorem applyBatch_ok {delivery : Delivery} {db db' : D} {result : IngestResult}
    (applied : applyBatch unicode target delivery db = (.ok result, db')) :
    ∃ table found, tableAt target delivery db = some table ∧
      writeTo target.toEngines delivery.params table delivery.body.records found =
        (.ok result, db') := by
  rw [applyBatch] at applied
  split at applied
  · simp at applied
  · rename_i prepared upserted
    split_ifs at applied with known
    · obtain ⟨table, found, answered, written⟩ := ingestRecords_ok applied
      refine ⟨table, found, ?_, written⟩
      have asked : target.tableMeta delivery.schema delivery.table prepared =
          (.ok (some table), found) := answered
      rw [tableAt, upserted]
      dsimp only
      rw [if_pos known, asked]
    · simp at applied

/-- A result that is no error although records were rejected is of a batch applied in
part. -/
theorem splits_of_rejected {delivery : Delivery} {table : TableMeta} {db db' : D}
    {result : IngestResult}
    (written : writeTo target.toEngines delivery.params table delivery.body.records db =
      (.ok result, db'))
    (passed : fullyRejected result = false) (rejected : result.failed ≠ 0) :
    splits table delivery.body.records = true := by
  obtain ⟨received, failed, failure, counts⟩ := writeTo_ok written
  have some_rejected : (validateBatch table delivery.body.records).2 ≠ [] := by
    intro none_rejected
    rw [failed, none_rejected] at rejected
    exact rejected rfl
  have some_parsed : (validateBatch table delivery.body.records).1 ≠ [] := by
    intro none_parsed
    have asFailure := failure.mpr ⟨none_parsed, some_rejected⟩
    obtain ⟨inserted, updated⟩ := counts asFailure
    have all : result.failed = result.received := by
      have sum := validateBatch_length table delivery.body.records
      rw [none_parsed] at sum
      rw [failed, received, ← sum]
      simp
    simp [fullyRejected, asFailure, inserted, updated, all] at passed
  rw [Ne, validateBatch_rejected_eq_nil] at some_rejected
  rw [Ne, validateBatch_parsed_eq_nil] at some_parsed
  push Not at some_rejected some_parsed
  obtain ⟨bad, badIn, refused⟩ := some_rejected
  obtain ⟨good, goodIn, accepted⟩ := some_parsed
  simp only [splits, Bool.and_eq_true, List.any_eq_true]
  exact ⟨⟨good, goodIn, by simpa using accepted⟩, bad, badIn, by simpa using refused⟩

/-! ## The invariant -/

theorem completed_of_processed (more : s.processed <+: s'.processed) {peer batchId : Str}
    (complete : completed s peer batchId = true) : completed s' peer batchId = true := by
  obtain ⟨p, member, here⟩ := List.any_eq_true.mp complete
  exact List.any_eq_true.mpr ⟨p, more.subset member, here⟩

/-- Sound, and what is about to enter the ledger is complete, too. -/
structure Inv (labels : List Str) (s : State D) : Prop extends Sound labels s where
  applied : ∀ n peer delivery result, s.flights n = some (.applied peer delivery result) →
    completed s peer delivery.body.batchId = true

theorem inv_start (db : D) : Inv labels (start db) where
  ledger _ member := by cases member
  answers _ member := by cases member
  applied _ _ _ _ flying := by cases flying

/-- A step that answers one delivery, and processes and records none. -/
theorem Inv.answer (inv : Inv labels s) (n : Nat) (delivery : Delivery)
    (result : ApiResult SyncAck)
    (duplicate : ∀ ack, result = .ok ack → ack.duplicate = true →
      ∃ peer, peerFrom labels delivery.identity.role delivery.identity.sub = some peer ∧
        completed s peer delivery.body.batchId = true) :
    Inv labels (s.answer n delivery result) where
  ledger := inv.ledger
  answers answer member ack answered duplicated := by
    rcases List.mem_append.mp member with old | new
    · exact inv.answers answer old ack answered duplicated
    · obtain rfl := List.mem_singleton.mp new
      exact duplicate ack answered duplicated
  applied m peer other result flying := by
    by_cases here : m = n
    · subst here
      simp [State.answer] at flying
    · exact inv.applied m peer other result (by simpa [State.answer, here] using flying)

theorem ledgerRow_some {ledger : List LedgerRow} {peer batchId : Str} {row : LedgerRow}
    (found : ledgerRow ledger peer batchId = some row) :
    row ∈ ledger ∧ row.peer = peer ∧ row.batchId = batchId := by
  have key := List.find?_some found
  rw [Bool.and_eq_true, beq_iff_eq, beq_iff_eq] at key
  exact ⟨List.mem_of_find?_eq_some found, key⟩

theorem admit_ok {delivery : Delivery} {ledger : List LedgerRow} {peer : Str}
    {found : Option SyncAck} (admitted : admitDelivery labels delivery ledger = .ok (peer, found)) :
    peerFrom labels delivery.identity.role delivery.identity.sub = some peer ∧
      (found.isSome → ∃ row ∈ ledger, row.peer = peer ∧ row.batchId = delivery.body.batchId) := by
  rw [admitDelivery, requireSyncPeer] at admitted
  cases named : peerFrom labels delivery.identity.role delivery.identity.sub with
  | none => simp [named] at admitted
  | some name =>
    rw [named] at admitted
    dsimp only at admitted
    split_ifs at admitted
    split at admitted
    · rename_i row listed
      obtain ⟨rfl, rfl⟩ := Prod.mk.inj (Except.ok.inj admitted)
      obtain ⟨member, peerSame, batchSame⟩ := ledgerRow_some listed
      exact ⟨rfl, fun _ => ⟨row, member, peerSame, batchSame⟩⟩
    · obtain ⟨rfl, rfl⟩ := Prod.mk.inj (Except.ok.inj admitted)
      exact ⟨rfl, by simp⟩

theorem Inv.arrive (inv : Inv labels s) (n : Nat) (delivery : Delivery) :
    Inv labels (arrive labels s n delivery) := by
  rw [Sync.arrive]
  split
  · exact inv.answer n delivery _ (fun _ impossible => by cases impossible)
  · rename_i peer ack admitted
    obtain ⟨named, listed⟩ := admit_ok admitted
    obtain ⟨row, member, peerSame, batchSame⟩ := listed rfl
    refine inv.answer n delivery _ (fun _ _ _ => ⟨peer, named, ?_⟩)
    have complete := inv.ledger row member
    rwa [peerSame, batchSame] at complete
  · refine ⟨⟨inv.ledger, inv.answers⟩, fun m peer other result flying => ?_⟩
    by_cases here : m = n
    · subst here
      simp [State.advance] at flying
    · exact inv.applied m peer other result (by simpa [State.advance, here] using flying)

/-- What a delivery adds to the databases and to what was processed. -/
theorem Inv.processed (inv : Inv labels s) (db : D) (p : Processed) :
    Inv labels { s with db, processed := s.processed ++ [p] } where
  ledger row member := completed_of_processed (List.prefix_append _ _) (inv.ledger row member)
  answers answer member ack answered duplicated := by
    obtain ⟨peer, named, complete⟩ := inv.answers answer member ack answered duplicated
    exact ⟨peer, named, completed_of_processed (List.prefix_append _ _) complete⟩
  applied n peer delivery result flying :=
    completed_of_processed (List.prefix_append _ _) (inv.applied n peer delivery result flying)

theorem Inv.apply (inv : Inv labels s) {n : Nat} {peer : Str} {delivery : Delivery}
    (flying : s.flights n = some (.admitted peer delivery))
    (allowed : whole unicode target s (.apply n) = true) :
    Inv labels (apply unicode target s n peer delivery) := by
  rw [Sync.apply]
  split
  · rename_i error db failed
    have after : Inv labels { s with db } := ⟨⟨inv.ledger, inv.answers⟩, inv.applied⟩
    exact after.answer n delivery _ (fun _ impossible => by cases impossible)
  · rename_i result db applied
    have after := inv.processed db ⟨peer, delivery.body.batchId, result.failed⟩
    dsimp only
    split_ifs with refused
    · exact after.answer n delivery _ (fun _ impossible => by cases impossible)
    · refine ⟨⟨after.ledger, after.answers⟩, fun m other delivered result' reached => ?_⟩
      by_cases here : m = n
      · subst here
        obtain ⟨rfl, rfl, rfl⟩ : peer = other ∧ delivery = delivered ∧ result = result' := by
          simpa [State.advance] using reached
        by_cases none_rejected : result.failed = 0
        · simp [State.advance, completed, none_rejected]
        · obtain ⟨table, found, known, written⟩ := applyBatch_ok applied
          have parted := splits_of_rejected written (by simpa using refused) none_rejected
          have complete : completed s peer delivery.body.batchId = true := by
            simpa [whole, flying, known, applied, parted] using allowed
          exact completed_of_processed (List.prefix_append _ _) complete
      · exact after.applied m other delivered result'
          (by simpa [State.advance, here] using reached)

theorem Inv.record (inv : Inv labels s) {n : Nat} {peer : Str} {delivery : Delivery}
    {result : IngestResult} (flying : s.flights n = some (.applied peer delivery result)) :
    Inv labels (record s n peer delivery result) := by
  have complete := inv.applied n peer delivery result flying
  have listed : Inv labels
      { s with ledger := insertLedger (delivery.row peer result) s.ledger } := by
    refine ⟨⟨fun row member => ?_, inv.answers⟩, inv.applied⟩
    dsimp only at member
    rw [insertLedger] at member
    split_ifs at member
    · exact inv.ledger row member
    · rcases List.mem_append.mp member with old | new
      · exact inv.ledger row old
      · obtain rfl := List.mem_singleton.mp new
        exact complete
  apply listed.answer n delivery
  intro ack answered duplicated
  obtain rfl := Except.ok.inj answered
  cases duplicated

theorem inv_step {label : Label D} (inv : Inv labels s)
    (allowed : whole unicode target s label = true)
    (taken : step unicode labels target s label = some s') : Inv labels s' := by
  cases label with
  | arrive n delivery =>
    rw [step] at taken
    split at taken
    · obtain rfl := Option.some.inj taken
      exact inv.arrive n delivery
    · cases taken
  | apply n =>
    rw [step] at taken
    split at taken
    · rename_i peer delivery flying
      obtain rfl := Option.some.inj taken
      exact inv.apply flying allowed
    · cases taken
  | record n =>
    rw [step] at taken
    split at taken
    · rename_i peer delivery result flying
      obtain rfl := Option.some.inj taken
      exact inv.record flying
    · cases taken
  | lose n =>
    obtain rfl := Option.some.inj taken
    refine ⟨⟨inv.ledger, inv.answers⟩, fun m peer delivery result flying => ?_⟩
    by_cases here : m = n
    · subst here
      simp at flying
    · exact inv.applied m peer delivery result (by simpa [here] using flying)
  | change db =>
    obtain rfl := Option.some.inj taken
    exact ⟨⟨inv.ledger, inv.answers⟩, inv.applied⟩

/-- In a run without partial applies, only complete batches are in the ledger, and a
delivery of any other batch goes on to be applied. -/
theorem ledger_sound {db : D}
    (reached : Reaches (guarded (whole unicode target) (step unicode labels target)) (start db) s) :
    Sound labels s ∧ ∀ delivery peer found, admitDelivery labels delivery s.ledger = .ok (peer, found) →
      completed s peer delivery.body.batchId = false → found = none := by
  have inv : Inv labels s := reached.guarded_invariant (inv_start db)
    (fun _ _ _ inv allowed taken => inv_step inv allowed taken)
  refine ⟨inv.toSound, fun delivery peer found admitted incomplete => ?_⟩
  obtain ⟨-, listed⟩ := admit_ok admitted
  by_contra duplicate
  obtain ⟨row, member, rfl, batchSame⟩ := listed (Option.isSome_iff_ne_none.mpr duplicate)
  rw [← batchSame, inv.ledger row member] at incomplete
  cases incomplete

/-- A result of a batch that splits has rejected records, and is no error. -/
theorem rejected_of_splits {delivery : Delivery} {table : TableMeta} {db db' : D}
    {result : IngestResult}
    (written : writeTo target.toEngines delivery.params table delivery.body.records db =
      (.ok result, db'))
    (split : splits table delivery.body.records = true) :
    fullyRejected result = false ∧ result.failed ≠ 0 := by
  obtain ⟨-, failed, failure, -⟩ := writeTo_ok written
  simp only [splits, Bool.and_eq_true, List.any_eq_true, Bool.not_eq_true'] at split
  obtain ⟨⟨good, goodIn, accepted⟩, bad, badIn, refused⟩ := split
  constructor
  · have some_parsed : (validateBatch table delivery.body.records).1 ≠ [] := by
      intro none_parsed
      rw [validateBatch_parsed_eq_nil.mp none_parsed good goodIn] at accepted
      cases accepted
    have other : result.status ≠ .failed := fun same => some_parsed (failure.mp same).1
    simp [fullyRejected, other]
  · rw [failed, Ne, List.length_eq_zero_iff, validateBatch_rejected_eq_nil]
    intro all
    rw [all bad badIn] at refused
    cases refused

/-- An apply in part, of a batch that is not complete, takes the batch into the ledger if
nothing comes between. -/
theorem parted_recorded {n : Nat} (part : whole unicode target s (.apply n) = false)
    (sound : ∀ row ∈ s.ledger, completed s row.peer row.batchId = true) :
    ∃ applied recorded, step unicode labels target s (.apply n) = some applied ∧
      step unicode labels target applied (.record n) = some recorded ∧
        ∃ row ∈ recorded.ledger, completed recorded row.peer row.batchId = false := by
  rw [whole] at part
  split at part
  · rename_i peer delivery flying
    split at part
    · rename_i table result known answered
      rw [Bool.or_eq_false_iff, Bool.not_eq_false'] at part
      obtain ⟨split, incomplete⟩ := part
      obtain ⟨db, applied⟩ : ∃ db, applyBatch unicode target delivery s.db = (.ok result, db) :=
        ⟨_, Prod.ext answered rfl⟩
      obtain ⟨table', found, known', written⟩ := applyBatch_ok applied
      obtain rfl : table = table' := Option.some.inj (known.symm.trans known')
      obtain ⟨passed, rejected⟩ := rejected_of_splits written split
      have unlisted : ledgerRow s.ledger peer delivery.body.batchId = none := by
        rw [ledgerRow, List.find?_eq_none]
        intro row member here
        rw [Bool.and_eq_true, beq_iff_eq, beq_iff_eq] at here
        rw [← here.1, ← here.2, sound row member] at incomplete
        cases incomplete
      have first : step unicode labels target s (.apply n) = some (State.advance { s with
          db
          processed := s.processed ++ [⟨peer, delivery.body.batchId, result.failed⟩] } n
            (.applied peer delivery result)) := by
        simp [step, flying, apply, applied, passed]
      generalize processing : State.advance _ n _ = processed at first
      have second : step unicode labels target processed (.record n) =
          some (record processed n peer delivery result) := by
        simp [step, ← processing, State.advance]
      refine ⟨_, _, first, second, delivery.row peer result, ?_, ?_⟩
      · subst processing
        simp [record, State.answer, State.advance, insertLedger, Delivery.row, unlisted]
      · subst processing
        have old : s.processed.any (fun p => p.peer == peer &&
            p.batchId == delivery.body.batchId && p.rejected == 0) = false := incomplete
        simp only [completed, record, State.answer, State.advance, Delivery.row, List.any_append,
          old]
        simp [rejected]
    · cases part
  · cases part

/-! ## Two deliveries of one batch -/

/-- One table with one nullable column, and an engine that inserts what it is given. -/
def onlyV : Target Unit where
  tableMeta _ _ _ := (.ok (some ⟨[⟨"v".str, "bigint".str, true, false⟩], ["v".str]⟩), ())
  writeRecords request _ := (.ok (request.records.length, 0), ())
  upsertRow _ _ _ := .ok ()
  runExists _ _ := true

/-- Records of a peer. -/
def sends (records : List Json) : Delivery where
  identity := { sub := "p".str, role := "sync_peer".str }
  schema := "market".str
  table := "divs".str
  body := ⟨"b".str, "fmp".str, "x".str, "r".str, {}, records⟩

/-- The batch is delivered twice. -/
def twice (records : List Json) : List (Label Unit) :=
  [.arrive 0 (sends records), .apply 0, .record 0, .arrive 1 (sends records)]

def good : Json := .object [("v".str, .ofNat 1)]

def bad : Json := .object [("w".str, .ofNat 1)]

/-- What is seen of a run: the answers, and the counts of rejected records. -/
def seen (s : State Unit) : List (Option SyncAck) × List Nat :=
  (s.answers.map (fun answer => answer.result.toOption), s.processed.map Processed.rejected)

/-- A batch of which every record is accepted is a duplicate when it comes again. -/
theorem clean_batch_sound : ∃ s,
    Reaches (guarded (whole Unicode.ascii onlyV) (step Unicode.ascii [] onlyV)) (start ()) s ∧
      seen s = ([some ⟨"b".str, 2, 0, 0, false⟩, some ⟨"b".str, 2, 0, 0, true⟩], [0]) ∧
      Sound [] s := by
  have ran : (run (guarded (whole Unicode.ascii onlyV) (step Unicode.ascii [] onlyV)) (start ())
      (twice [good, good])).map seen =
      some ([some ⟨"b".str, 2, 0, 0, false⟩, some ⟨"b".str, 2, 0, 0, true⟩], [0]) := by
    decide +kernel
  obtain ⟨s, reached, observed⟩ := Option.map_eq_some_iff.mp ran
  exact ⟨s, ⟨_, reached⟩, observed, (ledger_sound ⟨_, reached⟩).1⟩

/-- One of two records is rejected, and the batch is a duplicate when it comes again. -/
theorem parted_batch_duplicate : ∃ s,
    Reaches (step Unicode.ascii [] onlyV) (start ()) s ∧
      seen s = ([some ⟨"b".str, 1, 0, 1, false⟩, some ⟨"b".str, 1, 0, 0, true⟩], [1]) ∧
      ¬Sound [] s := by
  have ran : (run (step Unicode.ascii [] onlyV) (start ()) (twice [good, bad])).map seen =
      some ([some ⟨"b".str, 1, 0, 1, false⟩, some ⟨"b".str, 1, 0, 0, true⟩], [1]) := by
    decide +kernel
  obtain ⟨s, reached, observed⟩ := Option.map_eq_some_iff.mp ran
  refine ⟨s, ⟨_, reached⟩, observed, fun sound => ?_⟩
  obtain ⟨answers, counts⟩ := Prod.mk.inj observed
  have last : some ⟨"b".str, 1, 0, 0, true⟩ ∈
      s.answers.map (fun answer => answer.result.toOption) := by
    rw [answers]
    simp
  obtain ⟨answer, member, answered⟩ := List.mem_map.mp last
  have ok : answer.result = .ok ⟨"b".str, 1, 0, 0, true⟩ := by
    cases result : answer.result with
    | error error => simp [result, Except.toOption] at answered
    | ok ack => simpa [result, Except.toOption] using answered
  obtain ⟨peer, -, complete⟩ := sound.answers answer member _ ok rfl
  obtain ⟨p, processed, here⟩ := List.any_eq_true.mp complete
  have count : p.rejected ∈ s.processed.map Processed.rejected := List.mem_map_of_mem processed
  rw [counts, List.mem_singleton] at count
  simp [count] at here

end LumidPlatform.Sync.Ledger
