import LumidPlatform.Sync.Delivered

/-!
# Deduplication and updates

The id of a batch is a hash of what the batch says, so a batch that says again what an
earlier one said has its id, whatever was said in between. Two inboxes are compared over a
history of pushes: one with the ledger, and one that applies every pushed batch once. They
agree as long as no batch is pushed whose id the ledger has already; redeliveries of a batch
do no harm.
-/

namespace LumidPlatform.Sync.Transparency

open LumidPlatform.Ingest.Core Transitions

variable {D : Type} {unicode : Unicode} {labels : List Str} {target : Target D}

/-! ## One delivery at a time -/

/-- The answer the ledger has for a delivery. -/
def answered (labels : List Str) (ledger : List LedgerRow) (delivery : Delivery) : Bool :=
  match admitDelivery labels delivery ledger with
  | .ok (_, some _) => true
  | _ => false

/-- A delivery that is handled without interruption. -/
def post (unicode : Unicode) (labels : List Str) (target : Target D) (delivery : Delivery)
    (inbox : D × List LedgerRow) : D × List LedgerRow :=
  match admitDelivery labels delivery inbox.2 with
  | .ok (peer, none) =>
    match applyBatch unicode target delivery inbox.1 with
    | (.ok result, db) =>
      (db, if fullyRejected result then inbox.2
        else insertLedger (delivery.row peer result) inbox.2)
    | (.error _, db) => (db, inbox.2)
  | _ => inbox

/-- It is what the stages of the inbox do one after the other. -/
theorem post_eq_stages (s : State D) (n : Nat) (idle : s.flights n = none) (delivery : Delivery) :
    ∃ s' stages, run (step unicode labels target) s (.arrive n delivery :: stages) = some s' ∧
      (s'.db, s'.ledger) = post unicode labels target delivery (s.db, s.ledger) := by
  have arrived : step unicode labels target s (.arrive n delivery) =
      some (arrive labels s n delivery) := by rw [step, idle]
  have onward (stages : List (Label D)) :
      run (step unicode labels target) s (.arrive n delivery :: stages) =
        run (step unicode labels target) (arrive labels s n delivery) stages := by
    rw [run_cons, arrived]
    rfl
  rw [post]
  dsimp only
  cases admitted : admitDelivery labels delivery s.ledger with
  | error error =>
    refine ⟨arrive labels s n delivery, [], onward [], ?_⟩
    simp [arrive, admitted, State.answer]
  | ok found =>
    obtain ⟨peer, ack⟩ := found
    cases ack with
    | some ack =>
      refine ⟨arrive labels s n delivery, [], onward [], ?_⟩
      simp [arrive, admitted, State.answer]
    | none =>
      have waiting : arrive labels s n delivery = s.advance n (.admitted peer delivery) := by
        rw [arrive, admitted]
      rw [waiting] at onward
      have applies : step unicode labels target (s.advance n (.admitted peer delivery)) (.apply n) =
          some (apply unicode target (s.advance n (.admitted peer delivery)) n peer delivery) := by
        simp [step, State.advance]
      generalize applying : apply unicode target (s.advance n (.admitted peer delivery)) n peer
        delivery = t at applies
      rw [apply] at applying
      dsimp only [State.advance] at applying
      have once : run (step unicode labels target) s [.arrive n delivery, .apply n] = some t := by
        rw [onward, run_cons, applies]
        rfl
      cases applied : applyBatch unicode target delivery s.db with
      | mk result db =>
        rw [applied] at applying
        cases result with
        | error error => exact ⟨t, [.apply n], once, by simp [← applying, State.answer]⟩
        | ok result =>
          dsimp only at applying ⊢
          by_cases refused : fullyRejected result = true
          · rw [if_pos refused] at applying ⊢
            exact ⟨t, [.apply n], once, by simp [← applying, State.answer]⟩
          · rw [if_neg refused] at applying ⊢
            have records : step unicode labels target t (.record n) =
                some (record t n peer delivery result) := by
              simp [step, ← applying]
            refine ⟨record t n peer delivery result, [.apply n, .record n], ?_, ?_⟩
            · rw [onward, run_cons, applies, Option.bind_some, run_cons, records]
              rfl
            · simp [record, ← applying, State.answer]

/-- The ledger decides nothing but whether a delivery is answered from it. -/
theorem post_db {delivery : Delivery} {db : D} {ledger : List LedgerRow}
    (fresh : answered labels ledger delivery = false) :
    (post unicode labels target delivery (db, ledger)).1 =
      (post unicode labels target delivery (db, [])).1 := by
  have same : (∃ error, admitDelivery labels delivery ledger = .error error ∧
      admitDelivery labels delivery [] = .error error) ∨
      ∃ peer, admitDelivery labels delivery ledger = .ok (peer, none) ∧
        admitDelivery labels delivery [] = .ok (peer, none) := by
    rw [answered] at fresh
    rw [admitDelivery, admitDelivery]
    rw [admitDelivery] at fresh
    cases named : requireSyncPeer labels delivery.identity with
    | error error => exact Or.inl ⟨error, rfl, rfl⟩
    | ok peer =>
      rw [named] at fresh
      dsimp only at fresh ⊢
      split_ifs at fresh ⊢
      · exact Or.inl ⟨_, rfl, rfl⟩
      · exact Or.inl ⟨_, rfl, rfl⟩
      · cases listed : ledgerRow ledger peer delivery.body.batchId with
        | some row => simp [listed] at fresh
        | none => exact Or.inr ⟨peer, rfl, rfl⟩
  rcases same with ⟨error, first, second⟩ | ⟨peer, first, second⟩
  · rw [post, post]
    dsimp only
    rw [first, second]
  · rw [post, post]
    dsimp only
    rw [first, second]
    dsimp only
    cases applyBatch unicode target delivery db with
    | mk result db => cases result <;> rfl

/-- A delivery that is answered from the ledger changes nothing. -/
theorem post_answered {delivery : Delivery} {db : D} {ledger : List LedgerRow}
    (known : answered labels ledger delivery = true) :
    post unicode labels target delivery (db, ledger) = (db, ledger) := by
  rw [answered] at known
  rw [post]
  split at known
  · rename_i peer ack admitted
    dsimp only
    rw [admitted]
  · cases known

/-! ## A batch that is delivered again -/

/-- A row of the preamble is there when its key is: to upsert it changes nothing. -/
def Present (target : Target D) (table : ProvTable) (row : Json) (db : D) : Prop :=
  target.upsertRow table row db = .ok db

/-- What is documented of the databases behind the inbox: an `INSERT … ON CONFLICT DO NOTHING`
leaves its row there, and the rows that were there before; to look up a table writes nothing;
and a write that fails is rolled back. -/
structure Steady (target : Target D) : Prop where
  upserted : ∀ {table row db db'}, target.upsertRow table row db = .ok db' →
    Present target table row db'
  stays : ∀ {table row other entry db db'}, Present target table row db →
    target.upsertRow other entry db = .ok db' → Present target table row db'
  looked : ∀ schema table db, (target.tableMeta schema table db).2 = db
  rolledBack : ∀ {request db db' error}, target.writeRecords request db = (.error error, db') →
    db' = db

/-- What was there before the rows of one table were upserted is there after it. -/
theorem upsertProv_stays (steady : Steady target) {table other : ProvTable} {row : Json}
    {rows : List Json} {db : D} (present : Present target table row db) :
    Present target table row (upsertProv target other rows db).2 := by
  induction rows generalizing db with
  | nil => exact present
  | cons entry rest inductionHypothesis =>
    rw [upsertProv]
    cases stored : target.upsertRow other entry db with
    | error text => exact present
    | ok db' => exact inductionHypothesis (steady.stays present stored)

/-- To upsert the same rows once more comes to the same, and changes nothing. -/
theorem upsertProv_again (steady : Steady target) (table : ProvTable) (rows : List Json)
    (db : D) : upsertProv target table rows (upsertProv target table rows db).2 =
      upsertProv target table rows db := by
  induction rows generalizing db with
  | nil => rfl
  | cons row rest inductionHypothesis =>
    cases stored : target.upsertRow table row db with
    | error text =>
      -- the rows are as they were when the row was refused, so it is refused again
      have once : upsertProv target table (row :: rest) db =
          (.error (.internal ("preamble upsert ".str ++ table.text ++ ": ".str ++ text)), db) := by
        rw [upsertProv, stored]
      rw [once, once]
    | ok db' =>
      have once : upsertProv target table (row :: rest) db = upsertProv target table rest db' := by
        rw [upsertProv, stored]
      have present : Present target table row (upsertProv target table rest db').2 :=
        upsertProv_stays steady (steady.upserted stored)
      rw [once, upsertProv, present]
      exact inductionHypothesis db'

/-- Rows that are all there are upserted without a change. -/
theorem upsertProv_present {table : ProvTable} {rows : List Json} {db : D}
    (present : ∀ row ∈ rows, Present target table row db) :
    upsertProv target table rows db = (.ok (), db) := by
  induction rows with
  | nil => rfl
  | cons row rest inductionHypothesis =>
    rw [upsertProv, present row List.mem_cons_self]
    exact inductionHypothesis (fun other member => present other (List.mem_cons_of_mem _ member))

/-- Rows that were all upserted are there. -/
theorem upsertProv_stored (steady : Steady target) {table : ProvTable} {rows : List Json}
    {db : D} (stored : (upsertProv target table rows db).1 = .ok ()) :
    ∀ row ∈ rows, Present target table row (upsertProv target table rows db).2 := by
  induction rows generalizing db with
  | nil => simp
  | cons first rest inductionHypothesis =>
    rw [upsertProv] at stored ⊢
    cases taken : target.upsertRow table first db with
    | error text => simp [taken] at stored
    | ok db' =>
      rw [taken] at stored
      intro row member
      rcases List.mem_cons.mp member with rfl | later
      · exact upsertProv_stays steady (steady.upserted taken)
      · exact inductionHypothesis stored row later

/-- A preamble that is upserted once more comes to the same, and changes nothing. -/
theorem upsertPreamble_again (steady : Steady target) (preamble : Preamble) (db : D) :
    upsertPreamble target preamble (upsertPreamble target preamble db).2 =
      upsertPreamble target preamble db := by
  rw [upsertPreamble.eq_def target preamble db]
  cases sources : upsertProv target .apiSources preamble.apiSources db with
  | mk first db₁ =>
    have againSources := upsertProv_again steady .apiSources preamble.apiSources db
    rw [sources] at againSources
    cases first with
    | error error =>
      dsimp only
      rw [upsertPreamble, againSources]
    | ok =>
      have haveSources := upsertProv_stored steady (by rw [sources])
      rw [sources] at haveSources
      dsimp only at haveSources ⊢
      cases endpoints : upsertProv target .endpoints preamble.endpoints db₁ with
      | mk second db₂ =>
        have againEndpoints := upsertProv_again steady .endpoints preamble.endpoints db₁
        have keptSources : ∀ row ∈ preamble.apiSources, Present target .apiSources row
            (upsertProv target .endpoints preamble.endpoints db₁).2 :=
          fun row member => upsertProv_stays steady (haveSources row member)
        rw [endpoints] at againEndpoints keptSources
        cases second with
        | error error =>
          dsimp only
          rw [upsertPreamble, upsertProv_present keptSources]
          dsimp only
          rw [againEndpoints]
        | ok =>
          have haveEndpoints := upsertProv_stored steady (by rw [endpoints])
          rw [endpoints] at haveEndpoints
          dsimp only at haveEndpoints keptSources ⊢
          have againRuns := upsertProv_again steady .runs preamble.runs db₂
          rw [upsertPreamble, upsertProv_present (fun row member =>
            upsertProv_stays steady (keptSources row member))]
          dsimp only
          rw [upsertProv_present (fun row member =>
            upsertProv_stays steady (haveEndpoints row member))]
          exact againRuns

/-- Records none of which gets into the table leave it as it is. -/
theorem writeTo_unwritten (steady : Steady target) {p : IngestParams} {table : Write.TableMeta}
    {records : List Json} {db : D}
    (unwritten : ∀ result, (writeTo target.toEngines p table records db).1 = .ok result →
      fullyRejected result = true) :
    (writeTo target.toEngines p table records db).2 = db := by
  rw [writeTo] at unwritten ⊢
  dsimp only at unwritten ⊢
  by_cases nothing : ((Write.validateBatch table records).1.isEmpty &&
      !(Write.validateBatch table records).2.isEmpty) = true
  · rw [if_pos nothing]
  · rw [if_neg nothing] at unwritten ⊢
    cases written : target.writeRecords ⟨p.targetSchema, p.targetTable, table,
        (Write.validateBatch table records).1, p.source, p.sourceEndpoint, p.runId⟩ db with
    | mk counts db' =>
      rw [written] at unwritten
      cases counts with
      | error error => exact steady.rolledBack written
      | ok counts =>
        -- the engine took the records, so the result is no failure
        have failed := unwritten _ rfl
        simp only [fullyRejected, Bool.and_eq_true, decide_eq_true_eq] at failed
        split_ifs at failed
        · cases failed.1.1.1
        · cases failed.1.1.1

/-- A batch whose records do not get into the table writes nothing but its preamble. -/
theorem ingestRecords_unwritten (steady : Steady target) {p : IngestParams}
    {records : List Json} {db : D}
    (unwritten : ∀ result, (ingestRecords unicode target.toEngines p records db).1 = .ok result →
      fullyRejected result = true) :
    (ingestRecords unicode target.toEngines p records db).2 = db := by
  have looked := steady.looked p.targetSchema p.targetTable db
  rw [ingestRecords] at unwritten ⊢
  cases wrong : paramsError unicode p with
  | some error => rfl
  | none =>
    rw [wrong] at unwritten
    dsimp only at unwritten ⊢
    cases answered : target.tableMeta p.targetSchema p.targetTable db with
    | mk found seen =>
      rw [answered] at looked unwritten
      obtain rfl : seen = db := looked
      cases found with
      | error error => rfl
      | ok found =>
        cases found with
        | none => rfl
        | some table =>
          exact writeTo_unwritten steady unwritten

/-- A batch that did not get in comes to the same when it is applied once more. -/
theorem applyBatch_again (steady : Steady target) {delivery : Delivery} {db : D}
    (unwritten : ∀ result, (applyBatch unicode target delivery db).1 = .ok result →
      fullyRejected result = true) :
    applyBatch unicode target delivery (applyBatch unicode target delivery db).2 =
      applyBatch unicode target delivery db := by
  have again := upsertPreamble_again steady delivery.body.provenance db
  rw [applyBatch.eq_def unicode target delivery db] at unwritten ⊢
  cases preamble : upsertPreamble target delivery.body.provenance db with
  | mk result db₁ =>
    rw [preamble] at again unwritten
    cases result with
    | error error =>
      dsimp only
      rw [applyBatch, again]
    | ok =>
      dsimp only at again unwritten ⊢
      by_cases adopted : target.runExists delivery.body.sourceRunId db₁ = true
      · rw [if_pos adopted] at unwritten ⊢
        rw [ingestRecords_unwritten steady unwritten, applyBatch, again]
        dsimp only
        rw [if_pos adopted]
      · rw [if_neg adopted, applyBatch, again]
        dsimp only
        rw [if_neg adopted]

/-- A batch that enters the ledger is answered from there. -/
theorem answered_insert {delivery : Delivery} {peer : Str} {ledger : List LedgerRow}
    (admitted : admitDelivery labels delivery ledger = .ok (peer, none)) (result : IngestResult) :
    answered labels (insertLedger (delivery.row peer result) ledger) delivery = true := by
  rw [admitDelivery] at admitted
  rw [answered, admitDelivery]
  cases named : requireSyncPeer labels delivery.identity with
  | error error => simp [named] at admitted
  | ok name =>
    rw [named] at admitted
    dsimp only at admitted ⊢
    split_ifs at admitted with denied empty
    rw [if_neg denied, if_neg empty]
    cases listed : ledgerRow ledger name delivery.body.batchId with
    | some row => simp [listed] at admitted
    | none =>
      rw [listed] at admitted
      obtain rfl := (Prod.mk.inj (Except.ok.inj admitted)).1
      have found : ledgerRow (insertLedger (delivery.row name result) ledger) name
          delivery.body.batchId = some (delivery.row name result) := by
        rw [insertLedger, if_neg (by simp [Delivery.row, listed]), ledgerRow, List.find?_append]
        rw [ledgerRow] at listed
        simp [listed, Delivery.row]
      rw [found]

/-- A delivery that is handled once more changes nothing: its batch stands in the ledger, or it
did not get in and does not get in again. -/
theorem post_post (steady : Steady target) (delivery : Delivery) (inbox : D × List LedgerRow) :
    post unicode labels target delivery (post unicode labels target delivery inbox) =
      post unicode labels target delivery inbox := by
  obtain ⟨db, ledger⟩ := inbox
  cases admitted : admitDelivery labels delivery ledger with
  | error error =>
    have ignored : post unicode labels target delivery (db, ledger) = (db, ledger) := by
      simp [post, admitted]
    rw [ignored, ignored]
  | ok found =>
    obtain ⟨peer, ack⟩ := found
    cases ack with
    | some ack =>
      have known : answered labels ledger delivery = true := by simp [answered, admitted]
      rw [post_answered known, post_answered known]
    | none =>
      have again := @applyBatch_again D unicode target steady delivery db
      cases applied : applyBatch unicode target delivery db with
      | mk result db' =>
        rw [applied] at again
        cases result with
        | error error =>
          have once : post unicode labels target delivery (db, ledger) = (db', ledger) := by
            simp [post, admitted, applied]
          rw [once]
          simp [post, admitted, again (by simp)]
        | ok result =>
          by_cases refused : fullyRejected result = true
          · have once : post unicode labels target delivery (db, ledger) = (db', ledger) := by
              simp [post, admitted, applied, refused]
            rw [once]
            simp [post, admitted, again (by simpa using refused), refused]
          · have once : post unicode labels target delivery (db, ledger) =
                (db', insertLedger (delivery.row peer result) ledger) := by
              simp [post, admitted, applied, refused]
            rw [once, post_answered (answered_insert admitted result)]

/-! ## Two inboxes -/

/-- A target behind the ledger, the ledger, a target to which every pushed batch is applied
once, and the batch that was pushed last. -/
structure Both (D : Type) where
  db : D
  ledger : List LedgerRow
  once : D
  last : Option Delivery

/-- A batch is sent, or the last one once more. -/
inductive Event where
  | push (delivery : Delivery)
  | again

def deliver (unicode : Unicode) (labels : List Str) (target : Target D) (s : Both D) :
    Event → Option (Both D)
  | .push delivery =>
    let inbox := post unicode labels target delivery (s.db, s.ledger)
    some ⟨inbox.1, inbox.2, (post unicode labels target delivery (s.once, [])).1, some delivery⟩
  | .again =>
    match s.last with
    | none => none
    | some delivery =>
      let inbox := post unicode labels target delivery (s.db, s.ledger)
      some { s with db := inbox.1, ledger := inbox.2 }

/-- The ledger does not have the batch that is pushed: no group of the same peer with its id,
which is a hash of its run id and of its rows without what the server stamps, was applied. -/
def fresh (labels : List Str) (s : Both D) : Event → Bool
  | .push delivery => !answered labels s.ledger delivery
  | .again => true

/-- The two targets are the same. -/
def Agree (s : Both D) : Prop := s.db = s.once

/-- The targets are the same, and the last batch has nothing left to do. -/
structure Settled (unicode : Unicode) (labels : List Str) (target : Target D) (s : Both D) :
    Prop where
  agree : Agree s
  done : ∀ delivery, s.last = some delivery →
    post unicode labels target delivery (s.db, s.ledger) = (s.db, s.ledger)

/-- A batch that the ledger does not have gets to both targets, and sending it again changes
neither. -/
theorem Settled.step (steady : Steady target) {s s' : Both D} {event : Event}
    (settled : Settled unicode labels target s) (new : fresh labels s event = true)
    (taken : deliver unicode labels target s event = some s') :
    Settled unicode labels target s' := by
  obtain ⟨db, ledger, once, last⟩ := s
  obtain ⟨agree, done⟩ := settled
  obtain rfl : db = once := agree
  cases event with
  | push delivery =>
    obtain rfl := Option.some.inj taken
    refine ⟨post_db (by simpa [fresh] using new), fun later sent => ?_⟩
    obtain rfl := Option.some.inj sent
    exact post_post steady delivery (db, ledger)
  | again =>
    cases last with
    | none => cases taken
    | some delivery =>
      obtain rfl := Option.some.inj taken
      have unchanged := done delivery rfl
      dsimp only at unchanged
      refine ⟨?_, fun later sent => ?_⟩
      · simp only [Agree, unchanged]
      · obtain rfl := Option.some.inj sent
        simp only [unchanged]

/-! ## Histories -/

/-- Successive runs of a producer, each with how often its batches are delivered beyond the
first time. -/
abbrev History := List (Delivered.Call × (Nat → Nat))

/-- What the target gets of a history: the batches of each run in order, each with its
redeliveries. -/
def events (producer : Producer) (identity : Identity) : Delivered.State → History → List Event
  | _, [] => []
  | s, (call, extra) :: rest =>
    let sent := (Delivered.pushes producer s call).1.sent
    sent.zipIdx.flatMap (fun entry =>
        .push ⟨identity, producer.schema, producer.table, entry.1⟩ ::
          List.replicate (extra entry.2) .again) ++
      match Delivered.step producer s call with
      | some s' => events producer identity s' rest
      | none => []

/-- The events can all happen. -/
theorem run_redeliveries (s : Both D) (delivery : Delivery) (extra : Nat) (rest : List Event)
    (onward : ∀ s : Both D, ∃ s', run (deliver unicode labels target) s rest = some s') :
    ∃ s', run (deliver unicode labels target) s
      (.push delivery :: List.replicate extra .again ++ rest) = some s' := by
  have repeats (extra : Nat) (t : Both D) (last : t.last = some delivery) :
      ∃ s', run (deliver unicode labels target) t (List.replicate extra .again ++ rest) =
        some s' := by
    induction extra generalizing t with
    | zero => exact onward t
    | succ extra inductionHypothesis =>
      obtain ⟨next, taken, same⟩ : ∃ next, deliver unicode labels target t .again = some next ∧
          next.last = some delivery := by
        rw [deliver, last]
        exact ⟨_, rfl, rfl⟩
      obtain ⟨s', ran⟩ := inductionHypothesis next same
      refine ⟨s', ?_⟩
      rw [List.replicate_succ, List.cons_append, run_cons, taken]
      exact ran
  rw [List.cons_append, run_cons]
  exact repeats extra _ rfl

theorem run_events (producer : Producer) (identity : Identity) (t : Delivered.State)
    (history : History) (s : Both D) :
    ∃ s', run (deliver unicode labels target) s (events producer identity t history) = some s' := by
  induction history generalizing t s with
  | nil => exact ⟨s, rfl⟩
  | cons head rest inductionHypothesis =>
    obtain ⟨call, extra⟩ := head
    rw [events]
    generalize (Delivered.pushes producer t call).1.sent.zipIdx = sent
    induction sent generalizing s with
    | nil =>
      rw [List.flatMap_nil, List.nil_append]
      split
      · exact inductionHypothesis _ s
      · exact ⟨s, rfl⟩
    | cons entry later laterHypothesis =>
      rw [List.flatMap_cons, List.append_assoc]
      exact run_redeliveries s _ _ _ laterHypothesis

/-- The crates on plain input, with instants that read back. -/
def clockCrates : Crates :=
  { Crates.plain with
    parseRfc3339 := fun s => (Text.parseDigits s).map (fun n =>
      ⟨Equiv.intEquivNat.symm (Nat.unpair n).1, (Nat.unpair n).2⟩) }

/-- A producer of a table with a key and a value. -/
def quotes : Producer where
  crates := clockCrates
  parseUuid := some
  readable _ := true
  targetUrl := "https://hub".str
  peerId := []
  maxAttempts := 5
  batchRows := 1000
  schema := "market".str
  table := "quotes".str

/-- The one row of the source after a number of updates, written at that time by one and the
same ingest run. -/
def quoteRow (time value : Nat) : SourceRow where
  xmin := time
  ctid := (0, time)
  stamps _ := some time
  toJsonb := some <| .object [("k".str, .ofNat 1), ("v".str, .ofNat value),
    ("source".str, .string "fmp".str),
    ("source_endpoint".str, .string "x".str), ("source_run_id".str, .string "r".str),
    ("ingest_ts".str, .string (Text.showNat time))]

/-- A run that is acknowledged at once. -/
def pushAt (time value : Nat) : Delivered.Call where
  source := ⟨fun _ => some "timestamp with time zone".str, [quoteRow time value], by simp⟩
  col := "ingest_ts".str
  surroundings := ⟨fun _ => .ok {}, [⟨.acked .null, .allBut []⟩], fun _ => true, fun _ => true⟩
  batchRows := 1000
  maxAttempts := 5
  room := by decide

/-- A number in a record. -/
def number (record : Json) (key : Str) : Int :=
  match field record key with
  | some (.number (.int n)) => n
  | _ => 0

/-- `ON CONFLICT (k) DO UPDATE SET v`. -/
def upsertPair (key value : Int) : List (Int × Int) → List (Int × Int)
  | [] => [(key, value)]
  | (k, v) :: rest => if k = key then (k, value) :: rest else (k, v) :: upsertPair key value rest

/-- A target with the same table. -/
def hub : Target (List (Int × Int)) where
  tableMeta _ _ db := (.ok (some ⟨[⟨"k".str, "bigint".str, false, false⟩,
    ⟨"v".str, "bigint".str, true, false⟩], ["k".str]⟩), db)
  writeRecords request db := (.ok (request.records.length, 0), request.records.foldl
    (fun rows record => upsertPair (number record "k".str) (number record "v".str) rows) db)
  upsertRow _ _ db := .ok db
  runExists _ _ := true

def hubPeer : Identity := { sub := "p".str, role := "sync_peer".str }

/-- Its engine refuses nothing. -/
theorem hub_steady : Steady hub where
  upserted _ := rfl
  stays _ _ := rfl
  looked _ _ _ := rfl
  rolledBack refused := by cases refused

/-- Two updates, of which the first is delivered twice more and the second once more. -/
def twoUpdates : History := [(pushAt 1 1, fun _ => 2), (pushAt 2 2, fun _ => 1)]

end LumidPlatform.Sync.Transparency
