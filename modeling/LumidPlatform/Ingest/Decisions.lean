import LumidPlatform.Ingest.WriteAuthority

/-!
# Concurrent decisions on a proposal

An approval reads the pending row, creates the table, and then writes the engine, the right of
the proposer and the new status in one transaction. A rejection and a counter-proposal are one
statement each. Only these two look whether the row is still pending. Statements of several
requests interleave; what a transaction has written is seen when it commits, and until then
others wait for the rows it has written.
-/

namespace LumidPlatform.Ingest.Decisions

open Transitions

deriving instance DecidableEq for CreateTable

variable {deployment : Deployment}

/-- How far an approval has come: the row is read, the table is created, and the statements of
`record_backend_acl_status` are run. -/
inductive Phase where
  | read
  | created
  | backend
  | acl
  | status
  | ended
  deriving DecidableEq

/-- The next statement of `record_backend_acl_status`. -/
def Phase.next : Phase → Option Phase
  | created => some backend
  | backend => some acl
  | acl => some status
  | _ => none

/-- The transaction has written rows of the bookkeeping. -/
def Phase.recording (phase : Phase) : Bool := phase == backend || phase == acl || phase == status

/-- An approval under way, with what it makes of the row it has read. -/
structure Approval where
  chosen : BackendKind
  reviewer : Str
  role : Str
  ddl : CreateTable
  phase : Phase
  deriving DecidableEq

/-- The proposal, its target on both engines, and the requests under way. A table is known by
the statement that created it. -/
structure World where
  row : Proposal
  tables : BackendKind → Option CreateTable
  /-- The row of `provenance.table_backend` for the target. -/
  backend : Option Str
  acl : List AclRow
  approvals : List Approval
  /-- The changes of the status so far. Nothing is decided by them. -/
  moves : List (Status × Status)
  /-- Whether the proposal has led to a right, and where to a table. -/
  granted : Bool
  made : List BackendKind

/-- A pending proposal. -/
def start (row : Proposal) (tables : BackendKind → Option CreateTable) (backend : Option Str)
    (acl : List AclRow) : World := ⟨row, tables, backend, acl, [], [], false, []⟩

/-- One statement. -/
inductive Action where
  /-- An approval reads the pending row. -/
  | approve (reviewer : Str) (override : Option BackendKind)
  /-- It creates the table. -/
  | create (place : Nat)
  /-- It runs the next statement of its transaction. -/
  | record (place : Nat)
  | commit (place : Nat)
  /-- It fails, and its transaction is rolled back. -/
  | fail (place : Nat)
  | reject (reviewer : Str)
  /-- A counter-proposal, with what the language model makes of it. -/
  | counter (columns : Json) (key : List Str) (refined : Option (JsonMap × List Str))

namespace World

variable (w : World)

/-- A write of the row; a change of its status is noted. -/
def setRow (row : Proposal) : World :=
  { w with
    row
    moves := if row.status = w.row.status then w.moves
      else w.moves ++ [(w.row.status, row.status)] }

/-- `CREATE TABLE IF NOT EXISTS`. -/
def makeTable (kind : BackendKind) (ddl : CreateTable) : World :=
  if (w.tables kind).isSome then w
  else { w with tables := Function.update w.tables kind (some ddl), made := w.made ++ [kind] }

/-- An approval goes on to its next phase. -/
def setPhase (place : Nat) (approval : Approval) (phase : Phase) : World :=
  { w with approvals := w.approvals.set place { approval with phase } }

/-- A transaction has written the row of the proposal. -/
def rowLocked : Bool := w.approvals.any (fun a => a.phase == .status)

/-- A transaction on Postgres has created the table. -/
def nameLocked : Bool := w.approvals.any (fun a =>
  a.chosen == .postgres && (a.phase == .created || a.phase.recording))

/-- What the statements of `record_backend_acl_status` write. -/
def recorded (a : Approval) : World :=
  { w.setRow { w.row with
      status := .applied
      appliedTable := some (a.ddl.schema ++ '.' :: a.ddl.table)
      reviewerSub := some a.reviewer } with
    backend := some a.chosen.asStr
    acl := upsertAcl ⟨a.role, a.ddl.schema, a.ddl.table, true⟩ w.acl
    granted := true }

/-- The transaction of an approval becomes visible; on Postgres it has created the table. -/
def applied (a : Approval) : World :=
  (if a.chosen = .postgres then w.makeTable .postgres a.ddl else w).recorded a

end World

/-- What a statement does. `none` where it is not the next of its request, has to wait, or is
refused. -/
def step (deployment : Deployment) (w : World) : Action → Option World
  | .approve reviewer override =>
    if w.row.status = .pending then
      let chosen := override.getD (BackendKind.ofStrOrPg w.row.suggestedBackend)
      if chosen = .clickHouse && !deployment.clickhouseConfigured then some w
      else
        match buildCreateTable deployment.crates.unicode w.row with
        | .error _ => some w
        | .ok ddl =>
          some { w with approvals :=
            w.approvals ++ [⟨chosen, reviewer, w.row.proposerRole, ddl, .read⟩] }
    else some w
  | .create place =>
    match w.approvals[place]? with
    | some a =>
      if a.phase = .read && creatable a.chosen a.ddl (w.tables a.chosen).isSome then
        match a.chosen with
        | .clickHouse => some ((w.makeTable .clickHouse a.ddl).setPhase place a .created)
        | .postgres =>
          if (w.tables .postgres).isNone && w.nameLocked then none
          else some (w.setPhase place a .created)
      else none
    | none => none
  | .record place =>
    match w.approvals[place]? with
    | some a =>
      match a.phase.next with
      | some phase =>
        if a.phase = .created && w.approvals.any (fun b => b.phase.recording) then none
        else some (w.setPhase place a phase)
      | none => none
    | none => none
  | .commit place =>
    match w.approvals[place]? with
    | some a => if a.phase = .status then some ((w.applied a).setPhase place a .ended) else none
    | none => none
  | .fail place =>
    match w.approvals[place]? with
    | some a => some (w.setPhase place a .ended)
    | none => none
  | .reject reviewer =>
    if w.rowLocked then none
    else if w.row.status = .pending then
      some (w.setRow { w.row with status := .rejected, reviewerSub := some reviewer })
    else some w
  | .counter columns key refined =>
    match validate deployment.crates.unicode columns key with
    | .error _ => some w
    | .ok builder =>
      if w.rowLocked then none
      else if w.row.status = .pending then
        let current := refined.getD builder
        some (w.setRow { w.row with inferredSchema := current.1, inferredKey := current.2 })
      else some w

/-! ## What is to hold -/

/-- The decision is made once, a rejected proposal has led to nothing, and an applied one is
recorded on an engine where the target was created by the statement for its schema. -/
structure Consistent (unicode : Unicode) (w : World) : Prop where
  moves : w.moves = [] ∨ w.moves = [(.pending, .applied)] ∨ w.moves = [(.pending, .rejected)]
  rejected : w.row.status = .rejected → w.granted = false ∧ w.made = []
  applied : w.row.status = .applied → ∃ ddl kind, buildCreateTable unicode w.row = .ok ddl ∧
    w.backend = some (BackendKind.asStr kind) ∧ w.tables kind = some ddl

/-- No table is created on ClickHouse for a rejected proposal; an approval commits when the
proposal is not rejected, and its table is that of the schema that the row has then; nothing is
rejected after a table was created for it. -/
def undisturbed (unicode : Unicode) (w : World) : Action → Bool
  | .create place =>
    match w.approvals[place]? with
    | some a => a.chosen == .postgres || w.row.status != .rejected || (w.tables .clickHouse).isSome
    | none => true
  | .commit place =>
    match w.approvals[place]? with
    | some a => w.row.status != .rejected &&
        match buildCreateTable unicode w.row with
        | .ok ddl => ddl == (w.tables a.chosen).getD a.ddl
        | .error _ => false
    | none => true
  | .reject _ => w.row.status != .pending || w.made.isEmpty
  | _ => true

/-- What the history says of the state, whatever the run was. -/
structure Tracked (w : World) : Prop where
  status : w.row.status = (w.moves.getLast?.map Prod.snd).getD .pending
  granted : w.granted = true → w.row.status ≠ .pending
  created : ∀ a ∈ w.approvals, a.chosen = .clickHouse → a.phase ≠ .read → a.phase ≠ .ended →
    (w.tables .clickHouse).isSome = true

/-- At the start there are no approvals to keep track of. -/
theorem tracked_start {row : Proposal} (pending : row.status = .pending)
    (tables : BackendKind → Option CreateTable) (backend : Option Str) (acl : List AclRow) :
    Tracked (start row tables backend acl) where
  status := pending
  granted granted := by cases granted
  created a member := by cases member

/-- An open proposal agrees with any tables. -/
theorem consistent_start {row : Proposal} (pending : row.status = .pending)
    (tables : BackendKind → Option CreateTable) (backend : Option Str) (acl : List AclRow) :
    Consistent deployment.crates.unicode (start row tables backend acl) where
  moves := Or.inl rfl
  rejected _ := ⟨rfl, rfl⟩
  applied applied := by
    rw [start, pending] at applied
    cases applied

/-! ## Parts of a step -/

section

variable {w : World} {row : Proposal} {kind : BackendKind} {ddl : CreateTable}

/-- The status of the row is where the last change has led. -/
theorem setRow_status (tracked : Tracked w) :
    (w.setRow row).row.status = ((w.setRow row).moves.getLast?.map Prod.snd).getD .pending := by
  rw [World.setRow]
  dsimp only
  split_ifs with same
  · rw [same]
    exact tracked.status
  · rw [List.getLast?_append, List.getLast?_singleton, Option.some_or]
    rfl

/-- An approval is one from before, or the one that went on. -/
theorem mem_setPhase {place : Nat} {a b : Approval} {phase : Phase}
    (member : b ∈ (w.setPhase place a phase).approvals) :
    b ∈ w.approvals ∨ b = { a with phase } := by
  exact List.mem_or_eq_of_mem_set member

/-- After a table is created there is one. -/
theorem makeTable_isSome : ((w.makeTable kind ddl).tables kind).isSome = true := by
  rw [World.makeTable]
  split_ifs with there
  · exact there
  · dsimp only
    rw [Function.update_self]
    rfl

/-- It is the one that was there, if there was one. -/
theorem makeTable_self : (w.makeTable kind ddl).tables kind = some ((w.tables kind).getD ddl) := by
  rw [World.makeTable]
  cases there : w.tables kind with
  | none =>
    rw [Option.isSome_none, if_neg Bool.false_ne_true]
    exact Function.update_self ..
  | some old =>
    rw [Option.isSome_some, if_pos rfl, there]
    rfl

/-- A table that is there stays. -/
theorem makeTable_of_some {other : BackendKind} {old : CreateTable}
    (there : w.tables other = some old) : (w.makeTable kind ddl).tables other = some old := by
  rw [World.makeTable]
  split_ifs with present
  · exact there
  · have different : other ≠ kind := by
      rintro rfl
      rw [there] at present
      exact present rfl
    exact (Function.update_of_ne different ..).trans there

/-- Creating a table leaves the proposal's row alone. -/
theorem makeTable_row : (w.makeTable kind ddl).row = w.row := by
  rw [World.makeTable]
  split_ifs
  · rfl
  · rfl

/-- It leaves the changes of the status alone. -/
theorem makeTable_moves : (w.makeTable kind ddl).moves = w.moves := by
  rw [World.makeTable]
  split_ifs
  · rfl
  · rfl

/-- It grants nothing. -/
theorem makeTable_granted : (w.makeTable kind ddl).granted = w.granted := by
  rw [World.makeTable]
  split_ifs
  · rfl
  · rfl

/-- It leaves the approvals alone. -/
theorem makeTable_approvals : (w.makeTable kind ddl).approvals = w.approvals := by
  rw [World.makeTable]
  split_ifs
  · rfl
  · rfl

/-- It leaves the recorded engine alone. -/
theorem makeTable_backend : (w.makeTable kind ddl).backend = w.backend := by
  rw [World.makeTable]
  split_ifs
  · rfl
  · rfl

end

/-! ## History -/

/-- A table that is created keeps the approvals' records right. -/
theorem Tracked.makeTable {w : World} (tracked : Tracked w) (kind : BackendKind)
    (ddl : CreateTable) : Tracked (w.makeTable kind ddl) where
  status := by
    rw [makeTable_row, makeTable_moves]
    exact tracked.status
  granted granted := by
    rw [makeTable_granted] at granted
    rw [makeTable_row]
    exact tracked.granted granted
  created a member chosen begun going := by
    rw [makeTable_approvals] at member
    obtain ⟨old, there⟩ := Option.isSome_iff_exists.mp (tracked.created a member chosen begun going)
    rw [makeTable_of_some there]
    rfl

/-- So does an approval that goes on, if it has created its table where it says so. -/
theorem Tracked.setPhase {w : World} (tracked : Tracked w) (place : Nat) {a : Approval}
    {phase : Phase} (created : a.chosen = .clickHouse → phase ≠ .read → phase ≠ .ended →
      (w.tables .clickHouse).isSome = true) : Tracked (w.setPhase place a phase) where
  status := tracked.status
  granted := tracked.granted
  created b member chosen begun going := by
    rcases mem_setPhase member with old | rfl
    · exact tracked.created b old chosen begun going
    · exact created chosen begun going

/-- A row that is written for no approval leaves its pending status only. -/
theorem Tracked.setRow {w : World} (tracked : Tracked w) {row : Proposal}
    (pending : w.row.status = .pending) : Tracked (w.setRow row) where
  status := setRow_status tracked
  granted granted := absurd pending (tracked.granted granted)
  created := tracked.created

/-- So does one that is written down. -/
theorem Tracked.applied {w : World} (tracked : Tracked w) (a : Approval) :
    Tracked (w.applied a) := by
  have going : Tracked (if a.chosen = .postgres then w.makeTable .postgres a.ddl else w) := by
    split_ifs
    · exact tracked.makeTable _ _
    · exact tracked
  constructor
  · exact setRow_status going
  · intro _ pending
    cases pending
  · exact going.created

/-- What a statement does where it is carried out. -/
inductive Effect (deployment : Deployment) (w : World) : Action → World → Prop
  | refuse {reviewer : Str} {override : Option BackendKind} :
      Effect deployment w (.approve reviewer override) w
  | approve {reviewer : Str} {override : Option BackendKind} {chosen : BackendKind}
      {ddl : CreateTable} :
      Effect deployment w (.approve reviewer override)
        { w with approvals := w.approvals ++ [⟨chosen, reviewer, w.row.proposerRole, ddl, .read⟩] }
  | createHouse {place : Nat} {a : Approval} (found : w.approvals[place]? = some a)
      (chosen : a.chosen = .clickHouse) :
      Effect deployment w (.create place)
        ((w.makeTable .clickHouse a.ddl).setPhase place a .created)
  | createLater {place : Nat} {a : Approval} (found : w.approvals[place]? = some a)
      (chosen : a.chosen = .postgres) :
      Effect deployment w (.create place) (w.setPhase place a .created)
  | record {place : Nat} {a : Approval} {phase : Phase} (found : w.approvals[place]? = some a)
      (following : a.phase.next = some phase) :
      Effect deployment w (.record place) (w.setPhase place a phase)
  | commit {place : Nat} {a : Approval} (found : w.approvals[place]? = some a)
      (last : a.phase = .status) :
      Effect deployment w (.commit place) ((w.applied a).setPhase place a .ended)
  | fail {place : Nat} {a : Approval} :
      Effect deployment w (.fail place) (w.setPhase place a .ended)
  | reject {reviewer : Str} (pending : w.row.status = .pending) :
      Effect deployment w (.reject reviewer)
        (w.setRow { w.row with status := .rejected, reviewerSub := some reviewer })
  | rejectLate {reviewer : Str} (decided : w.row.status ≠ .pending) :
      Effect deployment w (.reject reviewer) w
  | counter {columns : Json} {key : List Str} {refined : Option (JsonMap × List Str)}
      (pending : w.row.status = .pending) {schema : JsonMap} {agreed : List Str} :
      Effect deployment w (.counter columns key refined)
        (w.setRow { w.row with inferredSchema := schema, inferredKey := agreed })
  | counterLate {columns : Json} {key : List Str} {refined : Option (JsonMap × List Str)} :
      Effect deployment w (.counter columns key refined) w

/-- The inversion of a step, once for all actions. -/
theorem effect_of_step {w next : World} {action : Action}
    (stepped : step deployment w action = some next) : Effect deployment w action next := by
  cases action with
  | approve reviewer override =>
    simp only [step] at stepped
    split_ifs at stepped
    · obtain rfl := Option.some.inj stepped
      exact .refuse
    · split at stepped
      · obtain rfl := Option.some.inj stepped
        exact .refuse
      · obtain rfl := Option.some.inj stepped
        exact .approve
    · obtain rfl := Option.some.inj stepped
      exact .refuse
  | create place =>
    simp only [step] at stepped
    split at stepped
    · rename_i a found
      cases chosen : a.chosen with
      | clickHouse =>
        simp only [chosen] at stepped
        split_ifs at stepped
        obtain rfl := Option.some.inj stepped
        exact .createHouse found chosen
      | postgres =>
        simp only [chosen] at stepped
        split_ifs at stepped
        obtain rfl := Option.some.inj stepped
        exact .createLater found chosen
    · cases stepped
  | record place =>
    simp only [step] at stepped
    split at stepped
    · rename_i a found
      split at stepped
      · rename_i phase following
        split_ifs at stepped
        obtain rfl := Option.some.inj stepped
        exact .record found following
      · cases stepped
    · cases stepped
  | commit place =>
    simp only [step] at stepped
    split at stepped
    · rename_i a found
      split_ifs at stepped with last
      obtain rfl := Option.some.inj stepped
      exact .commit found last
    · cases stepped
  | fail place =>
    simp only [step] at stepped
    split at stepped
    · obtain rfl := Option.some.inj stepped
      exact .fail
    · cases stepped
  | reject reviewer =>
    simp only [step] at stepped
    split_ifs at stepped with locked pending
    · obtain rfl := Option.some.inj stepped
      exact .reject pending
    · obtain rfl := Option.some.inj stepped
      exact .rejectLate pending
  | counter columns key refined =>
    simp only [step] at stepped
    split at stepped
    · obtain rfl := Option.some.inj stepped
      exact .counterLate
    · split_ifs at stepped with locked pending
      · obtain rfl := Option.some.inj stepped
        exact .counter pending
      · obtain rfl := Option.some.inj stepped
        exact .counterLate

/-- The history is kept, whatever the step is. -/
theorem Tracked.step {w next : World} {action : Action} (tracked : Tracked w)
    (stepped : step deployment w action = some next) : Tracked next := by
  cases effect_of_step stepped with
  | refuse | rejectLate | counterLate => exact tracked
  | approve =>
    refine ⟨tracked.status, tracked.granted, ?_⟩
    intro a member chosen begun going
    rcases List.mem_append.mp member with old | new
    · exact tracked.created a old chosen begun going
    · rw [List.mem_singleton.mp new] at begun
      exact absurd rfl begun
  | createHouse => exact (tracked.makeTable _ _).setPhase _ (fun _ _ _ => makeTable_isSome)
  | createLater _ chosen =>
    exact tracked.setPhase _ (fun other => by rw [chosen] at other; cases other)
  | @record place a phase found following =>
    refine tracked.setPhase place fun chosen _ _ =>
      tracked.created a (List.mem_of_getElem? found) chosen ?_ ?_
    · intro read
      rw [read] at following
      cases following
    · intro ended
      rw [ended] at following
      cases following
  | commit => exact (tracked.applied _).setPhase _ (fun _ _ ended => absurd rfl ended)
  | fail => exact tracked.setPhase _ (fun _ _ ended => absurd rfl ended)
  | reject pending | counter pending => exact tracked.setRow pending

/-! ## Single steps -/

/-- Only the row, the tables and the history matter. -/
theorem consistent_setPhase {unicode : Unicode} {w : World} {place : Nat} {a : Approval}
    {phase : Phase} : Consistent unicode (w.setPhase place a phase) ↔ Consistent unicode w := by
  constructor
  · intro consistent
    exact ⟨consistent.moves, consistent.rejected, consistent.applied⟩
  · intro consistent
    exact ⟨consistent.moves, consistent.rejected, consistent.applied⟩

/-- A pending row has not moved. -/
theorem moves_of_pending {unicode : Unicode} {w : World} (tracked : Tracked w)
    (consistent : Consistent unicode w) (pending : w.row.status = .pending) : w.moves = [] := by
  have status := tracked.status
  rcases consistent.moves with none | applied | rejected
  · exact none
  · rw [applied, pending] at status
    cases status
  · rw [rejected, pending] at status
    cases status

/-- A table that is created leaves the decision consistent unless it is a rejection. -/
theorem consistent_makeTable {unicode : Unicode} {w : World} {kind : BackendKind}
    {ddl : CreateTable} (consistent : Consistent unicode w) :
    Consistent unicode (w.makeTable kind ddl) ↔
      w.row.status ≠ .rejected ∨ (w.tables kind).isSome = true := by
  by_cases there : (w.tables kind).isSome = true
  · rw [World.makeTable, if_pos there]
    exact iff_of_true consistent (Or.inr there)
  · rw [or_iff_left there]
    constructor
    · intro after rejected
      have none := (after.rejected (by rw [makeTable_row]; exact rejected)).2
      rw [World.makeTable, if_neg there] at none
      exact List.append_ne_nil_of_right_ne_nil _ (List.cons_ne_nil _ _) none
    · intro undecided
      constructor
      · rw [makeTable_moves]
        exact consistent.moves
      · intro rejected
        rw [makeTable_row] at rejected
        exact absurd rejected undecided
      · intro applied
        rw [makeTable_row] at applied ⊢
        obtain ⟨ddl', kind', built, recorded, table⟩ := consistent.applied applied
        exact ⟨ddl', kind', built, by rw [makeTable_backend]; exact recorded,
          makeTable_of_some table⟩

/-- The two engines have different names. -/
theorem asStr_injective {kind kind' : BackendKind} (same : kind.asStr = kind'.asStr) :
    kind = kind' := by
  rw [← BackendKind.ofStrOrPg_asStr kind, same, BackendKind.ofStrOrPg_asStr]

/-- The table of an approval, once its transaction is visible. -/
theorem applied_tables {w : World} {a : Approval}
    (created : a.chosen = .clickHouse → (w.tables .clickHouse).isSome = true) :
    (w.applied a).tables a.chosen = some ((w.tables a.chosen).getD a.ddl) := by
  cases chosen : a.chosen with
  | postgres =>
    simp only [World.applied, World.recorded, chosen, if_true]
    exact makeTable_self
  | clickHouse =>
    obtain ⟨old, there⟩ := Option.isSome_iff_exists.mp (created chosen)
    simp only [World.applied, World.recorded, chosen, reduceCtorEq, if_false]
    rw [World.setRow, there]
    rfl

/-- A commit is consistent exactly where it finds the proposal not rejected, and the table that
its schema describes. -/
theorem consistent_applied {unicode : Unicode} {w : World} {a : Approval}
    (tracked : Tracked w) (consistent : Consistent unicode w)
    (created : a.chosen = .clickHouse → (w.tables .clickHouse).isSome = true) :
    Consistent unicode (w.applied a) ↔ w.row.status ≠ .rejected ∧
      buildCreateTable unicode w.row = .ok ((w.tables a.chosen).getD a.ddl) := by
  have row : (if a.chosen = .postgres then w.makeTable .postgres a.ddl else w).row = w.row := by
    split_ifs
    · exact makeTable_row
    · rfl
  have moves : (if a.chosen = .postgres then w.makeTable .postgres a.ddl else w).moves =
      w.moves := by
    split_ifs
    · exact makeTable_moves
    · rfl
  have history : (w.applied a).moves =
      if .applied = w.row.status then w.moves else w.moves ++ [(w.row.status, .applied)] := by
    simp only [World.applied, World.recorded, World.setRow, row, moves]
  have built : buildCreateTable unicode (w.applied a).row = buildCreateTable unicode w.row := by
    simp only [World.applied, World.recorded, World.setRow, row]
    rfl
  have status := tracked.status
  constructor
  · intro after
    constructor
    · intro rejected
      have once := after.moves
      rw [history, if_neg (by rw [rejected]; decide)] at once
      rcases consistent.moves with none | applied | decided
      · rw [none, rejected] at status
        cases status
      · rw [applied, rejected] at status
        cases status
      · rw [decided] at once
        simp at once
    · obtain ⟨ddl, kind, same, recorded, table⟩ := after.applied rfl
      obtain rfl := asStr_injective (Option.some.inj recorded)
      rw [applied_tables created, Option.some.injEq] at table
      rw [table, ← built]
      exact same
  · rintro ⟨undecided, describes⟩
    refine ⟨?_, fun rejected => (by cases rejected), fun _ => ?_⟩
    · rw [history]
      split_ifs with applied
      · exact consistent.moves
      · have pending : w.row.status = .pending := by
          cases here : w.row.status with
          | pending => rfl
          | applied => exact absurd here.symm applied
          | rejected => exact absurd here undecided
        rw [moves_of_pending tracked consistent pending, pending]
        exact Or.inr (Or.inl rfl)
    · exact ⟨_, a.chosen, by rw [built]; exact describes, rfl, applied_tables created⟩

/-- A rejection is consistent exactly where nothing was created for the proposal. -/
theorem consistent_rejected {unicode : Unicode} {w : World} (tracked : Tracked w)
    (consistent : Consistent unicode w) (pending : w.row.status = .pending) (reviewer : Str) :
    Consistent unicode
        (w.setRow { w.row with status := .rejected, reviewerSub := some reviewer }) ↔
      w.made = [] := by
  have history : (w.setRow { w.row with status := .rejected, reviewerSub := some reviewer }).moves =
      [(.pending, .rejected)] := by
    rw [World.setRow]
    dsimp only
    rw [moves_of_pending tracked consistent pending, pending, if_neg (by decide), List.nil_append]
  constructor
  · intro after
    exact (after.rejected rfl).2
  · intro none
    refine ⟨Or.inr (Or.inr history), fun _ => ⟨?_, none⟩, fun applied => by cases applied⟩
    exact Bool.eq_false_iff.mpr fun granted => tracked.granted granted pending

/-- A counter-proposal stays consistent. -/
theorem consistent_countered {unicode : Unicode} {w : World} (tracked : Tracked w)
    (consistent : Consistent unicode w) (pending : w.row.status = .pending) (schema : JsonMap)
    (key : List Str) :
    Consistent unicode (w.setRow { w.row with inferredSchema := schema, inferredKey := key }) where
  moves := by
    rw [World.setRow]
    dsimp only
    rw [if_pos rfl]
    exact Or.inl (moves_of_pending tracked consistent pending)
  rejected rejected := by
    rw [show w.row.status = .rejected from rejected] at pending
    cases pending
  applied applied := by
    rw [show w.row.status = .applied from applied] at pending
    cases pending

/-- The condition says of every step whether the decision stays consistent. -/
theorem consistent_step {w next : World} {action : Action} (tracked : Tracked w)
    (consistent : Consistent deployment.crates.unicode w)
    (stepped : step deployment w action = some next) :
    undisturbed deployment.crates.unicode w action = true ↔
      Consistent deployment.crates.unicode next := by
  cases effect_of_step stepped with
  | refuse | counterLate => exact iff_of_true rfl consistent
  | approve =>
    exact iff_of_true rfl ⟨consistent.moves, consistent.rejected, consistent.applied⟩
  | createHouse found chosen =>
    rw [undisturbed, found, consistent_setPhase, consistent_makeTable consistent]
    simp [chosen]
  | createLater found chosen =>
    rw [undisturbed, found, consistent_setPhase]
    exact iff_of_true (by simp [chosen]) consistent
  | record | fail => exact iff_of_true rfl (consistent_setPhase.mpr consistent)
  | @commit place a found last =>
    have created (chosen : a.chosen = .clickHouse) : (w.tables .clickHouse).isSome = true :=
      tracked.created a (List.mem_of_getElem? found) chosen (by rw [last]; decide)
        (by rw [last]; decide)
    rw [consistent_setPhase, consistent_applied tracked consistent created, undisturbed, found]
    dsimp only
    rw [Bool.and_eq_true, bne_iff_ne]
    refine and_congr_right fun _ => ?_
    split
    · rename_i ddl built
      rw [beq_iff_eq, built, Except.ok.injEq]
    · rename_i error built
      rw [built]
      exact iff_of_false Bool.false_ne_true (fun same => by cases same)
  | reject pending =>
    rw [consistent_rejected tracked consistent pending]
    simp [undisturbed, pending]
  | rejectLate decided => exact iff_of_true (by simp [undisturbed, decided]) consistent
  | counter pending =>
    exact iff_of_true rfl (consistent_countered tracked consistent pending _ _)

/-! ## Whole runs -/

/-- The decision on a proposal is consistent throughout a run exactly where no step of it
disturbs: no table is created on ClickHouse when the proposal is rejected, every approval commits
while the proposal is not rejected and its table is that of the present schema, and nothing is
rejected after a table was created for it. -/
theorem consistent_iff_undisturbed {row : Proposal} (pending : row.status = .pending)
    {tables : BackendKind → Option CreateTable} {backend : Option Str} {acl : List AclRow}
    {actions : List Action} {reached : World}
    (ran : run (step deployment) (start row tables backend acl) actions = some reached) :
    (∀ before, before <+: actions → ∀ w,
      run (step deployment) (start row tables backend acl) before = some w →
        Consistent deployment.crates.unicode w) ↔
      (run (guarded (undisturbed deployment.crates.unicode) (step deployment))
        (start row tables backend acl) actions).isSome = true := by
  have exact_ : ∀ w action next, Tracked w ∧ Consistent deployment.crates.unicode w →
      step deployment w action = some next →
        (undisturbed deployment.crates.unicode w action = true ↔
          Tracked next ∧ Consistent deployment.crates.unicode next) := by
    rintro w action next ⟨tracked, consistent⟩ stepped
    rw [consistent_step tracked consistent stepped]
    exact (and_iff_right (tracked.step stepped)).symm
  have tracked := tracked_start pending tables backend acl
  rw [← guarded_exact exact_ ⟨tracked, consistent_start pending tables backend acl⟩ ran]
  constructor
  · intro all before inside w ends
    have kept : Tracked w :=
      run_invariant (fun _ _ _ tracked stepped => tracked.step stepped) tracked ends
    exact ⟨kept, all before inside w ends⟩
  · intro all before inside w ends
    exact (all before inside w ends).2

/-! ## Approvals without interruption -/

/-- The database of a world: only the target and the proposal are in it. -/
def World.db (w : World) : Db where
  pgTables name :=
    if name = w.row.target then (w.tables .postgres).map (fun ddl => ddl.columns.map Prod.fst)
    else none
  chTables name :=
    if name = w.row.target then (w.tables .clickHouse).map (fun ddl => ddl.columns.map Prod.fst)
    else none
  tableBackend name := if name = w.row.target then w.backend else none
  acl := w.acl
  proposals := [w.row]

/-- The statements of one approval, one after the other. -/
def wholeApproval (reviewer : Str) (override : Option BackendKind) : List Action :=
  [.approve reviewer override, .create 0, .record 0, .record 0, .record 0, .commit 0]

/-- A world with one approval under way. -/
def World.alone (w : World) (a : Approval) (phase : Phase) : World :=
  { w with approvals := [{ a with phase }] }

/-- The transaction of a single approval runs through. -/
theorem run_alone (w : World) (a : Approval) :
    run (step deployment) (w.alone a .created) [.record 0, .record 0, .record 0, .commit 0] =
      some (((w.alone a .status).applied { a with phase := .status }).setPhase 0
        { a with phase := .status } .ended) := by
  have first : step deployment (w.alone a .created) (.record 0) = some (w.alone a .backend) := rfl
  have second : step deployment (w.alone a .backend) (.record 0) = some (w.alone a .acl) := rfl
  have third : step deployment (w.alone a .acl) (.record 0) = some (w.alone a .status) := rfl
  have last : step deployment (w.alone a .status) (.commit 0) =
      some (((w.alone a .status).applied { a with phase := .status }).setPhase 0
        { a with phase := .status } .ended) := rfl
  rw [run_cons, first, Option.bind_some, run_cons, second, Option.bind_some, run_cons, third,
    Option.bind_some, run_cons, last]
  rfl

/-- A creation and the approval that it is for. -/
theorem alone_makeTable {w : World} {a : Approval} {phase next : Phase} {kind : BackendKind}
    {ddl : CreateTable} : ((w.alone a phase).makeTable kind ddl).setPhase 0 { a with phase } next =
      (w.makeTable kind ddl).alone a next := by
  have same : ((w.alone a phase).tables kind).isSome = (w.tables kind).isSome := rfl
  rw [World.makeTable, World.makeTable, same]
  split_ifs
  · rfl
  · rfl

/-- The creation of a single approval is taken where its engine takes the statement. -/
theorem step_create_alone (w : World) (a : Approval) :
    step deployment (w.alone a .read) (.create 0) =
      if creatable a.chosen a.ddl (w.tables a.chosen).isSome then
        some (match a.chosen with
          | .clickHouse => (w.makeTable .clickHouse a.ddl).alone a .created
          | .postgres => w.alone a .created)
      else none := by
  obtain ⟨chosen, reviewer, role, ddl, phase⟩ := a
  cases chosen with
  | postgres =>
    have unlocked : (w.alone ⟨.postgres, reviewer, role, ddl, phase⟩ .read).nameLocked = false := rfl
    simp only [step, unlocked, Bool.and_false, Bool.false_eq_true, if_false]
    rfl
  | clickHouse =>
    rw [← alone_makeTable]
    rfl

/-- What a creation does to the tables of the target. -/
theorem createTable_target {target : TableName} {ddl : CreateTable} (tables : Option CreateTable)
    (same : target = (ddl.schema, ddl.table)) :
    createTable ddl (fun name => if name = target then
        tables.map (fun ddl => ddl.columns.map Prod.fst) else none) =
      fun name => if name = target then
        (some (tables.getD ddl)).map (fun ddl => ddl.columns.map Prod.fst) else none := by
  funext name
  rw [createTable, ← same, if_pos rfl]
  cases tables with
  | some old =>
    rw [Option.map_some, Option.isSome_some, if_pos rfl, Option.getD_some]
    rfl
  | none =>
    rw [Option.map_none, Option.isSome_none, if_neg Bool.false_ne_true, Option.getD_none]
    by_cases here : name = target
    · subst here
      rw [Function.update_self, if_pos rfl, Option.map_some]
    · rw [Function.update_of_ne here, if_neg here, if_neg here]

/-- The tables of an engine in a database. -/
def setTables (db : Db) (kind : BackendKind) (tables : TableName → Option (List Str)) : Db :=
  match kind with
  | .postgres => { db with pgTables := tables }
  | .clickHouse => { db with chTables := tables }

/-- The tables of an engine in the database of a world. -/
def World.tablesOf (w : World) (kind : BackendKind) : TableName → Option (List Str) := fun name =>
  if name = w.row.target then (w.tables kind).map (fun ddl => ddl.columns.map Prod.fst) else none

/-- In terms of the database it is the statement that creates a table. -/
theorem makeTable_db {w : World} {ddl : CreateTable} (kind : BackendKind)
    (target : w.row.target = (ddl.schema, ddl.table)) :
    (w.makeTable kind ddl).db = setTables w.db kind (createTable ddl (w.tablesOf kind)) := by
  have tables : createTable ddl (w.tablesOf kind) = fun name => if name = w.row.target then
      (some ((w.tables kind).getD ddl)).map (fun ddl => ddl.columns.map Prod.fst) else none :=
    createTable_target (w.tables kind) target
  rw [tables, World.makeTable]
  cases there : w.tables kind with
  | some old =>
    rw [Option.isSome_some, if_pos rfl, Option.getD_some, ← there]
    cases kind with
    | postgres => rfl
    | clickHouse => rfl
  | none =>
    rw [Option.isSome_none, if_neg Bool.false_ne_true, Option.getD_none]
    cases kind with
    | postgres => rfl
    | clickHouse => rfl

/-- The bookkeeping of an approval, in the database. -/
theorem recorded_db {w : World} {a : Approval}
    (target : w.row.target = (a.ddl.schema, a.ddl.table)) : (w.recorded a).db =
      recordBackendAclStatus a.ddl a.role a.chosen w.row.proposalId a.reviewer w.db := by
  have backend : (fun name => if name = w.row.target then some a.chosen.asStr else none) =
      Function.update w.db.tableBackend (a.ddl.schema, a.ddl.table) (some a.chosen.asStr) := by
    funext name
    rw [← target]
    by_cases here : name = w.row.target
    · subst here
      rw [if_pos rfl, Function.update_self]
    · rw [if_neg here, Function.update_of_ne here]
      exact (if_neg here).symm
  have proposals : [{ w.row with
      status := .applied
      appliedTable := some (a.ddl.schema ++ '.' :: a.ddl.table)
      reviewerSub := some a.reviewer }] =
      w.db.proposals.map (fun p => if p.proposalId = w.row.proposalId then
        { p with
          status := .applied
          appliedTable := some (a.ddl.schema ++ '.' :: a.ddl.table)
          reviewerSub := some a.reviewer } else p) := by
    rw [World.db, List.map_singleton, if_pos rfl]
  rw [recordBackendAclStatus, ← backend, ← proposals]
  rfl

/-- The statements that ask for a table find the one of the proposal. -/
theorem tablesOn_isSome {w : World} {ddl : CreateTable} (kind : BackendKind)
    (target : w.row.target = (ddl.schema, ddl.table)) :
    (w.db.tablesOn kind (ddl.schema, ddl.table)).isSome = (w.tables kind).isSome := by
  rw [← target]
  cases kind with
  | postgres => simp [Db.tablesOn, World.db]
  | clickHouse => simp [Db.tablesOn, World.db]

/-- On Postgres an approval alone leaves the table and the bookkeeping. -/
theorem recorded_alone_postgres {w : World} {a : Approval} (chosen : a.chosen = .postgres)
    (target : w.row.target = (a.ddl.schema, a.ddl.table)) :
    (((w.alone a .status).makeTable .postgres a.ddl).recorded a).db =
      recordBackendAclStatus a.ddl a.role .postgres w.row.proposalId a.reviewer
        { w.db with pgTables := createTable a.ddl w.db.pgTables } := by
  let w' := (w.alone a .status).makeTable .postgres a.ddl
  calc (w'.recorded a).db
      = recordBackendAclStatus a.ddl a.role a.chosen w'.row.proposalId a.reviewer w'.db :=
        recorded_db (makeTable_row.symm ▸ target)
    _ = recordBackendAclStatus a.ddl a.role .postgres w.row.proposalId a.reviewer
          { w.db with pgTables := createTable a.ddl w.db.pgTables } := by
        rw [chosen, makeTable_row, show w'.db = _ from makeTable_db .postgres target]
        rfl

/-- So it does on ClickHouse. -/
theorem recorded_alone_clickHouse {w : World} {a : Approval} (chosen : a.chosen = .clickHouse)
    (target : w.row.target = (a.ddl.schema, a.ddl.table)) :
    (((w.makeTable .clickHouse a.ddl).alone a .status).recorded a).db =
      recordBackendAclStatus a.ddl a.role .clickHouse w.row.proposalId a.reviewer
        { w.db with chTables := createTable a.ddl w.db.chTables } := by
  let w' := (w.makeTable .clickHouse a.ddl).alone a .status
  have made : w'.db = (w.makeTable .clickHouse a.ddl).db := rfl
  have row : w'.row = (w.makeTable .clickHouse a.ddl).row := rfl
  calc (w'.recorded a).db
      = recordBackendAclStatus a.ddl a.role a.chosen w'.row.proposalId a.reviewer w'.db :=
        recorded_db (makeTable_row.symm ▸ target)
    _ = recordBackendAclStatus a.ddl a.role .clickHouse w.row.proposalId a.reviewer
          { w.db with chTables := createTable a.ddl w.db.chTables } := by
        rw [chosen, row, made, makeTable_row, makeTable_db .clickHouse target]
        rfl

/-- Where nothing interrupts them they do what `approve` does. -/
theorem wholeApproval_approves {w next : World} {reviewer : Str} {override : Option BackendKind}
    (idle : w.approvals = []) (schema : Normal deployment.crates.unicode w.row.declaredSchema)
    (table : Normal deployment.crates.unicode w.row.declaredTable)
    (ran : run (step deployment) w (wholeApproval reviewer override) = some next) {s : State}
    (same : s.db = w.db) :
    next.db = (approve deployment w.row.proposalId reviewer override none s).2.db := by
  rw [wholeApproval, run_cons, step] at ran
  by_cases pending : w.row.status = .pending
  case neg =>
    rw [if_neg pending, Option.bind_some, run_cons, step, idle] at ran
    cases ran
  have found : s.db.proposals.find? (isPending w.row.proposalId) = some w.row := by
    rw [same, World.db, List.find?_cons_of_pos]
    rw [isPending, beq_self_eq_true, pending]
    rfl
  rw [if_pos pending] at ran
  rw [approve, found]
  dsimp only at ran ⊢
  split_ifs at ran ⊢ with unconfigured
  · rw [Option.bind_some, run_cons, step, idle] at ran
    cases ran
  · cases built : buildCreateTable deployment.crates.unicode w.row with
    | error error =>
      rw [built, Option.bind_some, run_cons, step, idle] at ran
      cases ran
    | ok ddl =>
      obtain ⟨sameSchema, sameTable⟩ := WriteAuthority.buildCreateTable_ok built
      rw [schema, Option.some.injEq] at sameSchema
      rw [table, Option.some.injEq] at sameTable
      have target : w.row.target = (ddl.schema, ddl.table) := by
        rw [Proposal.target, sameSchema, sameTable]
      have opened : { w with approvals := w.approvals ++ [⟨override.getD
          (BackendKind.ofStrOrPg w.row.suggestedBackend), reviewer, w.row.proposerRole, ddl,
            .read⟩] } = w.alone ⟨override.getD (BackendKind.ofStrOrPg w.row.suggestedBackend),
              reviewer, w.row.proposerRole, ddl, .read⟩ .read := by
        rw [idle]
        rfl
      rw [built, Option.bind_some, opened, run_cons, step_create_alone] at ran
      dsimp only at ran ⊢
      rw [same, tablesOn_isSome _ target]
      split_ifs at ran with taken
      case neg => cases ran
      rw [taken, Bool.not_true, if_neg Bool.false_ne_true]
      cases chosen : override.getD (BackendKind.ofStrOrPg w.row.suggestedBackend) with
      | postgres =>
        rw [chosen, Option.bind_some, run_alone, Option.some.injEq] at ran
        subst ran
        rw [applied, same]
        let a : Approval := ⟨.postgres, reviewer, w.row.proposerRole, ddl, .read⟩
        exact recorded_alone_postgres (a := a) rfl target
      | clickHouse =>
        rw [chosen, Option.bind_some, run_alone, Option.some.injEq] at ran
        subst ran
        rw [applied, same]
        let a : Approval := ⟨.clickHouse, reviewer, w.row.proposerRole, ddl, .read⟩
        exact recorded_alone_clickHouse (a := a) rfl target

/-! ## Two runs -/

/-- A pending proposal for a table of quotes. -/
def quoteProposal : Proposal where
  proposalId := "p1".str
  declaredSchema := "md".str
  declaredTable := "quote".str
  proposerSub := "bob".str
  proposerRole := "producer".str
  inferredSchema := [("price".str, .string "bigint".str), ("symbol_id".str, .string "text".str)]
  inferredKey := ["symbol_id".str]
  suggestedBackend := "postgres".str
  status := .pending
  appliedTable := none
  reviewerSub := none
  existed := false

/-- Its deployment, on Postgres alone. -/
def onPostgres : Deployment := ⟨Crates.plain, false⟩

/-- One approval, and a rejection that comes too late. -/
def approvedRun : List Action := [.approve "ann".str none, .create 0, .record 0, .record 0,
  .record 0, .commit 0, .reject "eve".str]

/-- The rejection comes after the approval has read the row. -/
def overtakenRun : List Action := [.approve "ann".str none, .reject "eve".str, .create 0,
  .record 0, .record 0, .record 0, .commit 0]

/-- A proposal that one administrator approves is consistent throughout. -/
theorem approvedRun_consistent : ∃ reached,
    run (step onPostgres) (start quoteProposal (fun _ => none) none []) approvedRun =
      some reached ∧
    ∀ before, before <+: approvedRun → ∀ w,
      run (step onPostgres) (start quoteProposal (fun _ => none) none []) before = some w →
        Consistent onPostgres.crates.unicode w := by
  have calm : (run (guarded (undisturbed onPostgres.crates.unicode) (step onPostgres))
      (start quoteProposal (fun _ => none) none []) approvedRun).isSome = true := by
    decide +kernel
  have ends : (run (step onPostgres) (start quoteProposal (fun _ => none) none [])
      approvedRun).isSome = true := by decide +kernel
  obtain ⟨reached, ran⟩ := Option.isSome_iff_exists.mp ends
  exact ⟨reached, ran, (consistent_iff_undisturbed rfl ran).mpr calm⟩

/-- A rejected proposal is applied after all: its table is there, and the proposer may write. -/
theorem rejection_undone : ∃ reached,
    run (step onPostgres) (start quoteProposal (fun _ => none) none []) overtakenRun =
      some reached ∧
    reached.moves = [(.pending, .rejected), (.rejected, .applied)] ∧ reached.granted = true ∧
    (reached.tables .postgres).isSome = true ∧ ¬Consistent onPostgres.crates.unicode reached := by
  have ends : (run (step onPostgres) (start quoteProposal (fun _ => none) none [])
      overtakenRun).map (fun w => (w.moves, w.granted, (w.tables .postgres).isSome)) =
        some ([(.pending, .rejected), (.rejected, .applied)], true, true) := by decide +kernel
  obtain ⟨reached, ran, observed⟩ := Option.map_eq_some_iff.mp ends
  simp only [Prod.mk.injEq] at observed
  obtain ⟨moves, granted, created⟩ := observed
  refine ⟨reached, ran, moves, granted, created, fun consistent => ?_⟩
  have once := consistent.moves
  rw [moves] at once
  simp at once

end LumidPlatform.Ingest.Decisions
