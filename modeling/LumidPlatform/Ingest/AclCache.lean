import LumidPlatform.Ingest.Gate
import LumidPlatform.Lib.Transitions

/-!
# The cached access list under concurrent requests

The access list is cached for thirty seconds. A change of it is committed first and the
cache is invalidated afterwards; a check that finds nothing usable in the cache reads the
table and stores what it has read. Between these points other requests go on, so a list may
be read before a change, and be stored after the cache was invalidated for it.
-/

namespace LumidPlatform.Ingest.AclCache

open Transitions

/-- `CACHE_TTL`. -/
def cacheTtl : Duration := .ofSecs 30

/-- What is asked of the access list. -/
inductive Question where
  | canWrite (role : Str) (name : TableName)
  | canPropose (role : Str)
  deriving DecidableEq

/-- The candidates of `check_can_write`, and the rows of a role for `can_propose`. -/
def Question.verdict (rows : List AclRow) : Question → Bool
  | canWrite role name =>
    rowAllows rows role name.1 name.2 || rowAllows rows role name.1 "*".str ||
      rowAllows rows role "*".str "*".str
  | canPropose role => rows.any (fun row => row.role == role && row.canWrite)

/-- A statement that changes the access list: the upsert of `grant_acl` and of an approval,
and the deletion of `revoke_acl`. -/
inductive Change where
  | upsert (row : AclRow)
  | delete (role : Str) (name : TableName)

def Change.apply : Change → List AclRow → List AclRow
  | upsert row, rows => upsertAcl row rows
  | delete role name, rows => rows.filter (fun row =>
      !(row.role == role && row.targetSchema == name.1 && row.targetTable == name.2))

/-- A list that was read, with the number of changes that the table had seen by then. -/
structure Reading where
  rows : List AclRow
  version : Nat

/-- A check. Its floor counts the changes up to the last for which the cache had been
invalidated when the check began; nothing is decided by it. -/
structure Check where
  question : Question
  floor : Nat

/-- Where a check that reads the table stands. -/
inductive Phase where
  | waiting
  | loaded (reading : Reading)

/-- A check that is over, with the list it went by. -/
structure Decision where
  check : Check
  reading : Reading

def Decision.verdict (decision : Decision) : Bool :=
  decision.check.question.verdict decision.reading.rows

/-- The table, the cache, and the requests that are under way. -/
structure World where
  table : Reading
  cached : Reading
  /-- `loaded_at`. -/
  loadedAt : Option Duration
  now : Duration
  /-- Changes that are committed and for which the cache is still to be invalidated. -/
  changes : List Nat
  /-- The last change for which it has been. -/
  floor : Nat
  running : Nat → Option (Check × Phase)
  decided : List Decision

/-- The process has just started. -/
def start (rows : List AclRow) : World where
  table := ⟨rows, 0⟩
  cached := ⟨[], 0⟩
  loadedAt := none
  now := ⟨0⟩
  changes := []
  floor := 0
  running _ := none
  decided := []

inductive Label where
  /-- Time passes. -/
  | tick (elapsed : Duration)
  /-- The statement of a change commits. -/
  | commit (change : Change)
  /-- `invalidate`, for a change that has committed. -/
  | invalidate (version : Nat)
  /-- `invalidate` of `refresh_acl`. -/
  | refresh
  /-- A check begins, up to where it first waits. -/
  | begin (id : Nat) (question : Question)
  /-- The table is read for it. -/
  | load (id : Nat)
  /-- It goes on with what was read. -/
  | store (id : Nat)
  /-- It fails or is given up. -/
  | abandon (id : Nat)

namespace World

variable (w : World)

/-- The cache may be served. -/
def usable : Bool :=
  match w.loadedAt with
  | some at_ => decide (w.now.nanos - at_.nanos < cacheTtl.nanos) && !w.cached.rows.isEmpty
  | none => false

def put (id : Nat) (entry : Option (Check × Phase)) : World :=
  { w with running := Function.update w.running id entry }

/-- A check is over. -/
def decide (check : Check) (reading : Reading) : World :=
  { w with decided := w.decided ++ [⟨check, reading⟩] }

/-- `cache_snapshot`, up to where it waits. -/
def begin (id : Nat) (question : Question) : World :=
  if w.usable then w.decide ⟨question, w.floor⟩ w.cached
  else w.put id (some (⟨question, w.floor⟩, .waiting))

/-- The rest of `cache_snapshot`, with the check it is for. -/
def store (id : Nat) (check : Check) (reading : Reading) : World :=
  { (w.put id none).decide check reading with cached := reading, loadedAt := some w.now }

end World

/-- One step of a request, or of the clock. -/
def step (w : World) : Label → Option World
  | .tick elapsed => some { w with now := ⟨w.now.nanos + elapsed.nanos⟩ }
  | .commit change =>
    some { w with
      table := ⟨change.apply w.table.rows, w.table.version + 1⟩
      changes := (w.table.version + 1) :: w.changes }
  | .invalidate version =>
    if version ∈ w.changes then
      some { w with
        loadedAt := none
        changes := w.changes.erase version
        floor := max w.floor version }
    else none
  | .refresh => some { w with loadedAt := none }
  | .begin id question =>
    match w.running id with
    | none => some (w.begin id question)
    | some _ => none
  | .load id =>
    match w.running id with
    | some (check, .waiting) => some (w.put id (some (check, .loaded w.table)))
    | _ => none
  | .store id =>
    match w.running id with
    | some (check, .loaded reading) => some (w.store id check reading)
    | _ => none
  | .abandon id =>
    match w.running id with
    | some _ => some (w.put id none)
    | none => none

/-! ## What is to hold -/

/-- Every check went by a list that includes the changes invalidated before it began, and the
cache holds no older list that it could serve. -/
structure Honoured (w : World) : Prop where
  decided : ∀ decision ∈ w.decided, decision.check.floor ≤ decision.reading.version
  cached : w.loadedAt.isSome = true → w.cached.rows ≠ [] → w.floor ≤ w.cached.version

/-- A check that stores what it has read does so before the cache is invalidated for a later
change, or has read an empty list. -/
def inTime (w : World) : Label → Bool
  | .store id =>
    match w.running id with
    | some (_, .loaded reading) => reading.rows.isEmpty || w.floor ≤ reading.version
    | _ => true
  | _ => true

/-- The changes that are counted somewhere have been committed. -/
structure Counted (w : World) : Prop where
  floor : w.floor ≤ w.table.version
  changes : ∀ version ∈ w.changes, version ≤ w.table.version
  waiting : ∀ id check phase, w.running id = some (check, phase) → check.floor ≤ w.table.version
  loaded : ∀ id check reading, w.running id = some (check, .loaded reading) →
    check.floor ≤ reading.version

theorem counted_start (rows : List AclRow) : Counted (start rows) where
  floor := Nat.le_refl 0
  changes version member := by cases member
  waiting id check phase running := by cases running
  loaded id check reading running := by cases running

/-- What is running after one entry was replaced. -/
theorem put_cases {w : World} {id : Nat} {entry : Option (Check × Phase)} {other : Nat}
    {found : Check × Phase} (running : (w.put id entry).running other = some found) :
    (other = id ∧ entry = some found) ∨ w.running other = some found := by
  by_cases same : other = id
  · subst same
    left
    simpa [World.put] using running
  · right
    simpa [World.put, same] using running

/-- An entry is replaced by one that is counted itself. -/
theorem Counted.put {w : World} (counted : Counted w) (id : Nat)
    {entry : Option (Check × Phase)}
    (waiting : ∀ check phase, entry = some (check, phase) → check.floor ≤ w.table.version)
    (loaded : ∀ check reading, entry = some (check, .loaded reading) →
      check.floor ≤ reading.version) : Counted (w.put id entry) where
  floor := counted.floor
  changes := counted.changes
  waiting other check phase running := by
    rcases put_cases running with ⟨-, replaced⟩ | old
    · exact waiting check phase replaced
    · exact counted.waiting other check phase old
  loaded other check reading running := by
    rcases put_cases running with ⟨-, replaced⟩ | old
    · exact loaded check reading replaced
    · exact counted.loaded other check reading old

theorem Counted.put_none {w : World} (counted : Counted w) (id : Nat) :
    Counted (w.put id none) := by
  apply counted.put
  · intro check phase none_eq
    cases none_eq
  · intro check reading none_eq
    cases none_eq

/-- Counting goes on, whatever the step is. -/
theorem Counted.step {w next : World} {label : Label} (counted : Counted w)
    (stepped : step w label = some next) : Counted next := by
  cases label with
  | tick elapsed =>
    obtain rfl := Option.some.inj stepped
    exact { counted with }
  | commit change =>
    obtain rfl := Option.some.inj stepped
    constructor
    · exact Nat.le_succ_of_le counted.floor
    · intro version member
      rcases List.mem_cons.mp member with rfl | old
      · exact Nat.le_refl _
      · exact Nat.le_succ_of_le (counted.changes version old)
    · intro id check phase running
      exact Nat.le_succ_of_le (counted.waiting id check phase running)
    · exact counted.loaded
  | invalidate version =>
    simp only [AclCache.step] at stepped
    split_ifs at stepped with pending
    obtain rfl := Option.some.inj stepped
    constructor
    · exact Nat.max_le.mpr ⟨counted.floor, counted.changes version pending⟩
    · intro other member
      exact counted.changes other (List.mem_of_mem_erase member)
    · exact counted.waiting
    · exact counted.loaded
  | refresh =>
    obtain rfl := Option.some.inj stepped
    exact { counted with }
  | begin id question =>
    simp only [AclCache.step] at stepped
    split at stepped
    · obtain rfl := Option.some.inj stepped
      rw [World.begin]
      split_ifs
      · exact { counted with }
      · apply counted.put
        · intro check phase same
          obtain ⟨rfl, -⟩ := Prod.mk.inj (Option.some.inj same)
          exact counted.floor
        · intro check reading same
          cases same
    · cases stepped
  | load id =>
    simp only [AclCache.step] at stepped
    split at stepped
    · rename_i check running
      obtain rfl := Option.some.inj stepped
      have below := counted.waiting id check .waiting running
      apply counted.put
      · intro other phase same
        obtain ⟨rfl, -⟩ := Prod.mk.inj (Option.some.inj same)
        exact below
      · intro other reading same
        obtain ⟨rfl, loaded⟩ := Prod.mk.inj (Option.some.inj same)
        obtain rfl := Phase.loaded.inj loaded
        exact below
    · cases stepped
  | store id =>
    simp only [AclCache.step] at stepped
    split at stepped
    · obtain rfl := Option.some.inj stepped
      exact { counted.put_none id with }
    · cases stepped
  | abandon id =>
    simp only [AclCache.step] at stepped
    split at stepped
    · obtain rfl := Option.some.inj stepped
      exact counted.put_none id
    · cases stepped

/-! ## Single steps -/

/-- A check that is decided now goes by a list that is new enough. -/
theorem Honoured.decide {w : World} (honoured : Honoured w) {check : Check} {reading : Reading}
    (recent : check.floor ≤ reading.version) : Honoured (w.decide check reading) where
  decided decision member := by
    rcases List.mem_append.mp member with old | new
    · exact honoured.decided decision old
    · obtain rfl := List.mem_singleton.mp new
      exact recent
  cached := honoured.cached

/-- What a usable cache holds may be served. -/
theorem usable_filled {w : World} (usable : w.usable = true) :
    w.loadedAt.isSome = true ∧ w.cached.rows ≠ [] := by
  rw [World.usable] at usable
  split at usable
  · rename_i at_ loaded
    simp only [Bool.and_eq_true, Bool.not_eq_true', List.isEmpty_eq_false_iff] at usable
    exact ⟨by rw [loaded]; rfl, usable.2⟩
  · cases usable

/-- A store is the only step that may serve an older list afterwards, and it does so exactly
where it comes too late. -/
theorem honoured_step {w next : World} {label : Label} (counted : Counted w)
    (honoured : Honoured w) (stepped : step w label = some next) :
    inTime w label = true ↔ Honoured next := by
  cases label with
  | tick elapsed =>
    obtain rfl := Option.some.inj stepped
    exact iff_of_true rfl { honoured with }
  | commit change =>
    obtain rfl := Option.some.inj stepped
    exact iff_of_true rfl { honoured with }
  | invalidate version =>
    simp only [step] at stepped
    split_ifs at stepped
    obtain rfl := Option.some.inj stepped
    exact iff_of_true rfl ⟨honoured.decided, fun filled => by cases filled⟩
  | refresh =>
    obtain rfl := Option.some.inj stepped
    exact iff_of_true rfl ⟨honoured.decided, fun filled => by cases filled⟩
  | begin id question =>
    simp only [step] at stepped
    split at stepped
    · obtain rfl := Option.some.inj stepped
      refine iff_of_true rfl ?_
      rw [World.begin]
      split_ifs with usable
      · obtain ⟨loaded, filled⟩ := usable_filled usable
        exact honoured.decide (honoured.cached loaded filled)
      · exact { honoured with }
    · cases stepped
  | load id =>
    simp only [step] at stepped
    split at stepped
    · obtain rfl := Option.some.inj stepped
      exact iff_of_true rfl { honoured with }
    · cases stepped
  | store id =>
    simp only [step] at stepped
    split at stepped
    · rename_i check reading running
      obtain rfl := Option.some.inj stepped
      have recent := counted.loaded id check reading running
      simp only [inTime, running, Bool.or_eq_true, List.isEmpty_iff, decide_eq_true_eq]
      constructor
      · intro timely
        constructor
        · exact (honoured.decide recent).decided
        · intro _ filled
          exact timely.resolve_left filled
      · intro after
        by_cases empty : reading.rows = []
        · exact Or.inl empty
        · exact Or.inr (after.cached rfl empty)
    · cases stepped
  | abandon id =>
    simp only [step] at stepped
    split at stepped
    · obtain rfl := Option.some.inj stepped
      exact iff_of_true rfl { honoured with }
    · cases stepped

/-! ## Whole runs -/

theorem counted_run {rows : List AclRow} {labels : List Label} {reached : World}
    (ran : run step (start rows) labels = some reached) : Counted reached :=
  run_invariant (fun _ _ _ counted stepped => counted.step stepped) (counted_start rows) ran

theorem honoured_start (rows : List AclRow) : Honoured (start rows) where
  decided decision member := by cases member
  cached loaded := by cases loaded

/-- Grants and revocations are honoured throughout a run exactly if every check that stores
what it has read does so before the cache is invalidated for a later change, or has read an
empty list. -/
theorem honoured_iff_inTime {rows : List AclRow} {labels : List Label} {reached : World}
    (ran : run step (start rows) labels = some reached) :
    (∀ before, before <+: labels → ∀ w, run step (start rows) before = some w → Honoured w) ↔
      (run (guarded inTime step) (start rows) labels).isSome = true := by
  have exact_ : ∀ w label next, Counted w ∧ Honoured w → step w label = some next →
      (inTime w label = true ↔ Counted next ∧ Honoured next) := by
    rintro w label next ⟨counted, honoured⟩ stepped
    rw [honoured_step counted honoured stepped]
    exact (and_iff_right (counted.step stepped)).symm
  rw [← guarded_exact exact_ ⟨counted_start rows, honoured_start rows⟩ ran]
  constructor
  · intro all before inside w ends
    exact ⟨counted_run ends, all before inside w ends⟩
  · intro all before inside w ends
    exact (all before inside w ends).2

/-! ## A revoked grant that is honoured -/

def traderRow : AclRow := ⟨"trader".str, "md".str, "trade".str, true⟩

def tradeTable : TableName := ("md".str, "trade".str)

/-- A check reads the list, the grant is revoked, and the check stores what it has read. -/
def lateStore : List Label := [
  .begin 0 (.canWrite "trader".str tradeTable), .load 0,
  .commit (.delete "trader".str tradeTable), .invalidate 1, .store 0,
  .begin 1 (.canWrite "trader".str tradeTable)]

/-- The same, where the check stores it before the cache is invalidated. -/
def promptStore : List Label := [
  .begin 0 (.canWrite "trader".str tradeTable), .load 0,
  .commit (.delete "trader".str tradeTable), .store 0, .invalidate 1]

theorem promptStore_honoured : ∃ reached, run step (start [traderRow]) promptStore = some reached ∧
    ∀ before, before <+: promptStore → ∀ w,
      run step (start [traderRow]) before = some w → Honoured w := by
  have timely : (run (guarded inTime step) (start [traderRow]) promptStore).isSome = true := by
    decide +kernel
  have ends : (run step (start [traderRow]) promptStore).isSome = true := by decide +kernel
  obtain ⟨reached, ran⟩ := Option.isSome_iff_exists.mp ends
  exact ⟨reached, ran, (honoured_iff_inTime ran).mpr timely⟩

/-- The second check begins after the cache was invalidated for the revocation, is served the
list from before it, and lets the trader write. -/
theorem revocation_lost : ∃ reached decision,
    run step (start [traderRow]) lateStore = some reached ∧ decision ∈ reached.decided ∧
      reached.table.rows = [] ∧ decision.verdict = true ∧
      decision.reading.version < decision.check.floor := by
  have ends : (run step (start [traderRow]) lateStore).isSome = true := by decide +kernel
  obtain ⟨reached, ran⟩ := Option.isSome_iff_exists.mp ends
  have late : (run step (start [traderRow]) lateStore).all (fun w =>
      w.table.rows.isEmpty && w.decided.any (fun decision => decision.verdict &&
        Nat.blt decision.reading.version decision.check.floor)) = true := by
    decide +kernel
  rw [ran, Option.all_some, Bool.and_eq_true, List.isEmpty_iff, List.any_eq_true] at late
  obtain ⟨revoked, decision, member, facts⟩ := late
  rw [Bool.and_eq_true] at facts
  exact ⟨reached, decision, ran, member, revoked, facts.1, Nat.blt_eq.mp facts.2⟩

end LumidPlatform.Ingest.AclCache
