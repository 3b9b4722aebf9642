import LumidPlatform.Auth.Concurrency
import LumidPlatform.Lib.OptimisticSlots

/-!
# Taking slots step by step

Tasks take their slots at the same time. Between the addition to a counter and what becomes of it
other tasks go on, and each reads what the others have added. A task that is refused at its
address gives the slot of its key back, which was a live one until then.
-/

namespace LumidPlatform.Auth.Slots

open OptimisticSlots Transitions

/-! ## Steps -/

/-- Where a task is in `acquire`. -/
inductive Phase where
  | keyAdd
  /-- The counter of the key was found so before the addition. -/
  | keyTest (prev : Nat)
  | keyUndo
  /-- The guard of the key is live from here on. -/
  | ipAdd
  | ipTest (prev : Nat)
  | ipUndo
  /-- The guard of the key is dropped. -/
  | keyDrop
  deriving DecidableEq

/-- A request that is acquiring its slots, with the step that it is at. -/
structure Task where
  key : Str
  ip : Str
  phase : Phase := .keyAdd
  deriving DecidableEq

/-- The counters, the tasks in `acquire`, and the buckets of the guards that responses hold. -/
structure State where
  counters : Counters := ∅
  tasks : List Task := []
  guards : List Str := []

/-- What can happen next. Tasks interleave at every atomic step. -/
inductive Label where
  /-- A task begins to acquire. -/
  | start (key ip : Str)
  /-- A task takes its next step. -/
  | advance (i : Nat)
  /-- A guard of a response is dropped. -/
  | release (i : Nat)

/-- `fetch_add` on the counter of a key, which may wrap. -/
def add (counters : Counters) (bucket : Str) : Counters :=
  counters.insert bucket (fetchAdd u32Modulus (inFlight counters bucket))

/-- `fetch_sub` on it, which may too. -/
def sub (counters : Counters) (bucket : Str) : Counters :=
  counters.insert bucket (fetchSub u32Modulus (inFlight counters bucket))

/-- What a step leaves: the counters, the task unless it is through, and the guards it hands to
its response. -/
structure Moved where
  counters : Counters
  task : Option Task
  guards : List Str := []

/-- One step of `acquire`: of `try_acquire` for the key, of the one for the address, or of the
drop of the key's guard. -/
def advance (limits : Limits) (counters : Counters) (task : Task) : Moved :=
  match task.phase with
  | .keyAdd =>
    ⟨add counters task.key, some { task with phase := .keyTest (inFlight counters task.key) }, []⟩
  | .keyTest prev =>
    ⟨counters, some { task with phase := if limits.perKey ≤ prev then .keyUndo else .ipAdd }, []⟩
  | .keyUndo => ⟨sub counters task.key, none, []⟩
  | .ipAdd =>
    ⟨add counters task.ip, some { task with phase := .ipTest (inFlight counters task.ip) }, []⟩
  | .ipTest prev =>
    if limits.perIp ≤ prev then ⟨counters, some { task with phase := .ipUndo }, []⟩
    else ⟨counters, none, [task.key, task.ip]⟩
  | .ipUndo => ⟨sub counters task.ip, some { task with phase := .keyDrop }, []⟩
  | .keyDrop => ⟨sub counters task.key, none, []⟩

/-- A task takes its step. -/
def State.advance (limits : Limits) (state : State) (i : Nat) (task : Task) : State :=
  let moved := Slots.advance limits state.counters task
  { counters := moved.counters
    tasks := moved.task.toList ++ state.tasks.eraseIdx i
    guards := moved.guards ++ state.guards }

/-- A task begins, or does its next atomic step, or a response is over and gives its slot back. -/
def step (limits : Limits) (state : State) : Label → Option State
  | .start key ip => some { state with tasks := { key, ip } :: state.tasks }
  | .advance i => (state.tasks[i]?).map (state.advance limits i)
  | .release i =>
    (state.guards[i]?).map fun bucket =>
      { state with
        counters := sub state.counters bucket
        guards := state.guards.eraseIdx i }

/-- The bucket that a step adds to. -/
def Task.adds (task : Task) : Option Str :=
  match task.phase with
  | .keyAdd => some task.key
  | .ipAdd => some task.ip
  | _ => none

/-- The bucket that a step subtracts from. -/
def Task.subtracts (task : Task) : Option Str :=
  match task.phase with
  | .keyUndo => some task.key
  | .ipUndo => some task.ip
  | .keyDrop => some task.key
  | _ => none

/-- The condition on a step: no addition finds the largest number. -/
def fits (state : State) : Label → Bool
  | .advance i =>
    ((state.tasks[i]?).bind Task.adds).all fun bucket =>
      inFlight state.counters bucket + 1 < u32Modulus
  | _ => true

/-! ## What is to hold -/

/-- The guards of a bucket that a task holds. -/
def Task.holds (bucket : Str) (task : Task) : Nat :=
  match task.phase with
  | .ipAdd | .ipTest _ | .ipUndo | .keyDrop => if task.key = bucket then 1 else 0
  | _ => 0

/-- The live guards of a bucket. -/
def live (state : State) (bucket : Str) : Nat :=
  state.guards.count bucket + (state.tasks.map (Task.holds bucket)).sum

/-- The limits that a bucket is asked for with. -/
def limitsOf (limits : Limits) (labels : List Label) (bucket : Str) : List Nat :=
  labels.flatMap fun label =>
    match label with
    | .start key ip =>
      (if key = bucket then [limits.perKey] else []) ++ if ip = bucket then [limits.perIp] else []
    | _ => []

/-- The limit of a bucket; of one that is both a key and an address, the greater one. -/
def limitOf (limits : Limits) (labels : List Label) (bucket : Str) : Nat :=
  (limitsOf limits labels bucket).foldr max 0

/-- What holds of the slots in a state. -/
structure Bounded (limits : Limits) (labels : List Label) (state : State) : Prop where
  /-- No bucket has more live guards than its limit. -/
  within : ∀ bucket, live state bucket ≤ limitOf limits labels bucket
  /-- No subtraction finds nothing to subtract from. -/
  undoes : ∀ task ∈ state.tasks, ∀ bucket, task.subtracts = some bucket →
    0 < inFlight state.counters bucket
  releases : ∀ bucket ∈ state.guards, 0 < inFlight state.counters bucket
  /-- A bucket that no task asks for and of which no guard is live counts nothing. -/
  idle : ∀ bucket, (∀ task ∈ state.tasks, task.key ≠ bucket ∧ task.ip ≠ bucket) →
    bucket ∉ state.guards → inFlight state.counters bucket = 0

/-! ## One bucket -/

/-- The additions to a bucket that found it below their limit and are still to be tested. -/
def Task.wins (limits : Limits) (bucket : Str) (task : Task) : Nat :=
  match task.phase with
  | .keyTest prev => if task.key = bucket ∧ prev < limits.perKey then 1 else 0
  | .ipTest prev => if task.ip = bucket ∧ prev < limits.perIp then 1 else 0
  | _ => 0

/-- Those that found it at their limit and are still to be undone. -/
def Task.loses (limits : Limits) (bucket : Str) (task : Task) : Nat :=
  match task.phase with
  | .keyTest prev => if task.key = bucket ∧ limits.perKey ≤ prev then 1 else 0
  | .keyUndo => if task.key = bucket then 1 else 0
  | .ipTest prev => if task.ip = bucket ∧ limits.perIp ≤ prev then 1 else 0
  | .ipUndo => if task.ip = bucket then 1 else 0
  | _ => 0

/-- A sum over tasks. -/
def total (f : Task → Nat) (tasks : List Task) : Nat := (tasks.map f).sum

/-- A bucket as a counter of its own. -/
def slotsAt (limits : Limits) (state : State) (bucket : Str) : OptimisticSlots.Slots where
  counter := inFlight state.counters bucket
  winners := total (Task.wins limits bucket) state.tasks
  losers := total (Task.loses limits bucket) state.tasks
  live := live state bucket

variable {limits : Limits} {state next : State} {label : Label} {labels : List Label}

/-- Adding changes one counter. -/
theorem inFlight_add (counters : Counters) (bucket other : Str) :
    inFlight (add counters bucket) other =
      if bucket = other then fetchAdd u32Modulus (inFlight counters other)
      else inFlight counters other := by
  rw [add, inFlight]
  split_ifs with same
  · subst same
    rw [AList.lookup_insert, Option.getD_some]
  · rw [AList.lookup_insert_ne (Ne.symm same), inFlight]

/-- So does subtracting. -/
theorem inFlight_sub (counters : Counters) (bucket other : Str) :
    inFlight (sub counters bucket) other =
      if bucket = other then fetchSub u32Modulus (inFlight counters other)
      else inFlight counters other := by
  rw [sub, inFlight]
  split_ifs with same
  · subst same
    rw [AList.lookup_insert, Option.getD_some]
  · rw [AList.lookup_insert_ne (Ne.symm same), inFlight]

/-- A total over tasks, the first one apart. -/
theorem total_cons (f : Task → Nat) (task : Task) (tasks : List Task) :
    total f (task :: tasks) = f task + total f tasks := rfl

/-- The same for a task at any place. -/
theorem total_split (f : Task → Nat) {tasks : List Task} {i : Nat} {task : Task}
    (found : tasks[i]? = some task) : total f tasks = f task + total f (tasks.eraseIdx i) := by
  obtain ⟨inside, rfl⟩ := List.getElem?_eq_some_iff.mp found
  rw [← total_cons]
  exact ((List.getElem_cons_eraseIdx_perm inside).symm.map _).sum_nat

/-- The same for the guards of one key. -/
theorem count_split {guards : List Str} {i : Nat} {guard : Str} (found : guards[i]? = some guard)
    (bucket : Str) :
    guards.count bucket = (guards.eraseIdx i).count bucket + if guard = bucket then 1 else 0 := by
  obtain ⟨inside, rfl⟩ := List.getElem?_eq_some_iff.mp found
  rw [← (List.getElem_cons_eraseIdx_perm inside).count_eq bucket, List.count_cons]
  simp only [beq_iff_eq]

/-- An addition that finds a bucket below its limit is a win there, any other one is lost. -/
theorem add_step (counters : Counters) {added bucket : Str} {bound limit w l v : Nat}
    (within : added = bucket → limit ≤ bound) (fit : inFlight counters added + 1 < u32Modulus) :
    OptimisticSlots.Step u32Modulus bound ⟨inFlight counters bucket, w, l, v⟩
      ⟨inFlight (add counters added) bucket,
        w + (if added = bucket ∧ inFlight counters added < limit then 1 else 0),
        l + (if added = bucket ∧ limit ≤ inFlight counters added then 1 else 0), v⟩ := by
  by_cases same : added = bucket
  · subst same
    by_cases below : inFlight counters added < limit
    · have at_ : ¬limit ≤ inFlight counters added := Nat.not_le.mpr below
      simpa [inFlight_add, below, at_] using Step.win (within rfl) below fit
    · have at_ : limit ≤ inFlight counters added := Nat.not_lt.mp below
      simpa [inFlight_add, below, at_] using Step.lose fit
  · simpa [inFlight_add, same] using Step.stay _

/-- A subtraction by which an addition that was lost is undone. -/
theorem undo_step (counters : Counters) {undone bucket : Str} {bound w l v : Nat} :
    OptimisticSlots.Step u32Modulus bound
      ⟨inFlight counters bucket, w, l + (if undone = bucket then 1 else 0), v⟩
      ⟨inFlight (sub counters undone) bucket, w, l, v⟩ := by
  by_cases same : undone = bucket
  · simpa [inFlight_sub, same] using Step.undo
  · simpa [inFlight_sub, same] using Step.stay _

/-- A subtraction by which a guard is dropped. -/
theorem drop_step (counters : Counters) {dropped bucket : Str} {bound w l v : Nat} :
    OptimisticSlots.Step u32Modulus bound
      ⟨inFlight counters bucket, w, l, v + (if dropped = bucket then 1 else 0)⟩
      ⟨inFlight (sub counters dropped) bucket, w, l, v⟩ := by
  by_cases same : dropped = bucket
  · simpa [inFlight_sub, same] using Step.drop
  · simpa [inFlight_sub, same] using Step.stay _

/-- The test of an addition that won grants a slot. -/
theorem grant_step {tested bucket : Str} {bound c w l v : Nat} :
    OptimisticSlots.Step u32Modulus bound ⟨c, w + (if tested = bucket then 1 else 0), l, v⟩
      ⟨c, w, l, v + (if tested = bucket then 1 else 0)⟩ := by
  by_cases same : tested = bucket
  · simpa [same] using Step.grant
  · simpa [same] using Step.stay _

/-- What a step of a task does to a bucket, beside what the others add to its numbers. -/
theorem advance_step (counters : Counters) (task : Task) (bucket : Str) (bound w l v : Nat)
    (key : task.key = bucket → limits.perKey ≤ bound)
    (ip : task.ip = bucket → limits.perIp ≤ bound)
    (room : ∀ other, task.adds = some other → inFlight counters other + 1 < u32Modulus) :
    OptimisticSlots.Step u32Modulus bound
      ⟨inFlight counters bucket, w + task.wins limits bucket, l + task.loses limits bucket,
        v + task.holds bucket⟩
      ⟨inFlight (advance limits counters task).counters bucket,
        w + total (Task.wins limits bucket) (advance limits counters task).task.toList,
        l + total (Task.loses limits bucket) (advance limits counters task).task.toList,
        v + ((advance limits counters task).guards.count bucket +
          total (Task.holds bucket) (advance limits counters task).task.toList)⟩ := by
  obtain ⟨k, a, phase⟩ := task
  cases phase with
  | keyAdd =>
    simpa [advance, Task.wins, Task.loses, Task.holds, total] using
      add_step counters key (room k rfl)
  | keyTest prev =>
    by_cases at_ : limits.perKey ≤ prev
    · have below : ¬prev < limits.perKey := Nat.not_lt.mpr at_
      simpa [advance, Task.wins, Task.loses, Task.holds, total, below, at_] using Step.stay _
    · have below : prev < limits.perKey := Nat.not_le.mp at_
      simpa [advance, Task.wins, Task.loses, Task.holds, total, below, at_] using grant_step
  | keyUndo =>
    simpa [advance, Task.wins, Task.loses, Task.holds, total] using undo_step counters
  | ipAdd =>
    simpa [advance, Task.wins, Task.loses, Task.holds, total] using
      add_step counters ip (room a rfl)
  | ipTest prev =>
    by_cases at_ : limits.perIp ≤ prev
    · have below : ¬prev < limits.perIp := Nat.not_lt.mpr at_
      simpa [advance, Task.wins, Task.loses, Task.holds, total, below, at_] using Step.stay _
    · have below : prev < limits.perIp := Nat.not_le.mp at_
      simpa [advance, Task.wins, Task.loses, Task.holds, total, below, at_, List.count_cons,
        Nat.add_comm, Nat.add_left_comm] using
        @grant_step a bucket bound (inFlight counters bucket) w l (v + if k = bucket then 1 else 0)
  | ipUndo =>
    simpa [advance, Task.wins, Task.loses, Task.holds, total] using undo_step counters
  | keyDrop =>
    simpa [advance, Task.wins, Task.loses, Task.holds, total] using drop_step counters

/-! ## Every bucket -/

/-- A limit that is asked for a key is at most the largest. -/
theorem le_limitOf {bucket : Str} {limit : Nat} (asked : limit ∈ limitsOf limits labels bucket) :
    limit ≤ limitOf limits labels bucket := by
  rw [limitOf]
  generalize limitsOf limits labels bucket = asks at asked
  induction asks with
  | nil => cases asked
  | cons first rest inductionHypothesis =>
    rw [List.foldr_cons]
    obtain rfl | later := List.mem_cons.mp asked
    · exact Nat.le_max_left _ _
    · exact (inductionHypothesis later).trans (Nat.le_max_right _ _)

/-- The limits of a task are among those of its buckets. -/
theorem limits_of_start (limits : Limits) {key ip : Str} (started : .start key ip ∈ labels)
    (bucket : Str) :
    (key = bucket → limits.perKey ≤ limitOf limits labels bucket) ∧
      (ip = bucket → limits.perIp ≤ limitOf limits labels bucket) := by
  constructor
  · rintro rfl
    refine le_limitOf (List.mem_flatMap.mpr ⟨_, started, ?_⟩)
    simp
  · rintro rfl
    refine le_limitOf (List.mem_flatMap.mpr ⟨_, started, ?_⟩)
    simp

/-- Every task was started. -/
def Tracked (labels : List Label) (state : State) : Prop :=
  ∀ task ∈ state.tasks, .start task.key task.ip ∈ labels

/-- A task keeps its key and its address. -/
theorem advance_task {counters : Counters} {task moved : Task}
    (left : (advance limits counters task).task = some moved) :
    moved.key = task.key ∧ moved.ip = task.ip := by
  obtain ⟨k, a, phase⟩ := task
  cases phase with
  | keyUndo => cases left
  | keyDrop => cases left
  | ipTest prev =>
    rw [advance] at left
    dsimp only at left
    split_ifs at left
    obtain rfl := Option.some.inj left
    exact ⟨rfl, rfl⟩
  | keyAdd | keyTest _ | ipAdd | ipUndo =>
    obtain rfl := Option.some.inj left
    exact ⟨rfl, rfl⟩

/-- Every task and guard comes from a label of the run. -/
theorem Tracked.step (tracked : Tracked labels state) (member : label ∈ labels)
    (stepped : step limits state label = some next) : Tracked labels next := by
  cases label with
  | start key ip =>
    obtain rfl := Option.some.inj stepped
    exact List.forall_mem_cons.mpr ⟨member, tracked⟩
  | advance i =>
    obtain ⟨task, found, rfl⟩ := Option.map_eq_some_iff.mp stepped
    intro other inside
    obtain moved | left := List.mem_append.mp inside
    · obtain ⟨sameKey, sameIp⟩ := advance_task (Option.mem_toList.mp moved)
      rw [sameKey, sameIp]
      exact tracked task (List.mem_of_getElem? found)
    · exact tracked other (List.mem_of_mem_eraseIdx left)
  | release i =>
    obtain ⟨bucket, found, rfl⟩ := Option.map_eq_some_iff.mp stepped
    exact tracked

/-- A total over two lists of tasks. -/
theorem total_append (f : Task → Nat) (before after : List Task) :
    total f (before ++ after) = total f before + total f after := by
  rw [total, List.map_append, List.sum_append]
  rfl

/-- Every step does to every bucket what can happen to a counter. -/
theorem slotsAt_step (tracked : Tracked labels state) (meets : fits state label = true)
    (stepped : step limits state label = some next) (bucket : Str) :
    OptimisticSlots.Step u32Modulus (limitOf limits labels bucket) (slotsAt limits state bucket)
      (slotsAt limits next bucket) := by
  cases label with
  | start key ip =>
    obtain rfl := Option.some.inj stepped
    have same : slotsAt limits { state with tasks := { key, ip } :: state.tasks } bucket =
        slotsAt limits state bucket := by
      simp [slotsAt, live, total, Task.wins, Task.loses, Task.holds]
    rw [same]
    exact .stay _
  | advance i =>
    obtain ⟨task, found, rfl⟩ := Option.map_eq_some_iff.mp stepped
    obtain ⟨key, ip⟩ := limits_of_start limits
      (tracked task (List.mem_of_getElem? found)) bucket
    have room : ∀ other, task.adds = some other →
        inFlight state.counters other + 1 < u32Modulus := by
      intro other adds
      rw [fits, found, Option.bind_some, adds] at meets
      exact of_decide_eq_true meets
    have taken := advance_step state.counters task bucket (limitOf limits labels bucket)
      (total (Task.wins limits bucket) (state.tasks.eraseIdx i))
      (total (Task.loses limits bucket) (state.tasks.eraseIdx i))
      (state.guards.count bucket + total (Task.holds bucket) (state.tasks.eraseIdx i)) key ip room
    have before : slotsAt limits state bucket = ⟨inFlight state.counters bucket,
        total (Task.wins limits bucket) (state.tasks.eraseIdx i) + task.wins limits bucket,
        total (Task.loses limits bucket) (state.tasks.eraseIdx i) + task.loses limits bucket,
        state.guards.count bucket + total (Task.holds bucket) (state.tasks.eraseIdx i) +
          task.holds bucket⟩ := by
      have held := total_split (Task.holds bucket) found
      rw [slotsAt, live, total_split (Task.wins limits bucket) found,
        total_split (Task.loses limits bucket) found, ← total, held]
      congr 1 <;> omega
    have after : slotsAt limits (state.advance limits i task) bucket =
        ⟨inFlight (advance limits state.counters task).counters bucket,
          total (Task.wins limits bucket) (state.tasks.eraseIdx i) +
            total (Task.wins limits bucket) (advance limits state.counters task).task.toList,
          total (Task.loses limits bucket) (state.tasks.eraseIdx i) +
            total (Task.loses limits bucket) (advance limits state.counters task).task.toList,
          state.guards.count bucket + total (Task.holds bucket) (state.tasks.eraseIdx i) +
            ((advance limits state.counters task).guards.count bucket +
              total (Task.holds bucket) (advance limits state.counters task).task.toList)⟩ := by
      rw [slotsAt, live, State.advance, ← total, total_append, total_append, total_append,
        List.count_append]
      congr 1 <;> omega
    rw [before, after]
    exact taken
  | release i =>
    obtain ⟨guard, found, rfl⟩ := Option.map_eq_some_iff.mp stepped
    have before : slotsAt limits state bucket = ⟨inFlight state.counters bucket,
        total (Task.wins limits bucket) state.tasks, total (Task.loses limits bucket) state.tasks,
        (state.guards.eraseIdx i).count bucket + total (Task.holds bucket) state.tasks +
          if guard = bucket then 1 else 0⟩ := by
      rw [slotsAt, live, count_split found bucket, ← total]
      congr 1
      omega
    rw [before]
    exact drop_step state.counters

/-- The invariant of a run: its tasks are known, and every bucket is sound. -/
def Kept (limits : Limits) (labels : List Label) (state : State) : Prop :=
  Tracked labels state ∧ ∀ bucket,
    OptimisticSlots.Sound u32Modulus (limitOf limits labels bucket) (slotsAt limits state bucket)

/-- In a run whose steps have room, every bucket is sound in every state. -/
theorem kept_of_run (ran : run (guarded fits (step limits)) {} labels = some state) :
    Kept limits labels state := by
  have kept : ∀ label ∈ labels, ∀ state next, Kept limits labels state →
      guarded fits (step limits) state label = some next → Kept limits labels next := by
    intro label member state next holds taken
    obtain ⟨meets, stepped⟩ := guarded_eq_some.mp taken
    exact ⟨holds.1.step member stepped, fun bucket =>
      (holds.2 bucket).step (slotsAt_step holds.1 meets stepped bucket)⟩
  have initially : Kept limits labels {} := ⟨nofun, fun bucket => sound_zero (by decide)⟩
  exact run_invariant_mem kept initially ran

/-! ## Bounds -/

/-- One task's part is at most the total. -/
theorem le_total (f : Task → Nat) {tasks : List Task} {task : Task} (member : task ∈ tasks) :
    f task ≤ total f tasks := by
  obtain ⟨i, found⟩ := List.getElem?_of_mem member
  rw [total_split f found]
  exact Nat.le_add_right _ _

/-- What a task subtracts it has added, for itself or for its guard. -/
theorem one_of_subtracts (limits : Limits) {task : Task} {bucket : Str}
    (subtracts : task.subtracts = some bucket) :
    task.loses limits bucket + task.holds bucket ≥ 1 := by
  obtain ⟨key, ip, phase⟩ := task
  cases phase with
  | keyUndo | ipUndo | keyDrop =>
    obtain rfl := Option.some.inj subtracts
    simp [Task.loses, Task.holds]
  | keyAdd | keyTest _ | ipAdd | ipTest _ => cases subtracts

/-- A task counts in no bucket but its own two. -/
theorem none_of_other (limits : Limits) {task : Task} {bucket : Str}
    (other : task.key ≠ bucket ∧ task.ip ≠ bucket) :
    task.wins limits bucket = 0 ∧ task.loses limits bucket = 0 ∧ task.holds bucket = 0 := by
  obtain ⟨key, ip, phase⟩ := task
  obtain ⟨notKey, notIp⟩ := other
  dsimp only at notKey notIp
  cases phase <;> simp [Task.wins, Task.loses, Task.holds, notKey, notIp]

/-- Where no task has a part, the total is nothing. -/
theorem total_eq_zero {f : Task → Nat} {tasks : List Task} (none : ∀ task ∈ tasks, f task = 0) :
    total f tasks = 0 := by
  rw [total, List.sum_eq_zero_iff_forall_eq_nat]
  exact List.forall_mem_map.mpr none

/-- What is kept in a run bounds the slots. -/
theorem Kept.bounded (kept : Kept limits labels state) : Bounded limits labels state where
  within bucket := (Nat.le_add_right _ _).trans (kept.2 bucket).bounded
  undoes task member bucket subtracts := by
    have counted := (kept.2 bucket).counted
    have held := one_of_subtracts limits subtracts
    have loses := le_total (Task.loses limits bucket) member
    have holds := le_total (Task.holds bucket) member
    rw [slotsAt, live, ← total] at counted
    dsimp only at counted
    omega
  releases bucket member := by
    have counted := (kept.2 bucket).counted
    have listed := List.count_pos_iff.mpr member
    rw [slotsAt, live] at counted
    dsimp only at counted
    omega
  idle bucket away notHeld := by
    have counted := (kept.2 bucket).counted
    rw [slotsAt, live, ← total,
      total_eq_zero fun task member => (none_of_other limits (away task member)).1,
      total_eq_zero fun task member => (none_of_other limits (away task member)).2.1,
      total_eq_zero fun task member => (none_of_other limits (away task member)).2.2,
      List.count_eq_zero.mpr notHeld] at counted
    exact counted

/-! ## A task alone -/

/-- With room the counter is back where it was. -/
theorem fetchSub_fetchAdd {counter : Nat} (room : counter + 1 < u32Modulus) :
    fetchSub u32Modulus (fetchAdd u32Modulus counter) = counter := by
  rw [fetchAdd_of_room room, fetchSub_of_pos (Nat.succ_pos counter) room]
  rfl

/-- The guards that a request has from `acquire`. -/
def granted (key ip : Str) (admitted : Bool) : List Str := if admitted then [key, ip] else []

/-- With room adding does not wrap. -/
theorem add_of_room {counters : Counters} {bucket : Str}
    (room : inFlight counters bucket + 1 < u32Modulus) :
    add counters bucket = counters.insert bucket (inFlight counters bucket + 1) := by
  rw [add, fetchAdd_of_room room]

/-- Writing a counter's own value back changes no counter. -/
theorem inFlight_insert_same (counters : Counters) (bucket other : Str) :
    inFlight (counters.insert bucket (inFlight counters bucket)) other =
      inFlight counters other := by
  rw [inFlight]
  by_cases same : other = bucket
  · rw [same, AList.lookup_insert, Option.getD_some]
  · rw [AList.lookup_insert_ne same, inFlight]

/-- With room an addition that is taken back changes no counter. -/
theorem inFlight_sub_add {counters : Counters} {bucket : Str}
    (room : inFlight counters bucket + 1 < u32Modulus) (other : Str) :
    inFlight (sub (add counters bucket) bucket) other = inFlight counters other := by
  rw [inFlight_sub, inFlight_add]
  split_ifs with same
  · subst same
    exact fetchSub_fetchAdd room
  · rfl

/-- A subtraction that finds something is a drop. -/
theorem inFlight_sub_eq_drop {counters others : Counters} {bucket : Str}
    (same : ∀ other, inFlight counters other = inFlight others other)
    (pos : 0 < inFlight counters bucket) (fit : inFlight counters bucket < u32Modulus) (other : Str) :
    inFlight (sub counters bucket) other = inFlight (drop others bucket) other := by
  rw [inFlight_sub, drop_inFlight, ← same other]
  split_ifs with this
  · subst this
    exact fetchSub_of_pos pos fit
  · rfl

/-- A step after which the task goes on, in front of a run of its steps. -/
theorem run_stays {counters moved : Counters} {task onward : Task} {tasks : List Task}
    {guards : List Str} {n : Nat}
    (advanced : advance limits counters task = ⟨moved, some onward, []⟩) :
    run (step limits) ⟨counters, task :: tasks, guards⟩ (List.replicate (n + 1) (.advance 0)) =
      run (step limits) ⟨moved, onward :: tasks, guards⟩ (List.replicate n (.advance 0)) := by
  rw [List.replicate_succ, run_cons, step, List.getElem?_cons_zero, Option.map_some,
    Option.bind_some, State.advance, advanced]
  rfl

/-- A last step, after which the task is gone. -/
theorem run_leaves {counters moved : Counters} {task : Task} {tasks : List Task}
    {guards left : List Str} (advanced : advance limits counters task = ⟨moved, none, left⟩) :
    run (step limits) ⟨counters, task :: tasks, guards⟩ (List.replicate 1 (.advance 0)) =
      some ⟨moved, tasks, left ++ guards⟩ := by
  rw [List.replicate_succ, run_cons, step, List.getElem?_cons_zero, Option.map_some,
    Option.bind_some, State.advance, advanced]
  rfl

/-- What a task that no other gets in the way of does is what `acquire` does. -/
def Acquires (limits : Limits) (state : State) (key ip : Str) : Prop :=
  ∃ n, ∃ after, run (step limits) state (.start key ip :: List.replicate n (.advance 0)) =
      some after ∧ after.tasks = state.tasks ∧
    after.guards = granted key ip (acquire limits state.counters key ip).2 ++ state.guards ∧
    ∀ bucket, inFlight after.counters bucket =
      inFlight (acquire limits state.counters key ip).1 bucket

/-- A task begins with its addition. -/
theorem run_start (counters : Counters) (tasks : List Task) (guards : List Str) (key ip : Str)
    (n : Nat) :
    run (step limits) ⟨counters, tasks, guards⟩ (.start key ip :: List.replicate (n + 1)
        (.advance 0)) =
      run (step limits) ⟨add counters key, ⟨key, ip, .keyTest (inFlight counters key)⟩ :: tasks,
        guards⟩ (List.replicate n (.advance 0)) := rfl

/-- A full key: one addition, which is taken back. -/
theorem acquires_of_full {key ip : Str} (room : inFlight state.counters key + 1 < u32Modulus)
    (full : limits.perKey ≤ inFlight state.counters key) : Acquires limits state key ip := by
  obtain ⟨counters, tasks, guards⟩ := state
  dsimp only at room full
  have refused : advance limits (add counters key) ⟨key, ip, .keyTest (inFlight counters key)⟩ =
      ⟨add counters key, some ⟨key, ip, .keyUndo⟩, []⟩ := by
    simp only [advance, if_pos full]
  have undone : advance limits (add counters key) ⟨key, ip, .keyUndo⟩ =
      ⟨sub (add counters key) key, none, []⟩ := rfl
  refine ⟨3, ⟨sub (add counters key) key, tasks, guards⟩, ?_, rfl, ?_, fun bucket => ?_⟩
  · rw [run_start, run_stays refused, run_leaves undone, List.nil_append]
  · simp [acquire, tryAcquire, full, granted]
  · rw [inFlight_sub_add room]
    simp [acquire, tryAcquire, full, inFlight_insert_same]

/-- A task that was granted the slot of its key goes on to its address. -/
theorem run_keyed {counters : Counters} {tasks : List Task} {guards : List Str} {key ip : Str}
    (free : ¬limits.perKey ≤ inFlight counters key) (n : Nat) :
    run (step limits) ⟨counters, tasks, guards⟩ (.start key ip :: List.replicate (n + 3)
        (.advance 0)) =
      run (step limits) ⟨add (add counters key) ip,
        ⟨key, ip, .ipTest (inFlight (add counters key) ip)⟩ :: tasks, guards⟩
        (List.replicate n (.advance 0)) := by
  have tested : advance limits (add counters key) ⟨key, ip, .keyTest (inFlight counters key)⟩ =
      ⟨add counters key, some ⟨key, ip, .ipAdd⟩, []⟩ := by
    simp only [advance, if_neg free]
  have added : advance limits (add counters key) ⟨key, ip, .ipAdd⟩ =
      ⟨add (add counters key) ip, some ⟨key, ip, .ipTest (inFlight (add counters key) ip)⟩,
        []⟩ := rfl
  rw [run_start, run_stays tested, run_stays added]

/-- A full address: two additions, both taken back. -/
theorem acquires_of_crowded {key ip : Str} (room : inFlight state.counters key + 1 < u32Modulus)
    (also : inFlight (add state.counters key) ip + 1 < u32Modulus)
    (free : ¬limits.perKey ≤ inFlight state.counters key)
    (crowded : limits.perIp ≤ inFlight (add state.counters key) ip) :
    Acquires limits state key ip := by
  obtain ⟨counters, tasks, guards⟩ := state
  dsimp only at room also free crowded
  have refused : advance limits (add (add counters key) ip)
      ⟨key, ip, .ipTest (inFlight (add counters key) ip)⟩ =
        ⟨add (add counters key) ip, some ⟨key, ip, .ipUndo⟩, []⟩ := by
    rw [advance]
    exact if_pos crowded
  have undone : advance limits (add (add counters key) ip) ⟨key, ip, .ipUndo⟩ =
      ⟨sub (add (add counters key) ip) ip, some ⟨key, ip, .keyDrop⟩, []⟩ := rfl
  have dropped : advance limits (sub (add (add counters key) ip) ip) ⟨key, ip, .keyDrop⟩ =
      ⟨sub (sub (add (add counters key) ip) ip) key, none, []⟩ := rfl
  have taken := add_of_room room
  refine ⟨6, ⟨sub (sub (add (add counters key) ip) ip) key, tasks, guards⟩, ?_, rfl, ?_,
    fun bucket => ?_⟩
  · rw [run_keyed free, run_stays refused, run_stays undone, run_leaves dropped, List.nil_append]
  · rw [taken] at crowded
    simp [acquire, tryAcquire, free, crowded, granted]
  · -- The slot of the key is still counted when the guard drops.
    have held : inFlight (sub (add (add counters key) ip) ip) key = inFlight counters key + 1 := by
      rw [inFlight_sub_add also, inFlight_add, if_pos rfl, fetchAdd_of_room room]
    have same (other : Str) : inFlight (sub (add (add counters key) ip) ip) other =
        inFlight ((add counters key).insert ip (inFlight (add counters key) ip)) other :=
      (inFlight_sub_add also other).trans (inFlight_insert_same _ _ _).symm
    rw [inFlight_sub_eq_drop same (held ▸ Nat.succ_pos _) (held ▸ room)]
    rw [taken] at crowded ⊢
    simp [acquire, tryAcquire, free, crowded]

/-- Room for both: the two slots are held. -/
theorem acquires_of_free {key ip : Str} (room : inFlight state.counters key + 1 < u32Modulus)
    (also : inFlight (add state.counters key) ip + 1 < u32Modulus)
    (free : ¬limits.perKey ≤ inFlight state.counters key)
    (spare : ¬limits.perIp ≤ inFlight (add state.counters key) ip) :
    Acquires limits state key ip := by
  obtain ⟨counters, tasks, guards⟩ := state
  dsimp only at room also free spare
  have admitted : advance limits (add (add counters key) ip)
      ⟨key, ip, .ipTest (inFlight (add counters key) ip)⟩ =
        ⟨add (add counters key) ip, none, [key, ip]⟩ := by
    rw [advance]
    exact if_neg spare
  have taken := add_of_room room
  refine ⟨4, ⟨add (add counters key) ip, tasks, key :: ip :: guards⟩, ?_, rfl, ?_,
    fun bucket => ?_⟩
  · rw [run_keyed free, run_leaves admitted]
    rfl
  · rw [taken] at spare
    simp [acquire, tryAcquire, free, spare, granted]
  · rw [add_of_room also]
    rw [taken] at spare ⊢
    simp [acquire, tryAcquire, free, spare]

/-- A task that no other gets in the way of does what `acquire` does. -/
theorem acquires_of_room (limits : Limits) (state : State) (key ip : Str)
    (room : ∀ bucket, inFlight state.counters bucket + 2 < u32Modulus) :
    Acquires limits state key ip := by
  have keyRoom : inFlight state.counters key + 1 < u32Modulus := Nat.lt_of_succ_lt (room key)
  have ipRoom : inFlight (add state.counters key) ip + 1 < u32Modulus := by
    have further := room ip
    rw [inFlight_add]
    split_ifs
    · rw [fetchAdd_of_room (Nat.lt_of_succ_lt further)]
      exact further
    · exact Nat.lt_of_succ_lt further
  by_cases full : limits.perKey ≤ inFlight state.counters key
  · exact acquires_of_full keyRoom full
  by_cases crowded : limits.perIp ≤ inFlight (add state.counters key) ip
  · exact acquires_of_crowded keyRoom ipRoom full crowded
  · exact acquires_of_free keyRoom ipRoom full crowded

end LumidPlatform.Auth.Slots
