import Mathlib.Data.List.DropRight
import LumidPlatform.Crates

/-!
# Slow clients

Each connection has a bounded queue. A frame that finds it full takes the place of the oldest
one, which is counted, and now and then the client is to be told that it lost frames. Whether
the queue has room for that is asked when the new frame is in it already, and then it is full.
-/

namespace LumidPlatform.Realtime.SlowClients

/-! ## The queue of a connection -/

/-- What a queue holds: a frame that was pushed, or the warning with the count so far. -/
inductive Frame where
  | pushed (frame : Json)
  | slowClientDropped (dropped : UInt64)

/-- What the client is sent. -/
def Frame.json : Frame → Json
  | pushed frame => frame
  | slowClientDropped dropped => .object [
      ("type".str, .string "error".str), ("code".str, .string "slow_client_dropped".str),
      ("message".str, .string ("dropped ".str ++ Text.showNat dropped.toNat ++ " frames so far".str))]

/-- `DROP_WARN_INTERVAL`. -/
def dropWarnInterval : Duration := Duration.ofSecs 30

/-- What `push` and `drain` use of a `Connection`; clock readings are in nanoseconds. -/
structure Connection where
  queue : List Frame
  maxQueue : Nat
  dropped : UInt64
  lastDropWarn : Option Nat

namespace Connection

/-- `new`. -/
def new (maxQueue : Nat) : Connection := ⟨[], maxQueue, 0, none⟩

/-- A frame would find no room. -/
def Full (c : Connection) : Prop := c.maxQueue ≤ c.queue.length

instance (c : Connection) : Decidable c.Full := inferInstanceAs (Decidable (_ ≤ _))

/-- Whether the client is to be told at a clock reading, given when it was told last. -/
def due (last : Option Nat) (now : Nat) : Bool :=
  match last with
  | some t => now - t > dropWarnInterval.nanos
  | none => true

/-- The queue with the warning, where there is room. -/
def warn (maxQueue : Nat) (dropped : UInt64) (queue : List Frame) : List Frame :=
  if queue.length < maxQueue then queue ++ [.slowClientDropped dropped] else queue

/-- `push`. -/
def push (c : Connection) (frame : Json) (now : Nat) : Connection :=
  if c.Full then
    let queue := c.queue.tail ++ [.pushed frame]
    let dropped := c.dropped + 1
    if due c.lastDropWarn now then
      { c with
        queue := warn c.maxQueue dropped queue
        dropped := dropped
        lastDropWarn := some now }
    else { c with queue := queue, dropped := dropped }
  else { c with queue := c.queue ++ [.pushed frame] }

/-- `drain`. -/
def drain (c : Connection) : List Frame × Connection := (c.queue, { c with queue := [] })

end Connection

open LumidPlatform.Realtime.SlowClients.Connection

/-! ## Runs -/

/-- A call on the connection. -/
inductive Op where
  | push (frame : Json) (now : Nat)
  | drain

/-- A connection, what its drains have handed out, and the clock readings of its overflows. -/
structure Run where
  connection : Connection
  delivered : List Frame := []
  overflows : List Nat := []

def Run.step (run : Run) : Op → Run
  | .push frame now =>
    { run with
      connection := run.connection.push frame now
      overflows := if run.connection.Full then run.overflows ++ [now] else run.overflows }
  | .drain =>
    { run with
      connection := run.connection.drain.2
      delivered := run.delivered ++ run.connection.drain.1 }

/-- The run of calls on a new connection. -/
def run (maxQueue : Nat) (ops : List Op) : Run :=
  ops.foldl Run.step { connection := Connection.new maxQueue }

/-- The frames that calls push. -/
def pushes : List Op → List Json
  | [] => []
  | .push frame _ :: rest => frame :: pushes rest
  | .drain :: rest => pushes rest

/-- One more call, seen from the last drain. -/
def sinceStep (since : List Json) : Op → List Json
  | .push frame _ => since ++ [frame]
  | .drain => []

/-- The frames pushed since the last drain. -/
def sinceDrain (ops : List Op) : List Json := ops.foldl sinceStep []

/-- When the client was to be told last, over the overflows so far. -/
def lastDue (overflows : List Nat) : Option Nat :=
  overflows.foldl (fun last now => if due last now then some now else last) none

/-- The pushed frames of a queue. -/
def pushedOf (queue : List Frame) : List Json :=
  queue.filterMap (fun entry => match entry with
    | .pushed frame => some frame
    | .slowClientDropped _ => none)

/-- What a connection owes its client over calls. At every point of the run the queue is within
its bound and holds the last frames that were pushed, in order; each frame was handed out, is
queued or is counted as dropped. And an overflow that is the first one, or the first one after
an interval, leaves a warning with the count in the queue. -/
structure Contract (maxQueue : Nat) (ops : List Op) : Prop where
  bounded : ∀ before, before <+: ops → (run maxQueue before).connection.queue.length ≤ maxQueue
  recent : ∀ before, before <+: ops →
    pushedOf (run maxQueue before).connection.queue <:+ sinceDrain before
  counted : ∀ before, before <+: ops →
    (pushedOf (run maxQueue before).delivered).length +
      (pushedOf (run maxQueue before).connection.queue).length +
        (run maxQueue before).connection.dropped.toNat = (pushes before).length
  told : ∀ before frame now, before ++ [.push frame now] <+: ops →
    (run maxQueue before).connection.Full →
      due (lastDue (run maxQueue before).overflows) now = true →
        .slowClientDropped (run maxQueue (before ++ [.push frame now])).connection.dropped ∈
          (run maxQueue (before ++ [.push frame now])).connection.queue

/-- No more frames than the queue has room for are pushed between two drains. -/
def Unhurried (maxQueue : Nat) (ops : List Op) : Prop :=
  ∀ before, before <+: ops → (sinceDrain before).length ≤ maxQueue

section

variable {maxQueue : Nat} {ops : List Op}

theorem run_concat (maxQueue : Nat) (ops : List Op) (op : Op) :
    run maxQueue (ops ++ [op]) = (run maxQueue ops).step op := by
  rw [run, List.foldl_append, List.foldl_cons, List.foldl_nil, run]

theorem sinceDrain_concat (ops : List Op) (op : Op) :
    sinceDrain (ops ++ [op]) = sinceStep (sinceDrain ops) op := by
  rw [sinceDrain, List.foldl_append, List.foldl_cons, List.foldl_nil, sinceDrain]

theorem pushes_append (first second : List Op) :
    pushes (first ++ second) = pushes first ++ pushes second := by
  induction first with
  | nil => rfl
  | cons op rest inductionHypothesis =>
    cases op with
    | push frame now => rw [List.cons_append, pushes, pushes, inductionHypothesis, List.cons_append]
    | drain => rw [List.cons_append, pushes, pushes, inductionHypothesis]

theorem lastDue_concat (overflows : List Nat) (now : Nat) :
    lastDue (overflows ++ [now]) =
      if due (lastDue overflows) now then some now else lastDue overflows := by
  rw [lastDue, List.foldl_append, List.foldl_cons, List.foldl_nil, lastDue]

@[simp]
theorem pushedOf_map (frames : List Json) : pushedOf (frames.map .pushed) = frames := by
  rw [pushedOf, List.filterMap_map]
  exact List.filterMap_some

/-! ## What a run keeps -/

/-- The last frames of a text that is longer than the window, when it moves on. -/
theorem rtake_concat_full {α : Type} {xs : List α} {n : Nat} (full : n + 1 ≤ xs.length) (x : α) :
    (xs ++ [x]).rtake (n + 1) = (xs.rtake (n + 1)).tail ++ [x] := by
  rw [List.rtake_concat_succ, List.rtake, List.rtake, List.tail_drop]
  congr 2
  omega

theorem rtake_of_length_le {α : Type} {xs : List α} {n : Nat} (short : xs.length ≤ n) :
    xs.rtake n = xs := by
  rw [List.rtake, Nat.sub_eq_zero_of_le short, List.drop_zero]

theorem length_rtake {α : Type} (xs : List α) (n : Nat) :
    (xs.rtake n).length = min xs.length n := by
  rw [List.rtake, List.length_drop]
  omega

/-- What holds of a connection after calls: the last frames are queued and nothing else, what
was handed out has no warning either, and the overflows are counted and timed. -/
structure Kept (maxQueue : Nat) (ops : List Op) (state : Run) : Prop where
  capacity : state.connection.maxQueue = maxQueue
  queued : state.connection.queue = ((sinceDrain ops).rtake maxQueue).map .pushed
  told_nothing : ∃ frames : List Json, state.delivered = frames.map .pushed
  timed : state.connection.lastDropWarn = lastDue state.overflows
  dropped : state.connection.dropped = UInt64.ofNat state.overflows.length
  counted : state.delivered.length + state.connection.queue.length + state.overflows.length =
    (pushes ops).length

/-- A full queue is one with as many frames pushed since the last drain. -/
theorem Kept.full_iff {state : Run} (kept : Kept maxQueue ops state) :
    state.connection.Full ↔ maxQueue ≤ (sinceDrain ops).length := by
  rw [Full, kept.capacity, kept.queued, List.length_map, length_rtake]
  omega

/-- Each call keeps it. On an overflow the queue is as long as before, so the warning never
finds room. -/
theorem Kept.step {state : Run} (kept : Kept maxQueue ops state) (positive : 1 ≤ maxQueue)
    (op : Op) : Kept maxQueue (ops ++ [op]) (state.step op) := by
  obtain ⟨room, rfl⟩ : ∃ room, maxQueue = room + 1 := ⟨maxQueue - 1, by omega⟩
  have counts := kept.counted
  cases op with
  | drain =>
    obtain ⟨frames, handed⟩ := kept.told_nothing
    refine ⟨kept.capacity, ?_, ?_, kept.timed, kept.dropped, ?_⟩
    · rw [sinceDrain_concat, sinceStep, List.rtake_nil]
      rfl
    · refine ⟨frames ++ (sinceDrain ops).rtake (room + 1), ?_⟩
      rw [List.map_append, ← handed, ← kept.queued]
      rfl
    · rw [pushes_append]
      simp only [Run.step, drain, pushes, List.length_append, List.length_nil]
      omega
  | push frame now =>
    have pushed : (pushes (ops ++ [.push frame now])).length = (pushes ops).length + 1 := by
      rw [pushes_append, List.length_append]
      rfl
    by_cases full : state.connection.Full
    · have long := kept.full_iff.mp full
      have queue : state.connection.queue.tail ++ [.pushed frame] =
          ((sinceDrain (ops ++ [.push frame now])).rtake (room + 1)).map .pushed := by
        rw [sinceDrain_concat, sinceStep, rtake_concat_full long, kept.queued, List.map_append,
          List.map_tail]
        rfl
      have length : (state.connection.queue.tail ++ [Frame.pushed frame]).length = room + 1 := by
        rw [queue, List.length_map, length_rtake, sinceDrain_concat, sinceStep, List.length_append]
        omega
      have before : state.connection.queue.length = room + 1 := by
        rw [kept.queued, List.length_map, length_rtake]
        omega
      have noRoom : warn state.connection.maxQueue (state.connection.dropped + 1)
          (state.connection.queue.tail ++ [.pushed frame]) =
            state.connection.queue.tail ++ [.pushed frame] := by
        rw [warn, if_neg (by rw [length, kept.capacity]; omega)]
      have counted : state.connection.dropped + 1 =
          UInt64.ofNat (state.overflows ++ [now]).length := by
        rw [List.length_append, kept.dropped, List.length_singleton, UInt64.ofNat_add]
        rfl
      have total : state.delivered.length +
          (state.connection.queue.tail ++ [Frame.pushed frame]).length +
            (state.overflows ++ [now]).length = (pushes (ops ++ [.push frame now])).length := by
        rw [pushed, length, List.length_append, List.length_singleton]
        omega
      simp only [Run.step, Connection.push, if_pos full, noRoom]
      by_cases isDue : due state.connection.lastDropWarn now = true
      · rw [if_pos isDue]
        refine ⟨kept.capacity, queue, kept.told_nothing, ?_, counted, ?_⟩
        · rw [lastDue_concat, ← kept.timed, if_pos isDue]
        · exact total
      · rw [if_neg isDue]
        refine ⟨kept.capacity, queue, kept.told_nothing, ?_, counted, ?_⟩
        · rw [lastDue_concat, ← kept.timed, if_neg isDue]
        · exact total
    · have short : (sinceDrain ops).length < room + 1 := by
        rw [kept.full_iff] at full
        omega
      have total : state.delivered.length +
          (state.connection.queue ++ [Frame.pushed frame]).length + state.overflows.length =
            (pushes (ops ++ [.push frame now])).length := by
        rw [pushed, List.length_append, List.length_singleton]
        omega
      simp only [Run.step, Connection.push, if_neg full]
      refine ⟨kept.capacity, ?_, kept.told_nothing, kept.timed, kept.dropped, ?_⟩
      · rw [sinceDrain_concat, sinceStep, kept.queued, rtake_of_length_le (by omega),
          rtake_of_length_le (by rw [List.length_append, List.length_singleton]; omega),
          List.map_append]
        rfl
      · exact total

theorem run_kept (positive : 1 ≤ maxQueue) (ops : List Op) : Kept maxQueue ops (run maxQueue ops) := by
  induction ops using List.reverseRecOn with
  | nil =>
    refine ⟨rfl, ?_, ⟨[], rfl⟩, rfl, rfl, rfl⟩
    rw [sinceDrain, List.foldl_nil, List.rtake_nil]
    rfl
  | append_singleton before op inductionHypothesis =>
    rw [run_concat]
    exact inductionHypothesis.step positive op

/-- In every run the queue is within its bound, holds the last frames and nothing else, and the
drops are counted; but it never has a warning in it. -/
theorem run_queue (positive : 1 ≤ maxQueue) (ops : List Op) :
    (run maxQueue ops).connection.queue = ((sinceDrain ops).rtake maxQueue).map .pushed :=
  (run_kept positive ops).queued

theorem no_warning (positive : 1 ≤ maxQueue) (ops : List Op) (dropped : UInt64) :
    .slowClientDropped dropped ∉ (run maxQueue ops).connection.queue := by
  rw [run_queue positive, List.mem_map]
  rintro ⟨frame, -, same⟩
  cases same

/-- Without an overflow nothing is dropped and there is nothing to tell. -/
theorem contract_of_unhurried (positive : 1 ≤ maxQueue) (unhurried : Unhurried maxQueue ops) :
    Contract maxQueue ops := by
  have never (before : List Op) (inside : before <+: ops) :
      (run maxQueue before).overflows = [] := by
    induction before using List.reverseRecOn with
    | nil => rfl
    | append_singleton earlier op inductionHypothesis =>
      have start := inductionHypothesis ((List.prefix_append earlier [op]).trans inside)
      rw [run_concat]
      cases op with
      | drain => exact start
      | push frame now =>
        have fits := unhurried _ inside
        rw [sinceDrain_concat, sinceStep, List.length_append, List.length_singleton] at fits
        have room : ¬(run maxQueue earlier).connection.Full := by
          rw [(run_kept positive earlier).full_iff]
          omega
        rw [Run.step, if_neg room]
        exact start
  refine ⟨fun before inside => ?_, fun before inside => ?_, fun before inside => ?_, ?_⟩
  · rw [run_queue positive, List.length_map, length_rtake]
    omega
  · rw [run_queue positive, pushedOf_map]
    exact List.drop_suffix _ _
  · obtain ⟨frames, handed⟩ := (run_kept positive before).told_nothing
    have counts := (run_kept positive before).counted
    rw [handed, run_queue positive, never before inside, List.length_map, List.length_map] at counts
    rw [handed, run_queue positive, pushedOf_map, pushedOf_map,
      (run_kept positive before).dropped, never before inside]
    exact counts
  · intro before frame now inside full
    have fits := unhurried _ inside
    rw [sinceDrain_concat, sinceStep, List.length_append, List.length_singleton] at fits
    rw [(run_kept positive before).full_iff] at full
    omega

/-- The first overflow is not told. -/
theorem unhurried_of_contract (positive : 1 ≤ maxQueue) (contract : Contract maxQueue ops) :
    Unhurried maxQueue ops := by
  have quiet (before : List Op) (inside : before <+: ops) :
      (sinceDrain before).length ≤ maxQueue ∧ (run maxQueue before).overflows = [] := by
    induction before using List.reverseRecOn with
    | nil => exact ⟨Nat.zero_le _, rfl⟩
    | append_singleton earlier op inductionHypothesis =>
      obtain ⟨fits, none⟩ := inductionHypothesis ((List.prefix_append earlier [op]).trans inside)
      rw [run_concat, sinceDrain_concat]
      cases op with
      | drain => exact ⟨Nat.zero_le _, none⟩
      | push frame now =>
        have room : ¬(run maxQueue earlier).connection.Full := by
          intro full
          have isDue : due (lastDue (run maxQueue earlier).overflows) now = true := by
            rw [none]
            rfl
          exact no_warning positive _ _ (contract.told earlier frame now inside full isDue)
        rw [Run.step, if_neg room, sinceStep, List.length_append, List.length_singleton]
        rw [(run_kept positive earlier).full_iff] at room
        exact ⟨by omega, none⟩
  exact fun before inside => (quiet before inside).1

/-- A connection keeps its contract with the client exactly as long as it drops nothing: an
overflow is counted, and the warning that is due for it is lost. -/
theorem contract_iff_unhurried (positive : 1 ≤ maxQueue) (ops : List Op) :
    Contract maxQueue ops ↔ Unhurried maxQueue ops :=
  ⟨unhurried_of_contract positive, contract_of_unhurried positive⟩

/-- A queue for two frames keeps its contract over two frames. -/
theorem two_frames_kept : Contract 2 [.push (.ofNat 1) 0, .push (.ofNat 2) 0] := by
  refine (contract_iff_unhurried (by decide) _).mpr fun before inside => ?_
  have all : ∀ before ∈ List.inits [Op.push (.ofNat 1) 0, .push (.ofNat 2) 0],
      (sinceDrain before).length ≤ 2 := by decide
  exact all before ((List.mem_inits _ _).mpr inside)

/-- The third frame in a queue for two is an overflow, and the client is not told. -/
theorem third_frame_untold :
    ¬∀ (maxQueue : Nat) (ops : List Op), 1 ≤ maxQueue → Contract maxQueue ops := by
  intro all
  have contract := all 2 [.push (.ofNat 1) 0, .push (.ofNat 2) 0, .push (.ofNat 3) 0] (by decide)
  have told := contract.told [.push (.ofNat 1) 0, .push (.ofNat 2) 0] (.ofNat 3) 0
    (List.prefix_refl _) (by decide) rfl
  exact no_warning (by decide) _ _ told

end

end LumidPlatform.Realtime.SlowClients
