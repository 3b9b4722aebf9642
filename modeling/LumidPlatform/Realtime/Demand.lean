import LumidPlatform.Lib.Delivery
import LumidPlatform.Realtime.Bookkeeping

/-!
# Telling the demand listeners

Demand is decided under the state lock and delivered outside of it: a call goes on to make one
`fire_demand` for each symbol, each spawns a task, and a task calls the listeners one after the
other. Calls and tasks take their steps in any order, so a listener may be told of the demand
for a symbol in another order than it was decided in.
-/

namespace LumidPlatform.Realtime.Demand

open Switches Delivery Transitions

/-- Demand that was decided. Its rank counts what was decided for the symbol before; nothing is
decided by it. -/
structure Event where
  symbol : Str
  active : Bool
  rank : Nat
  deriving DecidableEq

/-- The task spawned for an event: the listeners before `next` have been called. -/
structure Task where
  event : Event
  next : Nat
  deriving DecidableEq

/-- The hub, the calls of `fire_demand` that each call under way has still to make, the tasks,
and what the listeners have been called with. -/
structure World where
  books : Books := {}
  calls : List (List Event) := []
  tasks : List Task := []
  heard : List (Nat × Str × Bool) := []

inductive Label where
  /-- A call begins, up to where it drops the state lock. -/
  | call (call : Call)
  /-- A call under way makes its next `fire_demand`. -/
  | fire (i : Nat)
  /-- A task calls its next listener. -/
  | deliver (i : Nat)

/-- The events of demand that is decided after what is logged. -/
def numbered : List (Str × Bool) → List (Str × Bool) → List Event
  | _, [] => []
  | log, (symbol, active) :: rest =>
    ⟨symbol, active, (moves log symbol).length⟩ :: numbered (log ++ [(symbol, active)]) rest

/-- A task calls its next listener. -/
def World.deliver (w : World) (i : Nat) (task : Task) : World :=
  { w with
    tasks := w.tasks.set i { task with next := task.next + 1 }
    heard := w.heard ++ [(task.next, task.event.symbol, task.event.active)] }

/-- One step. Where there is no listener, `fire_demand` spawns no task. -/
def step (listeners : Nat) (w : World) : Label → Option World
  | .call call =>
    (call.perform w.books.hub).map (fun (after, demand) =>
      { w with
        books := { hub := after, decided := w.books.decided ++ demand }
        calls := w.calls ++ [numbered w.books.decided demand] })
  | .fire i =>
    match w.calls[i]? with
    | some (event :: rest) =>
      some { w with
        calls := w.calls.set i rest
        tasks := if listeners = 0 then w.tasks else w.tasks ++ [⟨event, 0⟩] }
    | _ => none
  | .deliver i =>
    match w.tasks[i]? with
    | some task => if task.next < listeners then some (w.deliver i task) else none
    | none => none

namespace World

variable (w : World)

/-- All calls have returned and all tasks are over. -/
def Quiet (listeners : Nat) : Prop :=
  (∀ call ∈ w.calls, call = []) ∧ ∀ task ∈ w.tasks, task.next = listeners

/-- What a listener was called with. -/
def heardBy (listener : Nat) : List (Str × Bool) :=
  (w.heard.filter (fun entry => entry.1 = listener)).map Prod.snd

/-- Each listener's last call for a symbol says whether it has a subscriber. -/
def Matched (listeners : Nat) : Prop :=
  ∀ listener < listeners, ∀ symbol,
    (moves (w.heardBy listener) symbol).getLast? = some true ↔
      w.books.hub.hasSubscriber symbol = true

end World

/-- The event is for the symbol. -/
def Event.out (symbol : Str) (event : Event) : List (Bool × Nat) :=
  if event.symbol = symbol then [(event.active, event.rank)] else []

/-- The task is for the symbol and still to call the listener. -/
def Task.out (listener : Nat) (symbol : Str) (task : Task) : List (Bool × Nat) :=
  if task.next ≤ listener then task.event.out symbol else []

/-- What was decided for a symbol and is still to reach a listener. -/
def World.outstanding (w : World) (listener : Nat) (symbol : Str) : List (Bool × Nat) :=
  w.calls.flatMap (fun call => call.flatMap (Event.out symbol)) ++
    w.tasks.flatMap (Task.out listener symbol)

/-- A task calls a listener only when all that was decided before for its symbol has reached that
listener. -/
def inTurn (w : World) : Label → Bool
  | .deliver i =>
    (w.tasks[i]?).all (fun task =>
      (w.outstanding task.next task.event.symbol).all (fun other => task.event.rank ≤ other.2))
  | _ => true

/-! ## What a step does to what is outstanding -/

theorem flatMap_set_perm {A B : Type} {items : List A} {i : Nat} {old : A}
    (there : items[i]? = some old) (f : A → List B) (new : A) :
    ∃ others, (items.flatMap f).Perm (f old ++ others) ∧
      ((items.set i new).flatMap f).Perm (f new ++ others) := by
  obtain ⟨inside, rfl⟩ := List.getElem?_eq_some_iff.mp there
  refine ⟨(items.eraseIdx i).flatMap f, ?_, ?_⟩
  · exact ((List.getElem_cons_eraseIdx_perm inside).symm).flatMap_right f
  · exact (List.set_perm_cons_eraseIdx inside new).flatMap_right f

/-- All events of a call are out from the start. -/
theorem behind_numbered {symbol : Str} {heard : List Bool} (demand : List (Str × Bool))
    {log : List (Str × Bool)} {outstanding : List (Bool × Nat)}
    (behind : Behind (moves log symbol) heard outstanding) :
    Behind (moves (log ++ demand) symbol) heard
      ((numbered log demand).flatMap (Event.out symbol) ++ outstanding) := by
  induction demand generalizing log outstanding with
  | nil => simpa [numbered] using behind
  | cons entry rest inductionHypothesis =>
    have split : log ++ entry :: rest = (log ++ [entry]) ++ rest := by simp
    rw [split, numbered, List.flatMap_cons, Event.out]
    by_cases same : entry.1 = symbol
    · subst same
      have logged : Behind (moves (log ++ [entry]) entry.1) heard
          ((entry.2, (moves log entry.1).length) :: outstanding) := by
        rw [moves_append, moves_cons, if_pos rfl]
        exact behind.log entry.2
      rw [if_pos rfl]
      exact (inductionHypothesis logged).perm List.perm_middle.symm
    · have logged : Behind (moves (log ++ [entry]) symbol) heard outstanding := by
        rw [moves_append, moves_cons, if_neg same, moves_nil, List.append_nil]
        exact behind
      rw [if_neg same, List.nil_append]
      exact inductionHypothesis logged

theorem heardBy_deliver (w : World) (i : Nat) (task : Task) (listener : Nat) :
    (w.deliver i task).heardBy listener = w.heardBy listener ++
      if task.next = listener then [(task.event.symbol, task.event.active)] else [] := by
  rw [World.heardBy, World.heardBy, World.deliver, List.filter_append, List.map_append]
  by_cases same : task.next = listener <;> simp [same]

theorem outstanding_deliver (w : World) (i : Nat) (task : Task) (listener : Nat) (symbol : Str) :
    (w.deliver i task).outstanding listener symbol =
      w.calls.flatMap (fun call => call.flatMap (Event.out symbol)) ++
        (w.tasks.set i { task with next := task.next + 1 }).flatMap (Task.out listener symbol) :=
  rfl

/-- What a run keeps all of whose tasks take their turn. -/
structure InOrder (listeners : Nat) (w : World) : Prop where
  sound : w.books.Sound
  behind : ∀ listener < listeners, ∀ symbol,
    Behind (moves w.books.decided symbol) (moves (w.heardBy listener) symbol)
      (w.outstanding listener symbol)

variable {listeners : Nat}

theorem InOrder.start : InOrder listeners {} where
  sound := Books.Sound.start
  behind _ _ _ := Behind.start

/-- A call that begins. -/
theorem InOrder.call {w next : World} {call : Call} (inOrder : InOrder listeners w)
    (stepped : step listeners w (.call call) = some next) : InOrder listeners next := by
  obtain ⟨⟨after, demand⟩, performed, rfl⟩ := Option.map_eq_some_iff.mp stepped
  obtain ⟨tidy, takes⟩ := perform_takes performed inOrder.sound.tidy
  refine ⟨⟨tidy, inOrder.sound.takes.append takes⟩, fun listener known symbol => ?_⟩
  refine (behind_numbered demand (inOrder.behind listener known symbol)).perm ?_
  rw [World.outstanding, World.outstanding, List.flatMap_append, List.flatMap_singleton,
    List.append_assoc]
  exact List.perm_append_comm_assoc _ _ _

/-- An event goes over from its call to its task. -/
theorem InOrder.fire {w next : World} {i : Nat} (inOrder : InOrder listeners w)
    (stepped : step listeners w (.fire i) = some next) : InOrder listeners next := by
  rw [step] at stepped
  split at stepped
  next event rest found =>
    obtain rfl := Option.some.inj stepped
    refine ⟨inOrder.sound, fun listener known symbol => ?_⟩
    refine (inOrder.behind listener known symbol).perm ?_
    obtain ⟨others, before, after⟩ :=
      flatMap_set_perm found (fun call => call.flatMap (Event.out symbol)) rest
    have spawned : listeners ≠ 0 := Nat.ne_of_gt (Nat.lt_of_le_of_lt (Nat.zero_le _) known)
    have first : Task.out listener symbol ⟨event, 0⟩ = event.out symbol :=
      if_pos (Nat.zero_le _)
    simp only [World.outstanding, if_neg spawned, List.flatMap_append, List.flatMap_singleton,
      first]
    refine ((after.append_right _).trans ?_).trans (before.symm.append_right _)
    rw [List.flatMap_cons, List.perm_iff_count]
    intro entry
    simp only [List.count_append]
    omega
  next => cases stepped

/-- A task whose turn it is calls its next listener. -/
theorem InOrder.deliver {w next : World} {i : Nat} (inOrder : InOrder listeners w)
    (turn : inTurn w (.deliver i) = true)
    (stepped : step listeners w (.deliver i) = some next) : InOrder listeners next := by
  rw [step] at stepped
  split at stepped
  next task found =>
    split_ifs at stepped with known
    obtain rfl := Option.some.inj stepped
    rw [inTurn, found, Option.all_some, List.all_eq_true] at turn
    refine ⟨inOrder.sound, fun listener inside symbol => ?_⟩
    have behind := inOrder.behind listener inside symbol
    obtain ⟨others, before, after⟩ :=
      flatMap_set_perm found (Task.out listener symbol) { task with next := task.next + 1 }
    rw [heardBy_deliver, outstanding_deliver, moves_append]
    by_cases told : task.next = listener ∧ task.event.symbol = symbol
    · -- The event goes from what is outstanding to what was heard.
      obtain ⟨rfl, rfl⟩ := told
      have was : Task.out task.next task.event.symbol task =
          [(task.event.active, task.event.rank)] := by
        rw [Task.out, if_pos le_rfl, Event.out, if_pos rfl]
      have gone : Task.out task.next task.event.symbol { task with next := task.next + 1 } = [] :=
        if_neg (by simp)
      rw [was] at before
      rw [gone] at after
      rw [if_pos rfl, moves_cons, if_pos rfl, moves_nil]
      have split : (w.outstanding task.next task.event.symbol).Perm
          ((task.event.active, task.event.rank) ::
            (w.calls.flatMap (fun call => call.flatMap (Event.out task.event.symbol)) ++
              others)) := by
        refine (before.append_left _).trans ?_
        exact List.perm_middle
      have heard := (behind.perm split.symm).hear (fun other member =>
        of_decide_eq_true (turn other (split.symm.subset (List.mem_cons_of_mem _ member))))
      exact heard.perm (after.append_left _)
    · -- Neither changes for this listener and this symbol.
      have kept : Task.out listener symbol { task with next := task.next + 1 } =
          Task.out listener symbol task := by
        by_cases other : task.event.symbol = symbol
        · have differs : task.next ≠ listener := fun same => told ⟨same, other⟩
          have still : task.next + 1 ≤ listener ↔ task.next ≤ listener := by omega
          simp only [Task.out, still]
        · simp [Task.out, Event.out, other]
      have silent : moves (if task.next = listener then [(task.event.symbol, task.event.active)]
          else []) symbol = [] := by
        split_ifs with same
        · rw [moves_cons, if_neg (fun other => told ⟨same, other⟩), moves_nil]
        · rfl
      rw [silent, List.append_nil]
      rw [kept] at after
      exact behind.perm ((after.trans before.symm).append_left _)
  next => cases stepped

/-- Whatever was decided for a symbol reaches every listener in the order it was decided in: once
all calls and tasks are over, each listener's last call for a symbol says whether it has a
subscriber. -/
theorem matched_of_inTurn {w : World} (quiet : w.Quiet listeners)
    (reaches : Reaches (guarded inTurn (step listeners)) {} w) : w.Matched listeners := by
  have inOrder : InOrder listeners w := by
    apply reaches.guarded_invariant InOrder.start
    intro state label next holds turn stepped
    cases label with
    | call call => exact holds.call stepped
    | fire i => exact holds.fire stepped
    | deliver i => exact holds.deliver turn stepped
  intro listener known symbol
  have emptied : w.outstanding listener symbol = [] := by
    rw [World.outstanding, List.append_eq_nil_iff, List.flatMap_eq_nil_iff,
      List.flatMap_eq_nil_iff]
    constructor
    · intro call member
      rw [quiet.1 call member, List.flatMap_nil]
    · intro task member
      rw [Task.out, quiet.2 task member, if_neg (Nat.not_le.mpr known)]
  have all : moves (w.heardBy listener) symbol = moves w.books.decided symbol := by
    have behind := inOrder.behind listener known symbol
    rw [emptied] at behind
    exact behind.done
  have last := (inOrder.sound.takes symbol).last
  rw [all, ← last]
  cases ends : (moves w.books.decided symbol).getLast? with
  | none => simp
  | some position => simp

/-! ## Two schedules -/

/-- A symbol is followed and given up again. -/
def followed (order : List Nat) : List Label :=
  [.call (.register laptop true), .call (.subscribe laptop ["BTC".str]),
    .call (.unsubscribe laptop ["BTC".str]), .fire 1, .fire 2] ++ order.map .deliver

theorem inOrder_matched : ∃ w, run (guarded inTurn (step 1)) {} (followed [0, 1]) = some w ∧
    w.heard = [(0, "BTC".str, true), (0, "BTC".str, false)] ∧ w.Matched 1 := by
  have ran : (run (guarded inTurn (step 1)) {} (followed [0, 1])).map
      (fun w => (w.heard, w.calls, w.tasks.map Task.next)) =
        some ([(0, "BTC".str, true), (0, "BTC".str, false)], [[], [], []], [1, 1]) := by
    decide +kernel
  obtain ⟨w, reached, ends⟩ := Option.map_eq_some_iff.mp ran
  obtain ⟨heard, rest⟩ := Prod.mk.inj ends
  obtain ⟨returned, told⟩ := Prod.mk.inj rest
  refine ⟨w, reached, heard, matched_of_inTurn ⟨?_, ?_⟩ ⟨_, reached⟩⟩
  · rw [returned]
    simp
  · intro task member
    have next : task.next ∈ [1, 1] := told ▸ List.mem_map_of_mem member
    simpa using next

/-- The task of the subscription is overtaken by the one of its end. -/
theorem overtaken_unmatched : ∃ w, run (step 1) {} (followed [1, 0]) = some w ∧ w.Quiet 1 ∧
    w.heard = [(0, "BTC".str, false), (0, "BTC".str, true)] ∧
    w.books.hub.hasSubscriber "BTC".str = false ∧ ¬w.Matched 1 := by
  have ran : (run (step 1) {} (followed [1, 0])).map
      (fun w => (w.heard, w.calls, w.tasks.map Task.next)) =
        some ([(0, "BTC".str, false), (0, "BTC".str, true)], [[], [], []], [1, 1]) := by
    decide +kernel
  have left : (run (step 1) {} (followed [1, 0])).map
      (fun w => w.books.hub.hasSubscriber "BTC".str) = some false := by decide +kernel
  obtain ⟨w, reached, ends⟩ := Option.map_eq_some_iff.mp ran
  obtain ⟨heard, rest⟩ := Prod.mk.inj ends
  obtain ⟨returned, told⟩ := Prod.mk.inj rest
  have subscribed : w.books.hub.hasSubscriber "BTC".str = false := by
    rw [reached] at left
    exact Option.some.inj left
  refine ⟨w, reached, ⟨?_, ?_⟩, heard, subscribed, fun matched => ?_⟩
  · rw [returned]
    simp
  · intro task member
    have next : task.next ∈ [1, 1] := told ▸ List.mem_map_of_mem member
    simpa using next
  · have last : (moves (w.heardBy 0) "BTC".str).getLast? = some true := by
      rw [World.heardBy, heard]
      decide
    rw [matched 0 (by decide), subscribed] at last
    cases last

end LumidPlatform.Realtime.Demand
