import LumidPlatform.Llm.Hedge

/-!
# One side, whole

Chunks of the local stream are passed on from the start, chunks of the hedge only from its
first data frame. Hence a stream is that of one side, whole, in the runs in which the hedge is
adopted while what it was ahead by is what the client already has: usually nothing of either.
-/

namespace LumidPlatform.Llm.OneSide

open Transitions StreamTask

variable {task next : StreamTask}

/-- The client has the bytes of one side from its beginning; and if it stays connected, it has
all of them once that side has ended, and the task does not stop before. -/
structure Undivided (task : StreamTask) : Prop where
  oneSide : task.delivered <+: task.localSeen ∨ task.delivered <+: task.hedgeMade
  localWhole : task.connected = true → task.adopted = false → task.localEnded = true →
    task.delivered = task.localSeen
  hedgeWhole : task.connected = true → task.adopted = true → task.hedgeOpen = false →
    task.channel = [] → task.delivered = task.hedgeMade
  stops : task.connected = true → task.phase = .done →
    (task.adopted = false → task.localEnded = true) ∧
      (task.adopted = true → task.hedgeOpen = false ∧ task.channel = [])

/-- The step that adopts the hedge does so while the bytes that came of it and were dropped
are the bytes that came of the local stream. -/
def adoptsWhole (task : StreamTask) : Event → Bool
  | .hedgeReceived =>
    match task.channel with
    | bytes :: _ =>
      let adopts := task.connected && !task.adopted && (task.phase = .draining ||
        (task.phase = .running && task.winner.isNone && chunkHasDataFrame bytes))
      !adopts || task.localSeen == task.hedgeTaken
    | [] => true
  | _ => true

/-! ## What is kept -/

/-- Until the hedge is adopted the client gets the local stream, from then on the hedge. -/
structure Inv (task : StreamTask) : Prop where
  channel : task.hedgeMade = task.hedgeTaken ++ task.channel.flatten
  own : task.adopted = false → task.delivered <+: task.localSeen
  ownAll : task.adopted = false → task.connected = true → task.delivered = task.localSeen
  other : task.adopted = true → task.delivered <+: task.hedgeTaken
  otherAll : task.adopted = true → task.connected = true → task.delivered = task.hedgeTaken
  won : task.winner = some .hedge → task.phase = .running → task.adopted = true
  adopted : task.adopted = true → task.phase = .running → task.winner = some .hedge
  started : task.adopted = true → task.hedgeStarted = true
  ended : task.phase = .draining → task.localEnded = true ∧ task.hedgeStarted = true
  stops : task.connected = true → task.phase = .done →
    (task.adopted = false → task.localEnded = true) ∧
      (task.adopted = true → task.hedgeOpen = false ∧ task.channel = [])

theorem Inv.oneSided (inv : Inv task) : Undivided task where
  oneSide := by
    cases adopted : task.adopted with
    | false => exact Or.inl (inv.own adopted)
    | true =>
      rw [inv.channel]
      exact Or.inr ((inv.other adopted).trans (List.prefix_append _ _))
  localWhole connected adopted _ := inv.ownAll adopted connected
  hedgeWhole connected adopted _ empty := by
    rw [inv.otherAll adopted connected, inv.channel, empty]
    simp
  stops := inv.stops

theorem inv_start (plan : Option Contact) : Inv (StreamTask.start plan) := by
  constructor <;> simp [StreamTask.start, delivered]

theorem settle_hedge {side : StreamSide} {bytes : Bytes}
    (won : task.settle side bytes = some .hedge) :
    task.winner = some .hedge ∨
      (side = .hedge ∧ task.winner = none ∧ chunkHasDataFrame bytes = true) := by
  rw [settle] at won
  split at won
  · rename_i fresh
    rw [Bool.and_eq_true, Option.isNone_iff_eq_none] at fresh
    exact Or.inr ⟨Option.some.inj won, fresh⟩
  · exact Or.inl won

theorem settle_of_won {side other : StreamSide} {bytes : Bytes} (won : task.winner = some other) :
    task.settle side bytes = some other := by
  simp [settle, won]

/-- A chunk of the local stream is sent on unless the hedge is adopted. -/
theorem onLocalChunk_inv {bytes : Bytes} (inv : Inv task) (running : task.phase = .running) :
    Inv (task.onLocalChunk bytes) := by
  rw [onLocalChunk]
  dsimp only
  by_cases won : task.settle .local_ bytes = some .hedge
  · have winner : task.winner = some .hedge := by
      rcases settle_hedge won with before | ⟨side, -⟩
      · exact before
      · cases side
    have adopted : task.adopted = true := inv.won winner running
    rw [if_neg (by simpa using won)]
    obtain ⟨channel, -, -, other, otherAll, -, -, started, ended, stops⟩ := inv
    constructor
    · exact channel
    · simp [adopted]
    · simp [adopted]
    · exact other
    · exact otherAll
    · exact fun _ _ => adopted
    · exact fun _ _ => won
    · exact started
    · exact ended
    · simp [running]
  · have fresh : task.adopted = false := by
      by_contra adopted
      have winner := inv.adopted (by simpa using adopted) running
      exact won (settle_of_won winner)
    rw [if_pos won, send]
    dsimp only
    cases connected : task.connected with
    | true =>
      have same : task.sent.flatMap Frame.bytes = task.localSeen := inv.ownAll fresh connected
      rw [if_pos rfl]
      constructor
      · exact inv.channel
      · simp [delivered, Frame.bytes, same]
      · simp [delivered, Frame.bytes, same]
      · simp [fresh]
      · simp [fresh]
      · exact fun winner _ => absurd winner won
      · simp [fresh]
      · simp [fresh]
      · simp [running]
      · simp [running]
    | false =>
      rw [if_neg (by simp)]
      constructor
      · exact inv.channel
      · exact fun _ => (inv.own fresh).trans (List.prefix_append _ _)
      · simp
      · simp [fresh]
      · simp [fresh]
      · simp
      · simp
      · simp [fresh]
      · simp
      · simp

/-- Once the local stream has ended, the task goes on only for the hedge. -/
theorem onLocalEnds_inv (inv : Inv task) (running : task.phase = .running) :
    Inv task.onLocalEnds := by
  obtain ⟨channel, own, ownAll, other, otherAll, won, adopted, started, ended, stops⟩ := inv
  have fresh (lost : task.winner = some .local_ ∨ task.hedgeStarted = false) :
      task.adopted = false := by
    by_contra taken
    have taken : task.adopted = true := by simpa using taken
    rcases lost with winner | never
    · simp [adopted taken running] at winner
    · simp [started taken] at never
  rw [onLocalEnds]
  dsimp only
  split
  · rename_i lost
    have fresh := fresh (by simpa using lost)
    exact ⟨channel, own, ownAll, other, otherAll, by simp, by simp, started, by simp,
      by simp [fresh]⟩
  · split
    · rename_i finished
      rw [Bool.and_eq_true, Bool.not_eq_true', List.isEmpty_iff] at finished
      exact ⟨channel, own, ownAll, other, otherAll, by simp, by simp, started, by simp,
        fun _ _ => ⟨fun _ => rfl, fun _ => finished⟩⟩
    · rename_i kept _
      have begun : task.hedgeStarted = true := by
        simp only [Bool.or_eq_true, not_or, Bool.not_eq_true', Bool.not_eq_false] at kept
        exact kept.2
      exact ⟨channel, own, ownAll, other, otherAll, by simp, by simp, started,
        fun _ => ⟨rfl, begun⟩, by simp⟩

/-- A chunk of the hedge is sent on, the first one only where nothing was lost before it. -/
theorem forward_inv {bytes : Bytes} {winner : Option StreamSide} {rest : List Bytes}
    (inv : Inv task) (awake : task.phase ≠ .done) (queued : task.channel = bytes :: rest)
    (started : task.hedgeStarted = true)
    (aligned : task.connected = true → task.adopted = false → task.localSeen = task.hedgeTaken)
    (won : task.phase = .running → winner = some .hedge) :
    Inv (forward
      { task with winner, channel := rest, hedgeTaken := task.hedgeTaken ++ bytes } bytes) := by
  have channel : task.hedgeMade = task.hedgeTaken ++ bytes ++ rest.flatten := by
    rw [inv.channel, queued]
    simp
  rw [forward, send]
  dsimp only
  cases connected : task.connected with
  | true =>
    have same : task.sent.flatMap Frame.bytes = task.hedgeTaken := by
      cases adopted : task.adopted with
      | true => exact inv.otherAll adopted connected
      | false => exact (inv.ownAll adopted connected).trans (aligned connected adopted)
    rw [if_pos rfl]
    constructor
    · exact channel
    · simp
    · simp
    · simp [delivered, Frame.bytes, same]
    · simp [delivered, Frame.bytes, same]
    · simp
    · exact fun _ running => won running
    · exact fun _ => started
    · exact inv.ended
    · exact fun _ done => absurd done awake
  | false =>
    rw [if_neg (by simp)]
    constructor
    · exact channel
    · exact fun fresh => inv.own (by simpa using fresh)
    · simp
    · intro adopted
      exact (inv.other (by simpa using adopted)).trans (List.prefix_append _ _)
    · simp
    · simp
    · simp
    · exact fun _ => started
    · simp
    · simp

theorem onHedgeChunk_inv {bytes : Bytes} {rest : List Bytes} (inv : Inv task)
    (running : task.phase = .running) (queued : task.channel = bytes :: rest)
    (started : task.hedgeStarted = true) (whole : adoptsWhole task .hedgeReceived = true) :
    Inv (task.onHedgeChunk bytes rest) := by
  rw [onHedgeChunk]
  dsimp only
  split
  · rename_i won
    have aligned (connected : task.connected = true) (fresh : task.adopted = false) :
        task.localSeen = task.hedgeTaken := by
      rcases settle_hedge won with before | ⟨-, undecided, data⟩
      · simp [inv.won before running] at fresh
      · simpa [adoptsWhole, queued, connected, fresh, running, undecided, data] using whole
    exact forward_inv inv (by simp [running]) queued started aligned fun _ => won
  · rename_i other
    have fresh : task.adopted = false := by
      by_contra adopted
      have winner := inv.adopted (by simpa using adopted) running
      exact other (settle_of_won winner)
    have channel : task.hedgeMade = task.hedgeTaken ++ bytes ++ rest.flatten := by
      rw [inv.channel, queued]
      simp
    constructor
    · exact channel
    · exact inv.own
    · exact inv.ownAll
    · simp [fresh]
    · simp [fresh]
    · exact fun winner _ => absurd winner other
    · simp [fresh]
    · simp [fresh]
    · exact inv.ended
    · simp [running]

theorem onDrained_inv {bytes : Bytes} {rest : List Bytes} (inv : Inv task)
    (draining : task.phase = .draining) (queued : task.channel = bytes :: rest)
    (whole : adoptsWhole task .hedgeReceived = true) :
    Inv (task.onDrained bytes rest) := by
  have aligned (connected : task.connected = true) (fresh : task.adopted = false) :
      task.localSeen = task.hedgeTaken := by
    simpa [adoptsWhole, queued, connected, fresh, draining] using whole
  exact forward_inv inv (by simp [draining]) queued (inv.ended draining).2 aligned
    (by simp [draining])

theorem onTick_inv (inv : Inv task) : Inv task.onTick := by
  obtain ⟨channel, own, ownAll, other, otherAll, won, adopted, started, ended, stops⟩ := inv
  rw [onTick]
  split
  · rename_i gone
    have gone : task.connected = false := by simpa using gone
    exact ⟨channel, own, ownAll, other, otherAll, by simp, by simp, started, by simp,
      by simp [gone]⟩
  · split
    · rename_i here _
      rw [send, if_pos (by simpa using here)]
      have kept : (task.sent ++ [Frame.keepalive]).flatMap Frame.bytes =
          task.sent.flatMap Frame.bytes := by
        simp [Frame.bytes]
      constructor
      · exact channel
      · simpa only [delivered, kept] using own
      · simpa only [delivered, kept] using ownAll
      · simpa only [delivered, kept] using other
      · simpa only [delivered, kept] using otherAll
      · exact won
      · exact adopted
      · exact started
      · exact ended
      · exact stops
    · exact ⟨channel, own, ownAll, other, otherAll, won, adopted, started, ended, stops⟩

theorem step_inv {event : Event} (inv : Inv task) (whole : adoptsWhole task event = true)
    (taken : task.step event = some next) : Inv next := by
  cases event with
  | localChunk bytes =>
    simp only [step, Option.ite_none_right_eq_some, Option.some.injEq] at taken
    obtain ⟨running, rfl⟩ := taken
    exact onLocalChunk_inv inv running
  | localEnds =>
    simp only [step, Option.ite_none_right_eq_some, Option.some.injEq] at taken
    obtain ⟨running, rfl⟩ := taken
    exact onLocalEnds_inv inv running
  | hedgeSends bytes =>
    simp only [step, Option.ite_none_right_eq_some, Option.some.injEq, Bool.and_eq_true] at taken
    obtain ⟨⟨-, alive⟩, rfl⟩ := taken
    obtain ⟨channel, own, ownAll, other, otherAll, won, adopted, started, ended, stops⟩ := inv
    have sent : task.hedgeMade ++ bytes =
        task.hedgeTaken ++ (task.channel ++ [bytes]).flatten := by
      simp [channel]
    refine ⟨sent, own, ownAll, other, otherAll, won, adopted, started, ended, ?_⟩
    intro connected done
    refine ⟨(stops connected done).1, fun taken => ?_⟩
    simp [((stops connected done).2 taken).1] at alive
  | hedgeStops =>
    simp only [step, Option.ite_none_right_eq_some, Option.some.injEq] at taken
    obtain ⟨-, rfl⟩ := taken
    obtain ⟨channel, own, ownAll, other, otherAll, won, adopted, started, ended, stops⟩ := inv
    exact ⟨channel, own, ownAll, other, otherAll, won, adopted, started, ended,
      fun connected done => ⟨(stops connected done).1,
        fun taken => ⟨rfl, ((stops connected done).2 taken).2⟩⟩⟩
  | hedgeReceived =>
    rw [step] at taken
    split at taken
    · rename_i bytes rest running queued
      obtain ⟨started, same⟩ := Option.ite_none_right_eq_some.mp taken
      obtain rfl := Option.some.inj same
      exact onHedgeChunk_inv inv running queued started whole
    · rename_i bytes rest draining queued
      obtain rfl := Option.some.inj taken
      exact onDrained_inv inv draining queued whole
    · rename_i draining empty
      obtain ⟨closed, same⟩ := Option.ite_none_left_eq_some.mp taken
      obtain rfl := Option.some.inj same
      have closed : task.hedgeOpen = false := by simpa using closed
      obtain ⟨channel, own, ownAll, other, otherAll, won, adopted, started, ended, stops⟩ := inv
      exact ⟨channel, own, ownAll, other, otherAll, by simp, by simp, started, by simp,
        fun _ _ => ⟨fun _ => (ended draining).1, fun _ => ⟨closed, empty⟩⟩⟩
    · cases taken
  | timer =>
    rw [step] at taken
    split at taken
    · rename_i contact _
      simp only [Option.ite_none_right_eq_some, Option.some.injEq] at taken
      obtain ⟨-, rfl⟩ := taken
      obtain ⟨channel, own, ownAll, other, otherAll, won, adopted, started, ended, stops⟩ := inv
      exact ⟨channel, own, ownAll, other, otherAll, won, adopted, fun _ => rfl,
        fun draining => ⟨(ended draining).1, rfl⟩, stops⟩
    · cases taken
  | tick =>
    simp only [step, Option.ite_none_right_eq_some, Option.some.injEq] at taken
    obtain ⟨-, rfl⟩ := taken
    exact onTick_inv inv
  | clientLeaves =>
    obtain rfl := Option.some.inj taken
    obtain ⟨channel, own, ownAll, other, otherAll, won, adopted, started, ended, stops⟩ := inv
    exact ⟨channel, own, by simp, other, by simp, won, adopted, started, ended, by simp⟩

/-- In every run in which the hedge is adopted only where nothing was lost before it, the
client has one side, whole. -/
theorem undivided {plan : Option Contact} {task : StreamTask}
    (reaches : Reaches (guarded adoptsWhole step) (StreamTask.start plan) task) :
    Undivided task :=
  (reaches.guarded_invariant (inv_start plan) fun _ _ _ inv whole taken =>
    step_inv inv whole taken).oneSided

/-- The hedge of a chat. -/
def chatHedge : Contact :=
  ⟨.openrouter, "https://openrouter.ai/api/v1/chat/completions".str, some "key".str,
    .json (.object [("model".str, .string "deepseek/deepseek-v4-flash".str)])⟩

/-- The hedge answers with one frame, the local backend not at all. -/
def answered : List Event :=
  [.timer, .tick, .hedgeSends (Text.utf8 "data: 1\n\n".str), .hedgeReceived, .hedgeStops,
    .localEnds]

theorem undivided_answered : ∃ task,
    run (guarded adoptsWhole step) (StreamTask.start (some chatHedge)) answered = some task ∧
      Undivided task := by
  have ends : (run (guarded adoptsWhole step) (StreamTask.start (some chatHedge))
      answered).isSome = true := by
    decide +kernel
  obtain ⟨task, ran⟩ := Option.isSome_iff_exists.mp ends
  exact ⟨task, ran, undivided ⟨answered, ran⟩⟩

/-- The first chunk of the local stream is cut within its line, and nothing follows. -/
def cutShort : List Event :=
  [.localChunk (Text.utf8 "da".str), .timer, .hedgeSends (Text.utf8 "data: 1\n\n".str),
    .hedgeReceived]

/-- What is seen of a task. -/
structure Seen where
  delivered : Bytes
  localSeen : Bytes
  hedgeMade : Bytes
  deriving DecidableEq

def seen (task : StreamTask) : Seen := ⟨task.delivered, task.localSeen, task.hedgeMade⟩

/-- The client gets the beginning of a line of the one side and a frame of the other. -/
theorem parts_of_both : ∃ task,
    run step (StreamTask.start (some chatHedge)) cutShort = some task ∧ ¬Undivided task := by
  have ends : (run step (StreamTask.start (some chatHedge)) cutShort).map seen =
      some ⟨Text.utf8 "dadata: 1\n\n".str, Text.utf8 "da".str, Text.utf8 "data: 1\n\n".str⟩ := by
    decide +kernel
  obtain ⟨task, ran, same⟩ := Option.map_eq_some_iff.mp ends
  refine ⟨task, ran, fun whole => ?_⟩
  have sides := whole.oneSide
  obtain ⟨delivered, localSeen, hedgeMade⟩ := (Seen.mk.injEq ..).mp same
  rw [delivered, localSeen, hedgeMade] at sides
  exact absurd sides (by decide +kernel)

end LumidPlatform.Llm.OneSide
