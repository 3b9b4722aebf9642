import LumidPlatform.Lib.Transitions
import LumidPlatform.Llm.Pool

/-!
# Hedged streams

The answer of a local backend is passed on chunk by chunk. If it is silent for too long, the
same request is sent to OpenRouter as well, and whichever side first sends a data frame is
passed on from there. The task that does so waits for several things at once: here each is an
event, and the events come in any order.
-/

namespace LumidPlatform.Llm

/-! ## Requests to upstreams -/

/-- To whom a request is sent: an address that is listed as a backend is one. -/
inductive Upstream where
  | backend
  | openrouter
  | peer
  deriving DecidableEq

/-- The body of a request. -/
inductive Payload where
  | json (value : Json)
  | raw (contentType : Str) (bytes : Bytes)

/-- A request as it is posted to an upstream. -/
structure Contact where
  upstream : Upstream
  url : Str
  bearer : Option Str
  body : Payload

/-- The key of `add_auth`. -/
def Settings.localBearer (settings : Settings) : Option Str :=
  if settings.llmApiKey.isEmpty then none else some settings.llmApiKey

def Settings.openrouterKey (settings : Settings) : Str :=
  if settings.llmOpenrouterKey.isEmpty then settings.llmApiKey else settings.llmOpenrouterKey

/-- The key of `add_openrouter_auth`. -/
def Settings.openrouterBearer (settings : Settings) : Option Str :=
  if settings.openrouterKey.isEmpty then none else some settings.openrouterKey

/-! ## Data frames -/

def stripCr (line : Str) : Str := if line.getLast? = some '\r' then line.dropLast else line

/-- `str::lines`: the last line may lack its end, and an empty one is none. -/
def lines (text : Str) : List Str :=
  let pieces := text.splitOn '\n'
  pieces.dropLast.map stripCr ++ (pieces.getLast?.toList.filter (fun last => !last.isEmpty))

/-- `trim_start_matches`, for a text of at most so many characters. -/
def trimStartMatches (word : Str) : Nat → Str → Str
  | 0, text => text
  | room + 1, text =>
    match Text.stripPrefix text word with
    | some rest => trimStartMatches word room rest
    | none => text

/-- A line of a frame that carries data. -/
def isDataLine (line : Str) : Bool :=
  Text.startsWith line "data:".str &&
    !(Text.trim (trimStartMatches "data:".str line.length line)).isEmpty

/-- `chunk_has_data_frame`. -/
def chunkHasDataFrame (bytes : Bytes) : Bool :=
  match Text.fromUtf8 bytes with
  | none => true
  | some text => (lines text).any isDataLine

/-! ## The task -/

inductive StreamSide where
  | local_
  | hedge
  deriving DecidableEq

/-- What the client is sent: a keepalive comment of our own or a chunk of a stream. -/
inductive Frame where
  | keepalive
  | chunk (bytes : Bytes)

/-- The bytes of a stream in a frame. -/
def Frame.bytes : Frame → Bytes
  | keepalive => []
  | chunk bytes => bytes

/-- In the loop, in the arm that drains the hedge, or past the loop. -/
inductive Phase where
  | running
  | draining
  | done
  deriving DecidableEq

/-- The state of the task. `channel` holds what the hedge has sent and the task has not yet
received, and `hedgeOpen` says that the hedge can still send. The last fields record what came
of each side: `adopted` that the client was sent a chunk of the hedge. -/
structure StreamTask where
  plan : Option Contact
  winner : Option StreamSide
  hedgeStarted : Bool
  hedgeOpen : Bool
  channel : List Bytes
  phase : Phase
  connected : Bool
  sent : List Frame
  contacts : List Contact
  localSeen : Bytes
  localEnded : Bool
  hedgeMade : Bytes
  hedgeTaken : Bytes
  adopted : Bool

/-- The task as it is spawned. -/
def StreamTask.start (plan : Option Contact) : StreamTask where
  plan
  winner := none
  hedgeStarted := false
  hedgeOpen := true
  channel := []
  phase := .running
  connected := true
  sent := []
  contacts := []
  localSeen := []
  localEnded := false
  hedgeMade := []
  hedgeTaken := []
  adopted := false

/-- What can happen. -/
inductive Event where
  | localChunk (bytes : Bytes)
  /-- The local stream ends or breaks off. -/
  | localEnds
  /-- The hedge, in its own task, passes on a chunk. -/
  | hedgeSends (bytes : Bytes)
  | hedgeStops
  /-- The task receives from the channel. -/
  | hedgeReceived
  | timer
  | tick
  | clientLeaves

namespace StreamTask

variable (task : StreamTask)

/-- `tx.send`, and `break` when nobody listens. -/
def send (frame : Frame) : StreamTask :=
  if task.connected then { task with sent := task.sent ++ [frame] } else { task with phase := .done }

/-- The side that has won once a chunk is seen. -/
def settle (side : StreamSide) (bytes : Bytes) : Option StreamSide :=
  if task.winner.isNone && chunkHasDataFrame bytes then some side else task.winner

/-- A chunk of the hedge is sent on. -/
def forward (bytes : Bytes) : StreamTask :=
  { task with adopted := task.adopted || task.connected }.send (.chunk bytes)

/-- The arm of the local stream. -/
def onLocalChunk (bytes : Bytes) : StreamTask :=
  let task := { task with
    winner := task.settle .local_ bytes
    localSeen := task.localSeen ++ bytes }
  if task.winner ≠ some .hedge then task.send (.chunk bytes) else task

/-- The arm of its end. -/
def onLocalEnds : StreamTask :=
  let task := { task with localEnded := true }
  if task.winner = some .local_ || !task.hedgeStarted then { task with phase := .done }
  else if !task.hedgeOpen && task.channel.isEmpty then { task with phase := .done }
  else { task with phase := .draining }

/-- A chunk of the hedge, in the loop. -/
def onHedgeChunk (bytes : Bytes) (rest : List Bytes) : StreamTask :=
  let task := { task with
    winner := task.settle .hedge bytes
    channel := rest
    hedgeTaken := task.hedgeTaken ++ bytes }
  if task.winner = some .hedge then task.forward bytes else task

/-- A chunk of the hedge, in the arm that drains it. -/
def onDrained (bytes : Bytes) (rest : List Bytes) : StreamTask :=
  { task with channel := rest, hedgeTaken := task.hedgeTaken ++ bytes }.forward bytes

/-- The hedge is started: its request is sent. -/
def onTimer (contact : Contact) : StreamTask :=
  { task with hedgeStarted := true, contacts := task.contacts ++ [contact] }

def onTick : StreamTask :=
  if !task.connected then { task with phase := .done }
  else if task.winner.isNone then task.send .keepalive
  else task

/-- One event, if it can happen. -/
def step (task : StreamTask) : Event → Option StreamTask
  | .localChunk bytes => if task.phase = .running then some (task.onLocalChunk bytes) else none
  | .localEnds => if task.phase = .running then some task.onLocalEnds else none
  | .hedgeSends bytes =>
    if task.hedgeStarted && task.hedgeOpen then
      some { task with
        channel := task.channel ++ [bytes]
        hedgeMade := task.hedgeMade ++ bytes }
    else none
  | .hedgeStops =>
    if task.hedgeStarted && task.hedgeOpen then some { task with hedgeOpen := false } else none
  | .hedgeReceived =>
    match task.phase, task.channel with
    | .running, bytes :: rest =>
      if task.hedgeStarted then some (task.onHedgeChunk bytes rest) else none
    | .draining, bytes :: rest => some (task.onDrained bytes rest)
    | .draining, [] => if task.hedgeOpen then none else some { task with phase := .done }
    | _, _ => none
  | .timer =>
    match task.plan with
    | some contact =>
      if task.phase = .running && !task.hedgeStarted && task.winner.isNone then
        some (task.onTimer contact)
      else none
    | none => none
  | .tick => if task.phase = .running then some task.onTick else none
  | .clientLeaves => some { task with connected := false }

/-- The bytes that the client was sent, without the keepalive comments. -/
def delivered : Bytes := task.sent.flatMap Frame.bytes

/-! ## Contacts -/

@[simp] theorem send_plan (frame : Frame) : (task.send frame).plan = task.plan := by
  rw [send]
  split <;> rfl

@[simp] theorem send_contacts (frame : Frame) : (task.send frame).contacts = task.contacts := by
  rw [send]
  split <;> rfl

/-- A step keeps the plan, and contacts nobody except to start the hedge as planned. -/
theorem step_contacts {task next : StreamTask} {event : Event} (taken : task.step event = some next) :
    next.plan = task.plan ∧ (next.contacts = task.contacts ∨
      ∃ contact, task.plan = some contact ∧ next.contacts = task.contacts ++ [contact]) := by
  cases event with
  | localChunk bytes =>
    obtain ⟨-, same⟩ := Option.ite_none_right_eq_some.mp taken
    obtain rfl := Option.some.inj same
    rw [onLocalChunk]
    dsimp only
    split
    · simp
    · simp
  | localEnds =>
    obtain ⟨-, same⟩ := Option.ite_none_right_eq_some.mp taken
    obtain rfl := Option.some.inj same
    rw [onLocalEnds]
    dsimp only
    split
    · simp
    · split
      · simp
      · simp
  | hedgeSends bytes =>
    obtain ⟨-, same⟩ := Option.ite_none_right_eq_some.mp taken
    obtain rfl := Option.some.inj same
    simp
  | hedgeStops =>
    obtain ⟨-, same⟩ := Option.ite_none_right_eq_some.mp taken
    obtain rfl := Option.some.inj same
    simp
  | hedgeReceived =>
    rw [step] at taken
    split at taken
    · obtain ⟨-, same⟩ := Option.ite_none_right_eq_some.mp taken
      obtain rfl := Option.some.inj same
      rw [onHedgeChunk]
      dsimp only
      split
      · simp [forward]
      · simp
    · obtain rfl := Option.some.inj taken
      simp [onDrained, forward]
    · obtain ⟨-, same⟩ := Option.ite_none_left_eq_some.mp taken
      obtain rfl := Option.some.inj same
      simp
    · cases taken
  | timer =>
    rw [step] at taken
    split at taken
    · rename_i contact planned
      obtain ⟨-, same⟩ := Option.ite_none_right_eq_some.mp taken
      obtain rfl := Option.some.inj same
      exact ⟨rfl, Or.inr ⟨contact, planned, rfl⟩⟩
    · cases taken
  | tick =>
    obtain ⟨-, same⟩ := Option.ite_none_right_eq_some.mp taken
    obtain rfl := Option.some.inj same
    rw [onTick]
    split
    · simp
    · split
      · simp
      · simp
  | clientLeaves =>
    obtain rfl := Option.some.inj taken
    simp

end StreamTask

end LumidPlatform.Llm
