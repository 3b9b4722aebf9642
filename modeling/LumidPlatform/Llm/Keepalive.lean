import LumidPlatform.Lib.EventStream
import LumidPlatform.Lib.Transitions
import LumidPlatform.Text

/-!
# Keepalives in a relayed stream

`proxy_stream_openrouter` and `proxy_stream_peer` pass the stream of an upstream on chunk by
chunk, and put a keepalive comment in whenever the timer ticks while no chunk is there. The
comment stands wherever the last chunk ended. It goes unnoticed whatever comes next if and only
if that is between two events.
-/

namespace LumidPlatform.Llm.Keepalive

open EventStream Transitions

/-! ## The task -/

/-- The text of the comment: `KEEPALIVE_FRAME` without its colon and its two line ends. -/
def keepaliveText : Bytes := Text.utf8 " keep-alive".str

/-- `KEEPALIVE_FRAME`. -/
def keepaliveFrame : Bytes := Client.comment keepaliveText

example : keepaliveFrame = Text.utf8 ": keep-alive\n\n".str := by decide

/-- The task between the upstream and the client: what was received and what is still to come
of the upstream, and what was sent. -/
structure Relay where
  received : Bytes
  rest : Bytes
  sent : Bytes
  finished : Bool

def Relay.start (upstream : Bytes) : Relay := ⟨[], upstream, [], false⟩

/-- What the loop of the task waits for. -/
inductive Event where
  /-- A chunk: the next bytes of the upstream. -/
  | chunk (size : Nat)
  | tick
  /-- The upstream ends or breaks off, or the client is gone. -/
  | ends
  deriving DecidableEq

/-- One round of the loop. -/
def Relay.step (relay : Relay) : Event → Option Relay
  | .chunk size =>
    if relay.finished then none
    else some { relay with
      received := relay.received ++ relay.rest.take size
      rest := relay.rest.drop size
      sent := relay.sent ++ relay.rest.take size }
  | .tick => if relay.finished then none else some { relay with sent := relay.sent ++ keepaliveFrame }
  | .ends => if relay.finished then none else some { relay with finished := true }

/-! ## Harmless ticks -/

/-- So far the client is between two events. -/
def between (received : Bytes) : Bool :=
  let c := client received
  c.line.isEmpty && c.data.isEmpty && c.kind == message

/-- A tick falls between two events, and not before a byte order mark. -/
def quiet (upstream : Bytes) (relay : Relay) : Event → Bool
  | .tick => between relay.received &&
      !(relay.received.isEmpty && mark.isPrefixOf upstream)
  | _ => true

/-- However the upstream goes on, with a byte order mark only if it has one, the events of what
was sent are those of the upstream. -/
def Unharmed (upstream : Bytes) (relay : Relay) : Prop :=
  ∀ more, (mark <+: relay.received ++ more → mark <+: upstream) →
    events (relay.sent ++ more) = events (relay.received ++ more)

/-- The client of what was sent and one of the upstream read on alike. -/
structure InStep (upstream : Bytes) (relay : Relay) : Prop where
  whole : relay.received ++ relay.rest = upstream
  alike : ∀ more, (mark <+: relay.received ++ more → mark <+: upstream) →
    (client (relay.received ++ more)).Alike (client (relay.sent ++ more))

variable {upstream : Bytes} {relay next : Relay} {event : Event}

theorem inline_keepalive : Client.Inline keepaliveText := by
  have all : keepaliveText.all (fun byte => byte != 10 && byte != 13) = true := by decide
  intro byte member
  have fits := List.all_eq_true.mp all byte member
  rwa [Bool.and_eq_true, bne_iff_ne, bne_iff_ne] at fits

theorem between_iff : between relay.received = true ↔ (client relay.received).Idle := by
  rw [between, Bool.and_eq_true, Bool.and_eq_true, List.isEmpty_iff, List.isEmpty_iff,
    beq_iff_eq]
  exact ⟨fun ⟨⟨line, data⟩, kind⟩ => ⟨line, data, kind⟩,
    fun idle => ⟨⟨idle.line, idle.data⟩, idle.kind⟩⟩

theorem InStep.unharmed (inStep : InStep upstream relay) : Unharmed upstream relay :=
  fun more marked => (inStep.alike more marked).events.symm

theorem InStep.here (inStep : InStep upstream relay) :
    (client relay.received).Alike (client relay.sent) := by
  have now := inStep.alike [] (fun marked => by
    rw [List.append_nil] at marked
    exact marked.trans ⟨_, inStep.whole⟩)
  rwa [List.append_nil, List.append_nil] at now

/-- A quiet tick keeps the clients in step. -/
theorem InStep.tick (inStep : InStep upstream relay)
    (allowed : quiet upstream relay .tick = true) :
    InStep upstream { relay with sent := relay.sent ++ keepaliveFrame } := by
  rw [quiet, Bool.and_eq_true, Bool.not_eq_true', Bool.and_eq_false_iff] at allowed
  obtain ⟨inBetween, early⟩ := allowed
  have idle := between_iff.mp inBetween
  refine ⟨inStep.whole, fun more marked => ?_⟩
  have whole : mark <+: relay.received ++ more → mark <+: relay.received := by
    intro found
    rcases early with begun | unmarked
    · exact mark_whole idle.line (List.isEmpty_eq_false_iff.mp begun) found
    · rw [List.isPrefixOf_iff_prefix.mpr (marked found)] at unmarked
      cases unmarked
  dsimp only
  rw [client_append whole, List.append_assoc, keepaliveFrame, client_comment]
  exact (inStep.here.comment idle inline_keepalive).read more

/-- A tick after which nothing can be told is quiet. -/
theorem quiet_of_unharmed (inStep : InStep upstream relay)
    (unharmed : Unharmed upstream { relay with sent := relay.sent ++ keepaliveFrame }) :
    quiet upstream relay .tick = true := by
  have later (more : Bytes) (marked : mark <+: relay.received ++ more → mark <+: upstream) :
      (((client relay.sent).read (Client.comment keepaliveText)).read more).events =
        (client (relay.received ++ more)).events := by
    have same := unharmed more marked
    dsimp only at same
    rwa [events, events, List.append_assoc, keepaliveFrame, client_comment] at same
  have upTo (found : mark <+: relay.received) : mark <+: upstream :=
    found.trans ⟨_, inStep.whole⟩
  have foreign : (100 : UInt8) ∉ mark := by decide
  have probed : mark <+: relay.received ++ Client.probe → mark <+: relay.received :=
    mark_of_append foreign
  have idle : (client relay.received).Idle := by
    refine Client.idle_of_passed inStep.here inline_keepalive ?_ ?_
    · have now := later [] (fun marked => upTo (by rwa [List.append_nil] at marked))
      rwa [List.append_nil, Client.read_nil] at now
    · rw [← client_append probed]
      exact later Client.probe (fun marked => upTo (probed marked))
  rw [quiet, between_iff.mpr idle, Bool.true_and, Bool.not_eq_true', Bool.and_eq_false_iff]
  by_contra early
  push Not at early
  obtain ⟨nothing, marked⟩ := early
  rw [Bool.ne_false_iff] at nothing marked
  have empty := List.isEmpty_iff.mp nothing
  have alike := inStep.here
  have harmed := later (mark ++ Client.probe) (fun _ => List.isPrefixOf_iff_prefix.mp marked)
  rw [empty] at harmed alike idle
  have passed := (alike.comment idle inline_keepalive).read (mark ++ Client.probe)
  exact absurd (passed.events.trans harmed) (by decide)

/-- One event of the loop: what is quiet keeps the clients in step, and what cannot be told
was quiet. -/
theorem step_exact (inStep : InStep upstream relay) (taken : relay.step event = some next) :
    (quiet upstream relay event = true → InStep upstream next) ∧
      (Unharmed upstream next → quiet upstream relay event = true) := by
  cases event with
  | chunk size =>
    rw [Relay.step] at taken
    split_ifs at taken
    obtain rfl := Option.some.inj taken
    refine ⟨fun _ => ⟨?_, fun more marked => ?_⟩, fun _ => rfl⟩
    · dsimp only
      rw [List.append_assoc, List.take_append_drop, inStep.whole]
    · dsimp only at marked ⊢
      rw [List.append_assoc] at marked ⊢
      rw [List.append_assoc]
      exact inStep.alike _ marked
  | tick =>
    rw [Relay.step] at taken
    split_ifs at taken
    obtain rfl := Option.some.inj taken
    exact ⟨inStep.tick, quiet_of_unharmed inStep⟩
  | ends =>
    rw [Relay.step] at taken
    split_ifs at taken
    obtain rfl := Option.some.inj taken
    exact ⟨fun _ => ⟨inStep.whole, inStep.alike⟩, fun _ => rfl⟩

/-! ## Runs -/

theorem inStep_start : InStep upstream (Relay.start upstream) where
  whole := rfl
  alike _ _ := .refl _

/-- What was received is the beginning of the upstream. -/
theorem received_begins {labels : List Event}
    (ran : run Relay.step (Relay.start upstream) labels = some relay) :
    relay.received <+: upstream := by
  have kept : ∀ (relay : Relay) event next, relay.received ++ relay.rest = upstream →
      relay.step event = some next → next.received ++ next.rest = upstream := by
    intro relay event next whole taken
    cases event with
    | chunk size =>
      rw [Relay.step] at taken
      split_ifs at taken
      obtain rfl := Option.some.inj taken
      dsimp only
      rw [List.append_assoc, List.take_append_drop, whole]
    | tick =>
      rw [Relay.step] at taken
      split_ifs at taken
      obtain rfl := Option.some.inj taken
      exact whole
    | ends =>
      rw [Relay.step] at taken
      split_ifs at taken
      obtain rfl := Option.some.inj taken
      exact whole
  exact ⟨_, run_invariant kept rfl ran⟩

/-- In a run all of whose ticks are quiet, the client reads the events of the upstream as far as
it was received. Only such a run leaves no harm at any point, whatever comes next. -/
theorem keepalives_harmless {labels : List Event}
    (ran : run Relay.step (Relay.start upstream) labels = some relay) :
    relay.received <+: upstream ∧
      ((run (guarded (quiet upstream) Relay.step) (Relay.start upstream) labels).isSome →
        events relay.sent = events relay.received) ∧
      ((∀ before, before <+: labels → ∀ t,
          run Relay.step (Relay.start upstream) before = some t → Unharmed upstream t) ↔
        (run (guarded (quiet upstream) Relay.step) (Relay.start upstream) labels).isSome) := by
  have exact : (∀ before, before <+: labels → ∀ t,
      run Relay.step (Relay.start upstream) before = some t → Unharmed upstream t) ↔
        (run (guarded (quiet upstream) Relay.step) (Relay.start upstream) labels).isSome :=
    guarded_observed (fun _ => InStep.unharmed)
      (fun _ _ _ inStep taken => step_exact inStep taken) inStep_start ran
  refine ⟨received_begins ran, fun allQuiet => ?_, exact⟩
  have now := exact.mpr allQuiet labels List.prefix_rfl relay ran [] (fun marked => by
    rw [List.append_nil] at marked
    exact marked.trans (received_begins ran))
  rwa [List.append_nil, List.append_nil] at now

/-! ## Two runs -/

/-- An upstream of two events. -/
def twoEvents : Bytes := Text.utf8 "data: a\n\ndata: b\n\n".str

/-- Ticks before the first event and between the two. -/
theorem quiet_ticks_harmless : ∃ s,
    run Relay.step (Relay.start twoEvents) [.tick, .chunk 9, .tick, .chunk 9, .ends] = some s ∧
      s.received = twoEvents ∧ (events s.sent).length = 2 ∧ events s.sent = events s.received := by
  have ran : (run Relay.step (Relay.start twoEvents)
      [.tick, .chunk 9, .tick, .chunk 9, .ends]).map (fun s => (s.received, (events s.sent).length)) =
      some (twoEvents, 2) := by
    decide +kernel
  obtain ⟨s, reached, observed⟩ := Option.map_eq_some_iff.mp ran
  obtain ⟨received, count⟩ := Prod.mk.inj observed
  exact ⟨s, reached, received, count, (keepalives_harmless reached).2.1 (by decide +kernel)⟩

/-- An upstream of one event. -/
def oneEvent : Bytes := Text.utf8 "data: hello\n\n".str

/-- The chunk ends within a line, and the comment becomes part of the data. -/
theorem tick_within_line : ∃ s,
    run Relay.step (Relay.start oneEvent) [.chunk 8, .tick, .chunk 5, .ends] = some s ∧
      s.received = oneEvent ∧
      events s.sent = [⟨Text.utf8 "message".str, Text.utf8 "he: keep-alive".str, []⟩] ∧
      events s.received = [⟨Text.utf8 "message".str, Text.utf8 "hello".str, []⟩] ∧
      events s.sent ≠ events s.received := by
  have ran : (run Relay.step (Relay.start oneEvent) [.chunk 8, .tick, .chunk 5, .ends]).map
      (fun s => (s.received, events s.sent)) =
      some (oneEvent, [⟨Text.utf8 "message".str, Text.utf8 "he: keep-alive".str, []⟩]) := by
    decide +kernel
  obtain ⟨s, reached, observed⟩ := Option.map_eq_some_iff.mp ran
  obtain ⟨received, sent⟩ := Prod.mk.inj observed
  have whole : events s.received =
      [⟨Text.utf8 "message".str, Text.utf8 "hello".str, []⟩] := by
    rw [received]
    decide +kernel
  refine ⟨s, reached, received, sent, whole, ?_⟩
  rw [sent, whole]
  decide +kernel

end LumidPlatform.Llm.Keepalive
