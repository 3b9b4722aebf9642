import LumidPlatform.Agent.AgentLoop

/-!
# The transcript of an agent's run

A run is described by its frames, by the rounds it added to the messages, and by the calls it
executed with what they came to. All the law needs is that every call comes back, with a
value or with an error: an error is written down like a value, and the next call is made. A
panic in a tool is no such error. It takes the run down, with all frames up to there, and the
guard of the queries panics on some texts.
-/

namespace LumidPlatform.Agent

open Retrieve Blobs Plan Replayer TenantReads

/-! ## What the replies ask for -/

/-- The calls of the replies from an iteration on, up to a reply that ends the run. -/
def requestedFrom (services : Services) : Nat → Nat → List Json
  | 0, _ => []
  | left + 1, iteration =>
    match assistantMessage (services.reply iteration) with
    | .error _ => []
    | .ok message =>
      if (toolCalls message).isEmpty then []
      else toolCalls message ++ requestedFrom services left (iteration + 1)

/-- The number of replies up to there. -/
def turnsFrom (services : Services) : Nat → Nat → Nat
  | 0, _ => 0
  | left + 1, iteration =>
    match assistantMessage (services.reply iteration) with
    | .error _ => 1
    | .ok message =>
      if (toolCalls message).isEmpty then 1 else turnsFrom services left (iteration + 1) + 1

/-! ## What a run leaves -/

namespace Frame

/-- The type the payload of a frame gives. -/
def type (frame : Frame) : Str := memberText frame.toValue "type".str

def terminal (frame : Frame) : Bool := frame.type = "done".str || frame.type = "error".str

def ofTool (frame : Frame) : Bool :=
  frame.type ∈ ["tool_call".str, "tool_result".str, "tool_error".str]

end Frame

/-- A message of the LLM, and the messages put behind it. -/
structure Round where
  message : Json
  answers : List Json

namespace Round

def messages (round : Round) : List Json := round.message :: round.answers

/-- The message has calls, and each of them is answered, in their order. -/
structure Complete (round : Round) : Prop where
  called : toolCalls round.message ≠ []
  roles : ∀ answer ∈ round.answers, member answer "role".str = some (.string "tool".str)
  ids : round.answers.map (member · "tool_call_id".str) =
    (toolCalls round.message).map fun call => some (.string (callId call))

end Round

/-- A call with what it came to. -/
structure Execution where
  call : Json
  outcome : ApiResult Json

namespace Execution

def frames (execution : Execution) : List Frame := callFrames execution.call execution.outcome

/-- The value of a replayed plan. -/
def replayed (execution : Execution) : Option Json :=
  if toolName execution.call = "replay_retrieval_plan".str then execution.outcome.toOption
  else none

end Execution

/-- The value of the last plan that was replayed with success. -/
def lastReplayed (executed : List Execution) : Option Json :=
  (executed.filterMap Execution.replayed).getLast?

/-- The messages of a request, with the rounds behind those it began with. -/
def Carries (registry : ToolRegistry) (messages : List Json) (request : LlmRequest)
    (rounds : List Round) : Prop :=
  member request.payload "messages".str =
    some (.array (systemMessage registry :: messages ++ rounds.flatMap Round.messages))

structure Transcript where
  frames : List Frame
  rounds : List Round
  executed : List Execution

/-- What holds of the transcript of a run in which so many replies asked for these calls. -/
structure Lawful (services : Services) (registry : ToolRegistry) (messages : List Json)
    (turns : Nat) (requested : List Json) (sent : List LlmRequest) (transcript : Transcript) :
    Prop where
  /-- There is one request for each reply: no tool that fails ends the run. -/
  continued : sent.length = turns
  /-- Each request has the rounds of all replies before it. -/
  carried : ∀ (k : Nat) (request : LlmRequest), sent[k]? = some request →
    k ≤ transcript.rounds.length ∧ Carries registry messages request (transcript.rounds.take k)
  rounds : ∀ (k : Nat) (round : Round), transcript.rounds[k]? = some round →
    assistantMessage (services.reply k) = .ok round.message ∧ round.Complete
  /-- All the calls are executed. -/
  executed : transcript.executed.map Execution.call = requested
  outcomes : ∀ (k : Nat) (execution : Execution), transcript.executed[k]? = some execution →
    dispatch services k (toolName execution.call) (toolArgs services execution.call) =
      some execution.outcome
  /-- The frames of the tools are those of the calls, one call after the other. -/
  paired : transcript.frames.filter Frame.ofTool = transcript.executed.flatMap Execution.frames
  /-- The last frame is the only one of its kind, and its result is the last one. -/
  ended : ∃ before last, transcript.frames = before ++ [last] ∧ last.terminal = true ∧
    (∀ frame ∈ before, frame.terminal = false) ∧
    (last.type = "done".str → member last.toValue "result".str =
      some ((lastReplayed transcript.executed).getD .null))

/-- What is promised of a run. -/
def Law (services : Services) (registry : ToolRegistry) (cfg : AgentConfig)
    (messages : List Json) (requestMaxIter : Option Nat) (outcome : Outcome) : Prop :=
  outcome.sent.length ≤ maxIter cfg requestMaxIter ∧
  ∃ transcript : Transcript, outcome.frames = some transcript.frames ∧
    Lawful services registry messages (turnsFrom services (maxIter cfg requestMaxIter) 0)
      (requestedFrom services (maxIter cfg requestMaxIter) 0) outcome.sent transcript

/-- A call whose plan comes to a query on which the guard panics. -/
def Panics (services : Services) (turn : Nat) (call : Json) : Prop :=
  toolName call = "replay_retrieval_plan".str ∧
  ∃ plan format before query after,
    parseArgs (services.state turn) (toolArgs services call) = .ok (plan, format) ∧
    plan.plan = before ++ .sql query :: after ∧
    (∀ op ∈ before, Passes (services.state turn) (services.content turn) op) ∧
    isSafeSelect (services.state turn).blobs.crates.unicode query = none

/-! ## Calls that do not come back -/

section
variable {state : RetrievalState} {content : Content} {format : OutputFormat} {moment : Moment}

/-- A step panics in its guard alone. -/
theorem fetchOp_none {op : RetrievalOp} : fetchOp state content op = none ↔
    ∃ query, op = .sql query ∧ isSafeSelect state.blobs.crates.unicode query = none := by
  cases op with
  | sql query =>
    simp only [fetchOp, RetrievalOp.sql.injEq, exists_eq_left']
    split <;> simp_all
  | storageGet bucket key => simp [fetchOp]

/-- Steps panic when one of them does and those before it pass. -/
theorem replayOps_none {ops : List RetrievalOp} {progress : Replayer.Progress} :
    replayOps state content format moment ops progress = none ↔
      ∃ before query after, ops = before ++ .sql query :: after ∧
        (∀ op ∈ before, Passes state content op) ∧
        isSafeSelect state.blobs.crates.unicode query = none := by
  constructor
  · intro panicked
    induction ops generalizing progress with
    | nil => simp [replayOps] at panicked
    | cons op rest inductionHypothesis =>
      rw [replayOps] at panicked
      split at panicked
      · rename_i first
        obtain ⟨query, rfl, guard⟩ := fetchOp_none.mp first
        exact ⟨[], query, rest, rfl, by simp, guard⟩
      · simp at panicked
      · rename_i fetched first
        obtain ⟨before, query, after, rfl, pass, guard⟩ := inductionHypothesis panicked
        refine ⟨op :: before, query, after, rfl, ?_, guard⟩
        exact List.forall_mem_cons.mpr ⟨(passes_iff op).mpr ⟨fetched, first⟩, pass⟩
  · rintro ⟨before, query, after, rfl, pass, guard⟩
    obtain ⟨reached, through⟩ := replayOps_passed moment format progress pass
    rw [through content (fun _ _ => rfl), replayOps, fetchOp_none.mpr ⟨query, rfl, guard⟩]

/-- A plan panics as its steps do. -/
theorem replay_none {plan : RetrievalPlan} : replay state content plan format moment = none ↔
    ∃ before query after, plan.plan = before ++ .sql query :: after ∧
      (∀ op ∈ before, Passes state content op) ∧
      isSafeSelect state.blobs.crates.unicode query = none := by
  rw [← @replayOps_none state content format moment plan.plan ⟨[], Materializer.new format, 0⟩,
    replay]
  split_ifs with empty
  · rw [List.isEmpty_iff.mp empty]
    simp [replayOps]
  · split <;> simp_all

end

variable {services : Services} {registry : ToolRegistry} {messages : List Json}

/-- A call does not come back exactly when it panics in the guard. -/
theorem dispatch_none {turn : Nat} {call : Json} :
    dispatch services turn (toolName call) (toolArgs services call) = none ↔
      Panics services turn call := by
  rw [dispatch, Panics]
  split_ifs with cards replays
  · simp [cards, show "get_schema_cards".str ≠ "replay_retrieval_plan".str by decide]
  · simp only [replays, true_and, replayRetrievalPlan, Option.map_eq_none_iff]
    cases parsed : parseArgs (services.state turn) (toolArgs services call) with
    | error error => simp [replayParsed]
    | ok given =>
      obtain ⟨plan, format⟩ := given
      simp only [replayParsed, replay_none, Except.ok.injEq, Prod.mk.injEq]
      constructor
      · rintro ⟨before, query, after, reached⟩
        exact ⟨plan, format, before, query, after, ⟨rfl, rfl⟩, reached⟩
      · rintro ⟨_, _, before, query, after, ⟨rfl, rfl⟩, reached⟩
        exact ⟨before, query, after, reached⟩
  · simp [replays]

/-! ## Frames and messages of a call -/

/-- The frames of a call are frames of tools, and end nothing. -/
theorem frames_kind {execution : Execution} {frame : Frame} (mem : frame ∈ execution.frames) :
    frame.ofTool = true ∧ frame.terminal = false := by
  obtain ⟨call, outcome⟩ := execution
  cases outcome <;>
    · simp only [Execution.frames, callFrames, List.mem_cons, List.not_mem_nil, or_false] at mem
      obtain rfl | rfl := mem <;> exact ⟨rfl, rfl⟩

theorem toolMessage_role (call : Json) (outcome : ApiResult Json) :
    member (toolMessage services call outcome) "role".str = some (.string "tool".str) := by
  cases outcome <;> rfl

theorem toolMessage_id (call : Json) (outcome : ApiResult Json) :
    member (toolMessage services call outcome) "tool_call_id".str =
      some (.string (callId call)) := by
  cases outcome <;> rfl

/-- A request carries the messages it is made from. -/
theorem request_messages (session : Session) (all : List Json) :
    member (request session all).payload "messages".str = some (.array all) := rfl

/-- The loop keeps the last value of a replayed plan. -/
theorem lastReplayed_append (executed : List Execution) (execution : Execution) :
    lastReplayed (executed ++ [execution]) =
      tracked execution.call execution.outcome (lastReplayed executed) := by
  obtain ⟨call, outcome⟩ := execution
  rw [lastReplayed, List.filterMap_append, List.getLast?_append]
  cases outcome with
  | ok value =>
    by_cases replays : toolName call = "replay_retrieval_plan".str
    · simp [Execution.replayed, tracked, replays, Except.toOption]
    · simp [Execution.replayed, tracked, replays, lastReplayed]
  | error error => simp [Execution.replayed, tracked, Except.toOption, lastReplayed]

/-! ## The calls of one message -/

/-- The calls, numbered from a call on, come to the outcomes given with them. -/
def Answered (services : Services) (start : Nat) (executed : List Execution) : Prop :=
  ∀ entry ∈ executed.zipIdx start,
    dispatch services entry.2 (toolName entry.1.call) (toolArgs services entry.1.call) =
      some entry.1.outcome

/-- The calls, numbered from a call on, all come back. -/
def Survives (services : Services) (start : Nat) (calls : List Json) : Prop :=
  ∀ entry ∈ calls.zipIdx start,
    dispatch services entry.2 (toolName entry.1) (toolArgs services entry.1) ≠ none

theorem answered_append {start : Nat} {first second : List Execution} :
    Answered services start (first ++ second) ↔
      Answered services start first ∧ Answered services (start + first.length) second := by
  rw [Answered, List.zipIdx_append, List.forall_mem_append, Answered, Answered]

theorem survives_append {start : Nat} {first second : List Json} :
    Survives services start (first ++ second) ↔
      Survives services start first ∧ Survives services (start + first.length) second := by
  rw [Survives, List.zipIdx_append, List.forall_mem_append, Survives, Survives]

/-- A call that comes back leaves its message, its frames and its value. -/
theorem runCall_some {progress : Progress} {call : Json} {outcome : ApiResult Json}
    (answered : dispatch services progress.dispatched (toolName call) (toolArgs services call) =
      some outcome) :
    runCall services progress call = some { progress with
      messages := progress.messages ++ [toolMessage services call outcome]
      frames := progress.frames ++ callFrames call outcome
      lastRetrievalResult := tracked call outcome progress.lastRetrievalResult
      dispatched := progress.dispatched + 1 } := by
  rw [runCall, answered, Option.map_some]

/-- Calls that come back are all executed, one after the other. -/
theorem runCalls_some {calls : List Json} {progress : Progress}
    (survives : Survives services progress.dispatched calls) :
    ∃ executed : List Execution, executed.map Execution.call = calls ∧
      Answered services progress.dispatched executed ∧
      runCalls services calls progress = some { progress with
        messages := progress.messages ++
          executed.map fun execution => toolMessage services execution.call execution.outcome
        frames := progress.frames ++ executed.flatMap Execution.frames
        lastRetrievalResult := executed.foldl
          (fun last execution => tracked execution.call execution.outcome last)
          progress.lastRetrievalResult
        dispatched := progress.dispatched + executed.length } := by
  induction calls generalizing progress with
  | nil => exact ⟨[], rfl, by simp [Answered], by simp [runCalls]⟩
  | cons call calls inductionHypothesis =>
    rw [Survives, List.zipIdx_cons, List.forall_mem_cons] at survives
    obtain ⟨outcome, answered⟩ := Option.ne_none_iff_exists'.mp survives.1
    obtain ⟨executed, called, rest, ran⟩ := @inductionHypothesis { progress with
      messages := progress.messages ++ [toolMessage services call outcome]
      frames := progress.frames ++ callFrames call outcome
      lastRetrievalResult := tracked call outcome progress.lastRetrievalResult
      dispatched := progress.dispatched + 1 } survives.2
    refine ⟨⟨call, outcome⟩ :: executed, by simp [called], ?_, ?_⟩
    · rw [Answered, List.zipIdx_cons, List.forall_mem_cons]
      exact ⟨answered, rest⟩
    · rw [runCalls, runCall_some answered, Option.bind_some, ran]
      simp [Execution.frames, Nat.add_assoc, Nat.add_comm 1]

theorem lastReplayed_foldl (executed more : List Execution) :
    lastReplayed (executed ++ more) =
      more.foldl (fun last execution => tracked execution.call execution.outcome last)
        (lastReplayed executed) := by
  induction more generalizing executed with
  | nil => rw [List.append_nil, List.foldl_nil]
  | cons execution more inductionHypothesis =>
    rw [List.append_cons, inductionHypothesis, lastReplayed_append, List.foldl_cons]

/-! ## Runs -/

/-- An iteration whose calls all come back goes on with what they leave. -/
theorem iterate_calls {session : Session} {iteration : Nat} {progress after : Progress}
    {message : Json} (replied : assistantMessage (services.reply iteration) = .ok message)
    (called : toolCalls message ≠ [])
    (ran : runCalls services (toolCalls message)
      { progress with
        messages := progress.messages ++ [message]
        frames := progress.frames ++ [.iteration (iteration + 1) session.maxIter]
        sent := progress.sent ++ [request session progress.messages] } = some after) :
    iterate services session iteration progress = .ok after := by
  rw [iterate, replied]
  simp only [List.isEmpty_iff, if_neg called, ran]

theorem iterate_error {session : Session} {iteration : Nat} {progress : Progress} {text : Str}
    (replied : assistantMessage (services.reply iteration) = .error text) :
    iterate services session iteration progress =
      .error ⟨progress.sent ++ [request session progress.messages], some (progress.frames ++
        [.iteration (iteration + 1) session.maxIter] ++ [.error text])⟩ := by
  rw [iterate, replied]

theorem iterate_done {session : Session} {iteration : Nat} {progress : Progress} {message : Json}
    (replied : assistantMessage (services.reply iteration) = .ok message)
    (answered : toolCalls message = []) :
    iterate services session iteration progress =
      .error ⟨progress.sent ++ [request session progress.messages], some (progress.frames ++
        [.iteration (iteration + 1) session.maxIter] ++
        [.done message progress.lastRetrievalResult])⟩ := by
  rw [iterate, replied]
  simp only [List.isEmpty_iff, if_pos answered]

/-- A run that gets to an iteration, with the rounds and the calls behind it. -/
structure Reached (services : Services) (registry : ToolRegistry) (messages : List Json)
    (iteration : Nat) (progress : Progress) (rounds : List Round) (executed : List Execution) :
    Prop where
  built : progress.messages =
    systemMessage registry :: messages ++ rounds.flatMap Round.messages
  sent : progress.sent.length = iteration
  length : rounds.length = iteration
  carried : ∀ (k : Nat) (request : LlmRequest), progress.sent[k]? = some request →
    k ≤ rounds.length ∧ Carries registry messages request (rounds.take k)
  rounds : ∀ (k : Nat) (round : Round), rounds[k]? = some round →
    assistantMessage (services.reply k) = .ok round.message ∧ round.Complete
  dispatched : progress.dispatched = executed.length
  answered : Answered services 0 executed
  paired : progress.frames.filter Frame.ofTool = executed.flatMap Execution.frames
  quiet : ∀ frame ∈ progress.frames, frame.terminal = false
  last : progress.lastRetrievalResult = lastReplayed executed

namespace Reached

variable {session : Session} {iteration : Nat} {progress : Progress} {rounds : List Round}
  {executed : List Execution}

theorem opened : Reached services registry messages 0 (opened registry messages) [] [] where
  built := by simp [Agent.opened]
  sent := rfl
  length := rfl
  carried := by simp [Agent.opened]
  rounds := by simp
  dispatched := rfl
  answered := by simp [Answered]
  paired := rfl
  quiet := by simp [Agent.opened]
  last := rfl

/-- The next request carries all rounds. -/
theorem asked (reached : Reached services registry messages iteration progress rounds executed)
    (k : Nat) (sent : LlmRequest)
    (asked : (progress.sent ++ [request session progress.messages])[k]? = some sent) :
    k ≤ rounds.length ∧ Carries registry messages sent (rounds.take k) := by
  by_cases earlier : k < progress.sent.length
  · rw [List.getElem?_append_left earlier] at asked
    exact reached.carried k sent asked
  · obtain ⟨rfl, rfl⟩ : k = progress.sent.length ∧ request session progress.messages = sent := by
      rw [List.getElem?_append_right (Nat.not_lt.mp earlier)] at asked
      obtain ⟨within, rfl⟩ := List.getElem?_eq_some_iff.mp asked
      rw [List.length_singleton] at within
      exact ⟨by omega, by simp⟩
    have all : progress.sent.length = rounds.length := reached.sent.trans reached.length.symm
    rw [all, List.take_length, Carries, request_messages, reached.built]
    exact ⟨le_rfl, rfl⟩

/-- A round leads to the next iteration. -/
theorem next (reached : Reached services registry messages iteration progress rounds executed)
    {message : Json} (replied : assistantMessage (services.reply iteration) = .ok message)
    (called : toolCalls message ≠ [])
    (survives : Survives services executed.length (toolCalls message)) :
    ∃ more after round, iterate services session iteration progress = .ok after ∧
      more.map Execution.call = toolCalls message ∧
      Reached services registry messages (iteration + 1) after (rounds ++ [round])
        (executed ++ more) := by
  obtain ⟨more, calls, answered, ran⟩ := @runCalls_some services (toolCalls message)
    { progress with
      messages := progress.messages ++ [message]
      frames := progress.frames ++ [.iteration (iteration + 1) session.maxIter]
      sent := progress.sent ++ [request session progress.messages] }
    (reached.dispatched ▸ survives)
  refine ⟨more, _, ⟨message, more.map fun execution =>
    toolMessage services execution.call execution.outcome⟩,
    iterate_calls replied called ran, calls, ?_⟩
  · constructor
    · simp [reached.built, Round.messages]
    · simp [reached.sent]
    · simp [reached.length]
    · intro k sent asked'
      obtain ⟨within, carries⟩ := reached.asked k sent asked'
      rw [List.take_append_of_le_length within, List.length_append]
      exact ⟨by omega, carries⟩
    · intro k round there
      by_cases earlier : k < rounds.length
      · rw [List.getElem?_append_left earlier] at there
        exact reached.rounds k round there
      · obtain ⟨within, rfl⟩ := List.getElem?_eq_some_iff.mp there
        rw [List.length_append, List.length_singleton] at within
        obtain rfl : k = iteration := by
          have := reached.length
          omega
        rw [List.getElem_append_right (Nat.not_lt.mp earlier)]
        refine ⟨by simpa using replied, ?_⟩
        rw [List.getElem_singleton]
        refine ⟨called, ?_, ?_⟩
        · simp [toolMessage_role]
        · simp [toolMessage_id, ← calls]
    · simp [reached.dispatched]
    · rw [answered_append, Nat.zero_add, ← reached.dispatched]
      exact ⟨reached.answered, answered⟩
    · have tools : (more.flatMap Execution.frames).filter Frame.ofTool =
          more.flatMap Execution.frames :=
        List.filter_eq_self.mpr fun frame mem =>
          (frames_kind (List.mem_flatMap.mp mem).choose_spec.2).1
      have opening : ([.iteration (iteration + 1) session.maxIter] : List Frame).filter
          Frame.ofTool = [] := rfl
      simp only [List.filter_append, reached.paired, List.flatMap_append, tools, opening,
        List.append_nil]
    · intro frame mem
      rw [List.mem_append, List.mem_append, List.mem_singleton] at mem
      obtain (earlier | rfl) | tool := mem
      · exact reached.quiet frame earlier
      · rfl
      · obtain ⟨execution, -, there⟩ := List.mem_flatMap.mp tool
        exact (frames_kind there).2
    · rw [lastReplayed_foldl, ← reached.last]

/-- A run that ends here is lawful, with the requests that carry its rounds. -/
theorem ends (reached : Reached services registry messages iteration progress rounds executed)
    {between : List Frame} {last : Frame} {sent : List LlmRequest}
    (carried : ∀ (k : Nat) (request : LlmRequest), sent[k]? = some request →
      k ≤ rounds.length ∧ Carries registry messages request (rounds.take k))
    (quiet : ∀ frame ∈ between, frame.ofTool = false ∧ frame.terminal = false)
    (terminal : last.ofTool = false ∧ last.terminal = true)
    (result : last.type = "done".str → member last.toValue "result".str =
      some (progress.lastRetrievalResult.getD .null)) :
    Lawful services registry messages sent.length (executed.map Execution.call) sent
      ⟨progress.frames ++ between ++ [last], rounds, executed⟩ where
  continued := rfl
  carried := carried
  rounds := reached.rounds
  executed := rfl
  outcomes := fun k execution there =>
    reached.answered (execution, k) (List.mk_mem_zipIdx_iff_getElem?.mpr there)
  paired := by
    have none' : between.filter Frame.ofTool = [] :=
      List.filter_eq_nil_iff.mpr fun frame mem => by simp [(quiet frame mem).1]
    rw [List.filter_append, List.filter_append, reached.paired, none', List.append_nil,
      List.filter_singleton, terminal.1]
    exact List.append_nil _
  ended := by
    refine ⟨progress.frames ++ between, last, rfl, terminal.2, ?_, ?_⟩
    · intro frame mem
      obtain earlier | new := List.mem_append.mp mem
      · exact reached.quiet frame earlier
      · exact (quiet frame new).2
    · intro done
      rw [result done, reached.last]

/-- A run whose iterations are used up. -/
theorem ends_truncated
    (reached : Reached services registry messages iteration progress rounds executed) :
    ∃ transcript : Transcript, (truncated session progress).frames = some transcript.frames ∧
      Lawful services registry messages iteration (executed.map Execution.call)
        (truncated session progress).sent transcript := by
  have lawful := @reached.ends _ _ _ _ _ _ _ [] (closing session progress) progress.sent
    reached.carried (by simp) ⟨rfl, rfl⟩ fun _ => rfl
  rw [reached.sent] at lawful
  exact ⟨_, by rw [List.append_nil]; rfl, lawful⟩

/-- A run whose last reply makes no calls. -/
theorem ends_replied
    (reached : Reached services registry messages iteration progress rounds executed)
    {last : Frame} (terminal : last.ofTool = false ∧ last.terminal = true)
    (result : last.type = "done".str → member last.toValue "result".str =
      some (progress.lastRetrievalResult.getD .null)) :
    Lawful services registry messages (iteration + 1) (executed.map Execution.call)
      (progress.sent ++ [request session progress.messages])
      ⟨progress.frames ++ [.iteration (iteration + 1) session.maxIter] ++ [last], rounds,
        executed⟩ := by
  have opening : ∀ frame ∈ ([.iteration (iteration + 1) session.maxIter] : List Frame),
      frame.ofTool = false ∧ frame.terminal = false := by
    intro frame mem
    obtain rfl := List.mem_singleton.mp mem
    exact ⟨rfl, rfl⟩
  have lawful := reached.ends (@asked _ _ _ session _ _ _ _ reached) opening terminal result
  rwa [List.length_append, List.length_singleton, reached.sent] at lawful

end Reached

/-- A run whose calls all come back is lawful. -/
theorem iterations_lawful {session : Session} (left : Nat) {iteration : Nat} {progress : Progress}
    {rounds : List Round} {executed : List Execution}
    (reached : Reached services registry messages iteration progress rounds executed)
    (survives : Survives services executed.length (requestedFrom services left iteration)) :
    ∃ transcript : Transcript,
      (iterations services session left iteration progress).frames = some transcript.frames ∧
      Lawful services registry messages (iteration + turnsFrom services left iteration)
        (executed.map Execution.call ++ requestedFrom services left iteration)
        (iterations services session left iteration progress).sent transcript := by
  induction left generalizing iteration progress rounds executed with
  | zero =>
    rw [iterations, requestedFrom, turnsFrom, List.append_nil, Nat.add_zero]
    exact reached.ends_truncated
  | succ left inductionHypothesis =>
    rw [requestedFrom] at survives
    rw [iterations, requestedFrom, turnsFrom]
    cases replied : assistantMessage (services.reply iteration) with
    | error text =>
      rw [iterate_error replied, List.append_nil]
      exact ⟨_, rfl, reached.ends_replied ⟨rfl, rfl⟩ nofun⟩
    | ok message =>
      by_cases called : toolCalls message = []
      · rw [iterate_done replied called]
        simp only [called, List.isEmpty_nil, if_true, List.append_nil]
        exact ⟨_, rfl, reached.ends_replied ⟨rfl, rfl⟩ fun _ => rfl⟩
      · simp only [replied, List.isEmpty_iff, if_neg called] at survives ⊢
        obtain ⟨first, rest⟩ := survives_append.mp survives
        obtain ⟨more, after, round, turned, calls, reached'⟩ :=
          @Reached.next _ _ _ session _ _ _ _ reached _ replied called first
        have length : (executed ++ more).length = executed.length + (toolCalls message).length := by
          rw [List.length_append, ← calls, List.length_map]
        obtain ⟨transcript, frames, lawful⟩ := inductionHypothesis reached' (length ▸ rest)
        rw [turned]
        refine ⟨transcript, frames, ?_⟩
        rw [List.map_append, calls, List.append_assoc] at lawful
        rwa [Nat.add_comm (turnsFrom services left (iteration + 1)), ← Nat.add_assoc]

/-! ## How many requests -/

/-- Calls send nothing to the LLM. -/
theorem runCalls_sent {calls : List Json} {progress after : Progress}
    (ran : runCalls services calls progress = some after) : after.sent = progress.sent := by
  induction calls generalizing progress with
  | nil => exact congrArg Progress.sent (Option.some.inj ran).symm
  | cons call calls inductionHypothesis =>
    obtain ⟨next, first, rest⟩ := Option.bind_eq_some_iff.mp ran
    obtain ⟨outcome, -, rfl⟩ := Option.map_eq_some_iff.mp first
    have kept := inductionHypothesis rest
    exact kept

/-- An iteration sends one request. -/
theorem iterate_sent (session : Session) (iteration : Nat) (progress : Progress) :
    match iterate services session iteration progress with
    | .error outcome => outcome.sent.length = progress.sent.length + 1
    | .ok after => after.sent.length = progress.sent.length + 1 := by
  cases replied : assistantMessage (services.reply iteration) with
  | error text => simp [iterate_error replied]
  | ok message =>
    by_cases called : toolCalls message = []
    · simp [iterate_done replied called]
    · rw [iterate, replied]
      simp only [List.isEmpty_iff, if_neg called]
      generalize ran : runCalls services (toolCalls message) _ = result
      cases result with
      | none => simp
      | some after => simp [runCalls_sent ran]

theorem iterations_sent (session : Session) (left iteration : Nat) (progress : Progress) :
    (iterations services session left iteration progress).sent.length ≤
      progress.sent.length + left := by
  induction left generalizing iteration progress with
  | zero => exact le_rfl
  | succ left inductionHypothesis =>
    have sent := @iterate_sent services session iteration progress
    rw [iterations]
    split
    · rename_i outcome ended
      rw [ended] at sent
      dsimp only at sent
      omega
    · rename_i after turned
      rw [turned] at sent
      have rest := inductionHypothesis (iteration + 1) after
      dsimp only at sent
      omega

/-! ## The law -/

/-- The law holds of a run exactly when none of the calls that its replies ask for panics in
the guard. -/
theorem lawful_iff (services : Services) (registry : ToolRegistry) (cfg : AgentConfig)
    (messages : List Json) (requestMaxIter : Option Nat) (modelOverride : Option Str) :
    Law services registry cfg messages requestMaxIter
        (runLoop services registry cfg messages requestMaxIter modelOverride) ↔
      ∀ (k : Nat) (call : Json),
        (requestedFrom services (maxIter cfg requestMaxIter) 0)[k]? = some call →
        ¬ Panics services k call := by
  constructor
  · rintro ⟨-, transcript, -, lawful⟩ k call there panics
    rw [← lawful.executed, List.getElem?_map, Option.map_eq_some_iff] at there
    obtain ⟨execution, there, rfl⟩ := there
    have answered := lawful.outcomes k execution there
    rw [dispatch_none.mpr panics] at answered
    cases answered
  · intro safe
    constructor
    · have bound := @iterations_sent services
        (session services.settings registry cfg requestMaxIter modelOverride)
        (maxIter cfg requestMaxIter) 0 (opened registry messages)
      rwa [show (opened registry messages).sent.length = 0 from rfl, Nat.zero_add] at bound
    · have survives : Survives services 0
          (requestedFrom services (maxIter cfg requestMaxIter) 0) := by
        rintro ⟨call, k⟩ there panicked
        exact safe k call (List.mk_mem_zipIdx_iff_getElem?.mp there) (dispatch_none.mp panicked)
      obtain ⟨transcript, frames, lawful⟩ := @iterations_lawful _ registry messages
        (session services.settings registry cfg requestMaxIter modelOverride)
        (maxIter cfg requestMaxIter) _ _ _ _ Reached.opened survives
      rw [Nat.zero_add] at lawful
      exact ⟨transcript, frames, lawful⟩

/-- A reply with one message. -/
def replyWith (message : Json) : Reply :=
  .response 200 [] (.ok (.object [("choices".str, .array [.object [("message".str, message)]])]))

/-- An LLM that replays one query and then is done. -/
def queries (query : Str) : Services where
  settings := ⟨"http://llm:8000".str, [], []⟩
  jsonText := fun value => (Text.fromUtf8 (Crates.plain.toVec value)).getD []
  parseMap := fun _ => none
  reply := fun turn =>
    if turn = 0 then
      replyWith (.object [("role".str, .string "assistant".str),
        ("tool_calls".str, .array [.object [("id".str, .string "call_1".str),
          ("function".str, .object [("name".str, .string "replay_retrieval_plan".str),
            ("arguments".str, .object [("plan".str, .object [("plan".str, .array [.object [
              ("op".str, .string "sql".str), ("query".str, .string query)]])])])])]])])
    else
      replyWith (.object [("role".str, .string "assistant".str),
        ("content".str, .string "done".str)])
  schemaCards := fun _ _ => .ok .null
  state := fun _ => plainState
  content := fun _ => aliceContent []
  moment := fun _ => ⟨"run".str, fun _ => 0, 0⟩

/-- A query with a letter beyond ASCII takes the run down: it returns no frames. -/
theorem accent_ends_run : ¬ Law (queries "SELECT é FROM t".str) ToolRegistry.new ⟨10⟩
    [.object [("role".str, .string "user".str), ("content".str, .string "names".str)]] none
    (runLoop (queries "SELECT é FROM t".str) ToolRegistry.new ⟨10⟩
      [.object [("role".str, .string "user".str), ("content".str, .string "names".str)]]
      none none) := by
  rintro ⟨-, transcript, frames, -⟩
  have taken : (runLoop (queries "SELECT é FROM t".str) ToolRegistry.new ⟨10⟩
      [.object [("role".str, .string "user".str), ("content".str, .string "names".str)]]
      none none).frames.isNone = true := by
    decide +kernel
  rw [frames] at taken
  cases taken

end LumidPlatform.Agent
