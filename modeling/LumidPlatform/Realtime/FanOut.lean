import Mathlib.Data.UInt
import LumidPlatform.Lib.Rounds
import LumidPlatform.Lib.Tallies
import LumidPlatform.Realtime.Bookkeeping
import LumidPlatform.Realtime.SlowClients
import LumidPlatform.Realtime.Streams

/-!
# Fan-out

The listener takes one published message at a time. It counts the message for its source, notes
who follows the symbol, and then pushes the frame to each of them. A change of a tier label is
announced in the same way by the call that makes it. While they push, connections come and go,
their queues are drained and others push into them. Every client gets what was published for
its symbols while it followed them, once and in order, and nothing else.
-/

namespace LumidPlatform.Realtime.FanOut

open Rounds Tallies Transitions

/-! ## The hub at work -/

/-- `LAG_BUF_CAP`. -/
def lagBufCap : Nat := 1024

/-- The kind and the key of a channel that the listener fans out. -/
def channelOf (kinds : List Str) (channel : Str) : Option (Str × Str) :=
  (Text.splitOnce ':' channel).filter (fun parts => kinds.contains parts.1)

/-- The bucket of a payload with a source, and its lag, if it tells one. -/
def sourceOf (kind : Str) (payload : Json) : Option (Str × Option Int64) := do
  let obj ← payload.asObject?
  let src ← (obj.get "source".str).bind Json.asStr?
  let lag := ((obj.get "latency_ms".str).orElse (fun _ => obj.get "lag_ms".str)).bind Json.asI64?
  some (kind ++ ':' :: src, lag.filter (fun lag => 0 ≤ lag))

/-- A lag is remembered; of more than the buffer holds, the oldest goes. -/
def pushLag (buf : List Int64) (lag : Int64) : List Int64 :=
  (if lagBufCap ≤ buf.length then buf.tail else buf) ++ [lag]

/-- The frame that announces a tier. -/
def tierFrame (symbol tier : Str) : Json :=
  .object [("type".str, .string "tier_change".str), ("symbol".str, .string symbol),
    ("tier".str, .string tier)]

/-- Who pushes a frame; nothing is decided by it. -/
inductive Origin where
  | listener
  | tier
  | other
  deriving DecidableEq

/-- Counters wrap, so sums of them are those of a commutative monoid. -/
instance wrappingSum : AddCommMonoid UInt64 where
  add_assoc := UInt64.add_assoc
  zero_add := UInt64.zero_add
  add_zero := UInt64.add_zero
  add_comm := UInt64.add_comm
  nsmul := nsmulRec

/-- The hub, the queue of each connection, what the listener and the announcing calls have yet
to push, and the statistics. What was pushed is kept beside. -/
structure World where
  queues : Str → SlowClients.Run
  hub : HubState := {}
  current : Round Str Json := ⟨.null, []⟩
  announcements : List (Round Str Json) := []
  lagBuf : HashMap (List Int64) := ∅
  streamCounts : Tally Str UInt64 := fun _ => none
  pushed : Str → List (Origin × Json) := fun _ => []

/-- What can happen next, at the grain of the lock: a call or a message takes it once, and each push
is a step of its own. -/
inductive Label where
  /-- A call that takes the state lock once. -/
  | call (call : Call)
  /-- The listener takes a message whose payload was parsed, if it could be. -/
  | message (channel : Str) (payload : Option Json)
  /-- The listener pushes to the next recipient; a map yields them in any order. -/
  | fan (id : Str) (now : Nat)
  | setTier (symbol tier : Str)
  /-- One of the calls of `set_tier` pushes to its next recipient. -/
  | announce (place : Nat) (id : Str) (now : Nat)
  | clearTierIf (symbol expect : Str)
  /-- Any other frame is pushed: a reply, a replayed tick, a heartbeat, a notice. -/
  | other (id : Str) (frame : Json) (now : Nat)
  | drain (id : Str)

namespace World

variable (w : World)

/-- A frame is put into the queue of a connection, and noted with its origin. -/
def push (origin : Origin) (frame : Json) (id : Str) (now : Nat) : World :=
  { w with
    queues := Function.update w.queues id ((w.queues id).step (.push frame now))
    pushed := Function.update w.pushed id (w.pushed id ++ [(origin, frame)]) }

/-- The counters of a bucket. -/
def count (bucket : Str) (lag : Option Int64) : World :=
  { w with
    lagBuf := match lag with
      | some lag => w.lagBuf.insert bucket (pushLag ((w.lagBuf.lookup bucket).getD []) lag)
      | none => w.lagBuf
    streamCounts := w.streamCounts.add bucket 1 }

/-- `on_payload`, up to its pushes. The tick that it stashes is not needed here. -/
def onPayload (kind key : Str) (payload : Json) : World :=
  let counted := match sourceOf kind payload with
    | some (bucket, lag) => w.count bucket lag
    | none => w
  { counted with current := ⟨dataFrame kind payload, (w.hub.subscribers key).keys⟩ }

/-- The body of the loop of `run_listener`, up to the pushes. -/
def message (kinds : List Str) (channel : Str) (payload : Option Json) : World :=
  match channelOf kinds channel with
  | some (kind, key) =>
    match payload with
    | some payload => w.onPayload kind key payload
    | none => w
  | none => w

/-- `set_tier`, up to its pushes. -/
def setTier (symbol tier : Str) : World :=
  let changed := (w.hub.tierBySymbol.lookup symbol).any (fun prev => prev ≠ tier)
  { w with
    hub := { w.hub with tierBySymbol := w.hub.tierBySymbol.insert symbol tier }
    announcements := w.announcements ++ if changed then
      [⟨tierFrame symbol tier, (w.hub.subscribers symbol).keys⟩] else [] }

/-- `clear_tier_if`. -/
def clearTierIf (symbol expect : Str) : World :=
  if w.hub.tierBySymbol.lookup symbol = some expect then
    { w with hub := { w.hub with tierBySymbol := w.hub.tierBySymbol.erase symbol } }
  else w

end World

/-- What happens at one label. -/
def step (kinds : List Str) (w : World) : Label → Option World
  | .call call => (call.perform w.hub).map (fun performed => { w with hub := performed.1 })
  | .message channel payload =>
    if w.current.left = [] then some (w.message kinds channel payload) else none
  | .fan id now =>
    if id ∈ w.current.left then
      some { w.push .listener w.current.note id now with current := w.current.hand id }
    else none
  | .setTier symbol tier => some (w.setTier symbol tier)
  | .announce place id now =>
    match w.announcements[place]? with
    | some round =>
      if id ∈ round.left then
        some { w.push .tier round.note id now with
          announcements := handAt w.announcements place id }
      else none
    | none => none
  | .clearTierIf symbol expect => some (w.clearTierIf symbol expect)
  | .other id frame now => some (w.push .other frame id now)
  | .drain id =>
    some { w with queues := Function.update w.queues id ((w.queues id).step .drain) }

/-- No connection has been made; a connection will have room for as many frames as it is given. -/
def start (capacity : Str → Nat) : World where
  queues id := SlowClients.run (capacity id) []

/-- The frames that were pushed into a queue by one of those who push. -/
def World.pushedBy (w : World) (origin : Origin) (id : Str) : List Json :=
  ((w.pushed id).filter (fun push => push.1 = origin)).map Prod.snd

/-! ## What the hub is for -/

/-- Who follows what, the tier labels, what each connection should get of either kind, and what
the messages say of their sources. -/
structure Feed where
  follows : Str → Str → Bool := fun _ _ => false
  tier : Str → Option Str := fun _ => none
  data : Str → List Json := fun _ => []
  announced : Str → List Json := fun _ => []
  sources : List (Str × Option Int64) := []

namespace Feed

variable (feed : Feed)

/-- A frame for the followers of a symbol. -/
def post (symbol : Str) (frame : Json) (got : Str → List Json) (id : Str) : List Json :=
  got id ++ if feed.follows id symbol then [frame] else []

/-- What a call or a message adds to the feed. -/
def take (kinds : List Str) : Label → Feed
  | .call (.register _ _) => feed
  | .call (.subscribe conn symbols) =>
    { feed with follows := fun id symbol =>
        feed.follows id symbol || (decide (symbol ∈ symbols) && decide (id = conn.id)) }
  | .call (.unsubscribe conn symbols) =>
    { feed with follows := fun id symbol =>
        feed.follows id symbol && !(decide (symbol ∈ symbols) && decide (id = conn.id)) }
  | .call (.unregister conn _) =>
    { feed with follows := fun id symbol => feed.follows id symbol && decide (id ≠ conn.id) }
  | .message channel payload =>
    match channelOf kinds channel with
    | some (kind, key) =>
      match payload with
      | some payload => { feed with
          data := feed.post key (dataFrame kind payload) feed.data
          sources := feed.sources ++ (sourceOf kind payload).toList }
      | none => feed
    | none => feed
  | .setTier symbol tier =>
    { feed with
      tier := Function.update feed.tier symbol (some tier)
      announced :=
        if (feed.tier symbol).any (fun prev => prev ≠ tier) then
          feed.post symbol (tierFrame symbol tier) feed.announced
        else feed.announced }
  | .clearTierIf symbol expect =>
    if feed.tier symbol = some expect then
      { feed with tier := Function.update feed.tier symbol none }
    else feed
  | .fan _ _ | .announce _ _ _ | .other _ _ _ | .drain _ => feed

end Feed

/-- The feed after some labels. -/
def feedOf (kinds : List Str) (labels : List Label) : Feed :=
  labels.foldl (fun feed label => feed.take kinds label) {}

/-! ## Queues -/

/-- What a client was sent and what waits for it. -/
def inHand (run : SlowClients.Run) : List Json :=
  SlowClients.pushedOf (run.delivered ++ run.connection.queue)

/-- Draining keeps what is in hand: what is queued becomes what was sent. -/
theorem inHand_drain (run : SlowClients.Run) : inHand (run.step .drain) = inHand run := by
  simp [inHand, SlowClients.Run.step, SlowClients.Connection.drain]

/-- A frame that is pushed comes last, and at most the oldest one goes. -/
theorem inHand_push (run : SlowClients.Run) (frame : Json) (now : Nat) :
    ∃ kept, kept.Sublist (inHand run) ∧ inHand (run.step (.push frame now)) = kept ++ [frame] ∧
      (¬run.connection.Full → kept = inHand run) := by
  have shown (queue : List SlowClients.Frame) :
      SlowClients.pushedOf (queue ++ [.pushed frame]) = SlowClients.pushedOf queue ++ [frame] := by
    simp [SlowClients.pushedOf]
  have warned (capacity : Nat) (dropped : UInt64) (queue : List SlowClients.Frame) :
      SlowClients.pushedOf (run.delivered ++ SlowClients.Connection.warn capacity dropped queue) =
        SlowClients.pushedOf (run.delivered ++ queue) := by
    rw [SlowClients.Connection.warn]
    split_ifs
    · simp [SlowClients.pushedOf]
    · rfl
  by_cases full : run.connection.Full
  · refine ⟨SlowClients.pushedOf (run.delivered ++ run.connection.queue.tail), ?_, ?_,
      fun room => absurd full room⟩
    · exact ((List.tail_sublist _).append_left _).filterMap _
    · rw [← shown, inHand, SlowClients.Run.step]
      dsimp only
      rw [SlowClients.Connection.push, if_pos full]
      dsimp only
      split_ifs
      · dsimp only
        rw [warned, List.append_assoc]
      · rw [List.append_assoc]
  · refine ⟨inHand run, List.Sublist.refl _, ?_, fun _ => rfl⟩
    rw [inHand, inHand, ← shown, SlowClients.Run.step]
    dsimp only
    rw [SlowClients.Connection.push, if_neg full, List.append_assoc]

/-- What a client has in hand was pushed, in this order, and where its queue never overflowed it
is all that was pushed. -/
theorem inHand_run (capacity : Nat) (ops : List SlowClients.Op) :
    (inHand (SlowClients.run capacity ops)).Sublist (SlowClients.pushes ops) ∧
      ((SlowClients.run capacity ops).overflows = [] →
        inHand (SlowClients.run capacity ops) = SlowClients.pushes ops) := by
  induction ops using List.reverseRecOn with
  | nil => exact ⟨List.nil_sublist _, fun _ => rfl⟩
  | append_singleton ops op inductionHypothesis =>
    obtain ⟨sublist, all⟩ := inductionHypothesis
    rw [SlowClients.run_concat, SlowClients.pushes_append]
    cases op with
    | drain =>
      rw [inHand_drain, SlowClients.pushes, SlowClients.pushes, List.append_nil]
      exact ⟨sublist, all⟩
    | push frame now =>
      obtain ⟨kept, fewer, same, whole⟩ := inHand_push (SlowClients.run capacity ops) frame now
      rw [same, SlowClients.pushes, SlowClients.pushes]
      refine ⟨(fewer.trans sublist).append_right _, fun none => ?_⟩
      rw [SlowClients.Run.step] at none
      dsimp only at none
      split_ifs at none with full
      · simp at none
      · rw [whole full, all none]

/-! ## Calls -/

/-- Calls leave the tier labels alone. -/
theorem perform_tier {call : Call} {st after : HubState} {demand : List (Str × Bool)}
    (performed : call.perform st = some (after, demand)) :
    after.tierBySymbol = st.tierBySymbol := by
  have subscribed (conn : Connection) (symbols : List Str) (st : HubState) :
      (HubState.subscribe conn symbols st).1.tierBySymbol = st.tierBySymbol := by
    induction symbols generalizing st with
    | nil => rfl
    | cons _ _ inductionHypothesis =>
      have added (symbol : Str) :
          (st.addSubscriber conn symbol).1.tierBySymbol = st.tierBySymbol := by
        rw [HubState.addSubscriber]
        split_ifs <;> rfl
      exact (inductionHypothesis _).trans (added _)
  have unsubscribed (id : Str) (symbols : List Str) (st : HubState) :
      (HubState.unsubscribe id symbols st).1.tierBySymbol = st.tierBySymbol := by
    induction symbols generalizing st with
    | nil => rfl
    | cons _ _ inductionHypothesis =>
      have dropped (symbol : Str) :
          (st.dropSubscriber id symbol).1.tierBySymbol = st.tierBySymbol := by
        rw [HubState.dropSubscriber]
        split
        · rfl
        · dsimp only
          split_ifs <;> rfl
      exact (inductionHypothesis _).trans (dropped _)
  cases call with
  | register conn enforceConcurrent =>
    obtain ⟨rfl, -⟩ := Prod.mk.inj (Option.some.inj performed)
    rfl
  | subscribe conn symbols =>
    obtain ⟨rfl, -⟩ := Prod.mk.inj (Option.some.inj performed)
    exact subscribed conn symbols st
  | unsubscribe conn symbols =>
    obtain ⟨rfl, -⟩ := Prod.mk.inj (Option.some.inj performed)
    exact unsubscribed conn.id symbols st
  | unregister conn order =>
    rw [Call.perform] at performed
    split_ifs at performed
    obtain rfl : (st.unregister conn order).1 = after :=
      congrArg Prod.fst (Option.some.inj performed)
    exact unsubscribed conn.id order _

/-- A call changes who follows what as it should. -/
theorem perform_follows {call : Call} {st after : HubState} {demand : List (Str × Bool)}
    {feed : Feed} {kinds : List Str} (performed : call.perform st = some (after, demand))
    (follows : ∀ id symbol, id ∈ st.subscribers symbol ↔ feed.follows id symbol = true)
    (id symbol : Str) :
    id ∈ after.subscribers symbol ↔ (feed.take kinds (.call call)).follows id symbol = true := by
  cases call with
  | register conn enforceConcurrent =>
    obtain ⟨rfl, -⟩ := Prod.mk.inj (Option.some.inj performed)
    exact follows id symbol
  | subscribe conn symbols =>
    obtain ⟨rfl, -⟩ := Prod.mk.inj (Option.some.inj performed)
    rw [HubState.mem_subscribe, follows]
    simp [Feed.take]
  | unsubscribe conn symbols =>
    obtain ⟨rfl, -⟩ := Prod.mk.inj (Option.some.inj performed)
    rw [HubState.mem_unsubscribe, follows]
    simp [Feed.take, imp_iff_not_or]
  | unregister conn order =>
    rw [Call.perform] at performed
    split_ifs at performed with all
    obtain rfl : (st.unregister conn order).1 = after :=
      congrArg Prod.fst (Option.some.inj performed)
    rw [HubState.mem_unregister (List.isPerm_iff.mp all), follows]
    simp [Feed.take]

/-! ## The hub gives everyone what it should -/

/-- The world is that of the feed: what it owes included, everyone got what they should. -/
structure Agrees (capacity : Str → Nat) (w : World) (feed : Feed) : Prop where
  follows : ∀ id symbol, id ∈ w.hub.subscribers symbol ↔ feed.follows id symbol = true
  tier : ∀ symbol, w.hub.tierBySymbol.lookup symbol = feed.tier symbol
  data : ∀ id, w.pushedBy .listener id ++ w.current.owed id = feed.data id
  announced : ∀ id, (w.pushedBy .tier id ++ owed w.announcements id).Perm (feed.announced id)
  current : w.current.left.Nodup
  announcements : ∀ round ∈ w.announcements, round.left.Nodup
  queues : ∀ id, ∃ ops, w.queues id = SlowClients.run (capacity id) ops ∧
    SlowClients.pushes ops = (w.pushed id).map Prod.snd
  counted : w.streamCounts = tallied (feed.sources.map (fun source => (source.1, 1)))
  lags : ∀ bucket, (w.lagBuf.lookup bucket).getD [] =
    ((feed.sources.filter (fun source => source.1 = bucket)).filterMap Prod.snd).rtake lagBufCap

/-- Before the first step there is nothing to agree on. -/
theorem agrees_start (capacity : Str → Nat) : Agrees capacity (start capacity) {} where
  follows id _ := iff_of_false (AList.notMem_empty id) Bool.false_ne_true
  tier _ := rfl
  data _ := rfl
  announced _ := List.Perm.nil
  current := List.nodup_nil
  announcements _ member := nomatch member
  queues _ := ⟨[], rfl, rfl⟩
  counted := rfl
  lags _ := (List.rtake_nil lagBufCap).symm

variable {capacity : Str → Nat} {kinds : List Str} {w next : World} {feed : Feed}

/-- A push adds its frame for one connection and one origin. -/
theorem pushedBy_push (w : World) (origin whose : Origin) (frame : Json) (id other : Str)
    (now : Nat) : (w.push origin frame id now).pushedBy whose other =
      w.pushedBy whose other ++ if other = id ∧ origin = whose then [frame] else [] := by
  rw [World.pushedBy, World.push, World.pushedBy]
  dsimp only
  by_cases same : other = id
  · subst same
    rw [Function.update_self, List.filter_append, List.map_append]
    by_cases own : origin = whose
    · simp [own]
    · simp [own]
  · rw [Function.update_of_ne same, if_neg (fun both => same both.1), List.append_nil]

/-- Operations on a queue, one of which was just performed. -/
theorem queues_update {id : Str} {op : SlowClients.Op} {pushed : List (Origin × Json)}
    (agrees : Agrees capacity w feed)
    (shown : (w.pushed id).map Prod.snd ++ SlowClients.pushes [op] = pushed.map Prod.snd)
    (other : Str) :
    ∃ ops, Function.update w.queues id ((w.queues id).step op) other =
        SlowClients.run (capacity other) ops ∧
      SlowClients.pushes ops = (Function.update w.pushed id pushed other).map Prod.snd := by
  by_cases same : other = id
  · subst same
    obtain ⟨ops, queue, pushes⟩ := agrees.queues other
    refine ⟨ops ++ [op], ?_, ?_⟩
    · rw [Function.update_self, SlowClients.run_concat, queue]
    · rw [Function.update_self, SlowClients.pushes_append, pushes, shown]
  · rw [Function.update_of_ne same, Function.update_of_ne same]
    exact agrees.queues other

/-- A push is one more operation on a queue. -/
theorem Agrees.queues_push (agrees : Agrees capacity w feed) (origin : Origin) (frame : Json)
    (id : Str) (now : Nat) (other : Str) :
    ∃ ops, (w.push origin frame id now).queues other = SlowClients.run (capacity other) ops ∧
      SlowClients.pushes ops = ((w.push origin frame id now).pushed other).map Prod.snd :=
  queues_update agrees (by rw [List.map_append]; rfl) other

/-- A round that is done owes nobody anything. -/
theorem owed_of_done {round : Round Str Json} (done : round.left = []) (id : Str) :
    round.owed id = [] := by
  rw [Round.owed, done, if_neg List.not_mem_nil]

/-- A round for the followers of a symbol owes what it should. -/
theorem owed_followers (agrees : Agrees capacity w feed) (symbol id : Str) (frame : Json) :
    (⟨frame, (w.hub.subscribers symbol).keys⟩ : Round Str Json).owed id =
      if feed.follows id symbol then [frame] else [] := by
  have same : id ∈ (w.hub.subscribers symbol).keys ↔ feed.follows id symbol = true :=
    (AList.mem_keys.symm).trans (agrees.follows id symbol)
  simp only [Round.owed, same]

/-- The last lags are those of the longer list. -/
theorem pushLag_rtake (lags : List Int64) (lag : Int64) :
    pushLag (lags.rtake lagBufCap) lag = (lags ++ [lag]).rtake lagBufCap := by
  have positive : lagBufCap = 1023 + 1 := rfl
  rw [pushLag, SlowClients.length_rtake, positive]
  split_ifs with full
  · exact (SlowClients.rtake_concat_full (le_min_iff.mp full).1 lag).symm
  · have short : lags.length + 1 ≤ 1023 + 1 := by omega
    rw [SlowClients.rtake_of_length_le (by omega), SlowClients.rtake_of_length_le]
    rw [List.length_append]
    exact short

/-- A counted source is one of the feed. -/
theorem Agrees.count (agrees : Agrees capacity w feed) (bucket : Str) (lag : Option Int64) :
    Agrees capacity (w.count bucket lag)
      { feed with sources := feed.sources ++ [(bucket, lag)] } :=
  { agrees with
    counted := by
      rw [List.map_append, ← record_empty, Tally.record, List.foldl_append]
      refine congrArg (fun tally => Tally.add tally bucket 1) ?_
      exact agrees.counted.trans (record_empty _).symm
    lags := by
      intro other
      have before := agrees.lags other
      rw [List.filter_append, List.filterMap_append]
      cases lag with
      | none =>
        have nothing : ([(bucket, (none : Option Int64))].filter
            (fun source => source.1 = other)).filterMap Prod.snd = [] := by
          rw [List.filter_singleton]
          cases decide (bucket = other) <;> rfl
        rw [nothing, List.append_nil]
        exact before
      | some lag =>
        change ((w.lagBuf.insert bucket _).lookup other).getD [] = _
        by_cases same : other = bucket
        · subst same
          have last : ([(other, some lag)].filter
              (fun source => source.1 = other)).filterMap Prod.snd = [lag] := by simp
          rw [AList.lookup_insert, Option.getD_some, before, last, pushLag_rtake]
        · have nothing : ([(bucket, some lag)].filter
              (fun source => source.1 = other)).filterMap Prod.snd = [] := by
            simp [Ne.symm same]
          rw [AList.lookup_insert_ne same, before, nothing, List.append_nil] }

/-- A payload is owed to those who follow its key at this moment. -/
theorem Agrees.onPayload (agrees : Agrees capacity w feed) (done : w.current.left = [])
    (kind key : Str) (payload : Json) :
    Agrees capacity (w.onPayload kind key payload)
      { feed with
        data := feed.post key (dataFrame kind payload) feed.data
        sources := feed.sources ++ (sourceOf kind payload).toList } := by
  have posted (id : Str) : w.pushedBy .listener id ++
      (⟨dataFrame kind payload, (w.hub.subscribers key).keys⟩ : Round Str Json).owed id =
        feed.post key (dataFrame kind payload) feed.data id := by
    rw [owed_followers agrees, Feed.post, ← agrees.data, owed_of_done done, List.append_nil]
  have distinct : (w.hub.subscribers key).keys.Nodup := AList.keys_nodup _
  rw [World.onPayload]
  cases source : sourceOf kind payload with
  | none =>
    rw [Option.toList_none, List.append_nil]
    exact { agrees with data := posted, current := distinct }
  | some said =>
    obtain ⟨bucket, lag⟩ := said
    exact { agrees.count bucket lag with data := posted, current := distinct }

/-- So is that of a message, if it is for a known channel and was parsed. -/
theorem Agrees.message (agrees : Agrees capacity w feed) (done : w.current.left = [])
    (channel : Str) (payload : Option Json) :
    Agrees capacity (w.message kinds channel payload)
      (feed.take kinds (.message channel payload)) := by
  rw [World.message, Feed.take]
  cases channelOf kinds channel with
  | none => exact agrees
  | some parts =>
    cases payload with
    | none => exact agrees
    | some payload => exact agrees.onPayload done parts.1 parts.2 payload

/-- A push of the listener pays what it owes. -/
theorem Agrees.fan (agrees : Agrees capacity w feed) {id : Str} (now : Nat)
    (pending : id ∈ w.current.left) :
    Agrees capacity { w.push .listener w.current.note id now with current := w.current.hand id }
      feed :=
  { agrees with
    data := by
      intro other
      have pushed := pushedBy_push w .listener .listener w.current.note id other now
      refine Eq.trans ?_ (agrees.data other)
      refine (congrArg (· ++ (w.current.hand id).owed other) pushed).trans ?_
      by_cases same : other = id
      · subst same
        rw [if_pos ⟨rfl, rfl⟩, Round.owed_hand_self agrees.current, List.append_nil, Round.owed,
          if_pos pending]
      · rw [if_neg (fun both => same both.1), List.append_nil, Round.owed_hand_of_ne same]
    announced := by
      intro other
      have pushed := pushedBy_push w .listener .tier w.current.note id other now
      rw [if_neg (by simp), List.append_nil] at pushed
      exact (List.Perm.of_eq (congrArg (· ++ owed w.announcements other) pushed)).trans
        (agrees.announced other)
    current := Round.nodup_hand agrees.current
    queues := agrees.queues_push _ _ _ _ }

/-- A changed tier is owed to those who follow the symbol at this moment. -/
theorem Agrees.setTier (agrees : Agrees capacity w feed) (symbol tier : Str) :
    Agrees capacity (w.setTier symbol tier) (feed.take kinds (.setTier symbol tier)) := by
  have told : ((w.hub.tierBySymbol.lookup symbol).any (fun prev => prev ≠ tier)) =
      (feed.tier symbol).any (fun prev => prev ≠ tier) := by rw [agrees.tier]
  have label (other : Str) : (w.hub.tierBySymbol.insert symbol tier).lookup other =
      Function.update feed.tier symbol (some tier) other := by
    by_cases same : other = symbol
    · rw [same, AList.lookup_insert, Function.update_self]
    · rw [AList.lookup_insert_ne same, Function.update_of_ne same, agrees.tier]
  rw [World.setTier, told, Feed.take]
  by_cases changed : (feed.tier symbol).any (fun prev => prev ≠ tier) = true
  · rw [if_pos changed, if_pos changed]
    exact { agrees with
      tier := label
      announced := fun id => by
        rw [owed_concat, owed_followers agrees, ← List.append_assoc]
        exact (agrees.announced id).append_right _
      announcements := fun round member => by
        rcases List.mem_append.mp member with old | new
        · exact agrees.announcements round old
        · obtain rfl := List.mem_singleton.mp new
          exact AList.keys_nodup _ }
  · rw [if_neg changed, if_neg changed, List.append_nil]
    exact { agrees with tier := label }

/-- A push of an announcing call pays what it owes. -/
theorem Agrees.announce (agrees : Agrees capacity w feed) {place : Nat} {id : Str} (now : Nat)
    {round : Round Str Json} (there : w.announcements[place]? = some round)
    (pending : id ∈ round.left) :
    Agrees capacity { w.push .tier round.note id now with
      announcements := handAt w.announcements place id } feed :=
  { agrees with
    data := by
      intro other
      have pushed := pushedBy_push w .tier .listener round.note id other now
      rw [if_neg (by simp), List.append_nil] at pushed
      exact (congrArg (· ++ w.current.owed other) pushed).trans (agrees.data other)
    announced := by
      intro other
      have pushed := pushedBy_push w .tier .tier round.note id other now
      refine (List.Perm.of_eq (congrArg
        (· ++ owed (handAt w.announcements place id) other) pushed)).trans ?_
      refine List.Perm.trans ?_ (agrees.announced other)
      by_cases same : other = id
      · subst same
        have distinct := agrees.announcements round (List.mem_of_getElem? there)
        rw [if_pos ⟨rfl, rfl⟩, List.append_assoc, List.singleton_append]
        exact (owed_handAt there pending distinct).append_left _
      · rw [if_neg (fun both => same both.1), List.append_nil, owed_handAt_of_ne same]
    announcements := distinct_handAt agrees.announcements
    queues := agrees.queues_push _ _ _ _ }

/-- Every step keeps the world and the feed in agreement. The cases are those of the labels. -/
theorem Agrees.step {label : Label} (agrees : Agrees capacity w feed)
    (stepped : FanOut.step kinds w label = some next) :
    Agrees capacity next (feed.take kinds label) := by
  cases label with
  | call call =>
    obtain ⟨⟨hub, demand⟩, performed, rfl⟩ := Option.map_eq_some_iff.mp stepped
    have others : feed.take kinds (.call call) =
        { feed with follows := (feed.take kinds (.call call)).follows } := by
      cases call <;> rfl
    rw [others]
    exact { agrees with
      follows := perform_follows performed agrees.follows
      tier := fun symbol => by
        rw [← agrees.tier, perform_tier performed] }
  | message channel payload =>
    rw [FanOut.step] at stepped
    split_ifs at stepped with done
    obtain rfl := Option.some.inj stepped
    exact agrees.message done channel payload
  | fan id now =>
    rw [FanOut.step] at stepped
    split_ifs at stepped with pending
    obtain rfl := Option.some.inj stepped
    exact agrees.fan now pending
  | setTier symbol tier =>
    obtain rfl := Option.some.inj stepped
    exact agrees.setTier symbol tier
  | announce place id now =>
    rw [FanOut.step] at stepped
    split at stepped
    · rename_i round there
      split_ifs at stepped with pending
      obtain rfl := Option.some.inj stepped
      exact agrees.announce now there pending
    · cases stepped
  | clearTierIf symbol expect =>
    obtain rfl := Option.some.inj stepped
    rw [World.clearTierIf, Feed.take, agrees.tier]
    split_ifs
    · exact { agrees with
        tier := fun other => by
          by_cases same : other = symbol
          · subst same
            exact (AList.lookup_erase _ _).trans (Function.update_self other none feed.tier).symm
          · exact (AList.lookup_erase_ne same).trans
              ((agrees.tier other).trans (Function.update_of_ne same none feed.tier).symm) }
    · exact agrees
  | other id frame now =>
    obtain rfl := Option.some.inj stepped
    have unheard (whose : Origin) (foreign : Origin.other ≠ whose) (receiver : Str) :
        (w.push .other frame id now).pushedBy whose receiver = w.pushedBy whose receiver := by
      rw [pushedBy_push, if_neg (fun both => foreign both.2), List.append_nil]
    exact { agrees with
      data := fun receiver => by
        rw [unheard .listener (by decide)]
        exact agrees.data receiver
      announced := fun receiver => by
        rw [unheard .tier (by decide)]
        exact agrees.announced receiver
      queues := agrees.queues_push _ _ _ _ }
  | drain id =>
    obtain rfl := Option.some.inj stepped
    have drained := @queues_update _ _ _ id .drain (w.pushed id) agrees (List.append_nil _)
    exact { agrees with
      queues := fun receiver => by
        obtain ⟨ops, queue, pushes⟩ := drained receiver
        rw [Function.update_eq_self] at pushes
        exact ⟨ops, queue, pushes⟩ }

/-- So they agree in every state that a run reaches. -/
theorem agrees_run {labels : List Label}
    (ran : run (FanOut.step kinds) (start capacity) labels = some w) :
    Agrees capacity w (feedOf kinds labels) := by
  have onward (labels : List Label) : ∀ {before : World} {feed : Feed},
      Agrees capacity before feed → run (FanOut.step kinds) before labels = some w →
        Agrees capacity w (labels.foldl (fun feed label => feed.take kinds label) feed) := by
    induction labels with
    | nil =>
      intro before feed agrees ran
      obtain rfl := Option.some.inj ran
      exact agrees
    | cons label rest inductionHypothesis =>
      intro before feed agrees ran
      rw [run_cons] at ran
      obtain ⟨next, stepped, later⟩ := Option.bind_eq_some_iff.mp ran
      exact inductionHypothesis (agrees.step stepped) later
  exact onward labels (agrees_start capacity) ran

/-- However calls, pushes, announcements and drains interleave, a connection is pushed what was
published for the symbols that it followed when the listener took the message, once and in the
order of publication, apart from what the listener has yet to push. It is pushed an announcement
for every change of the label of a symbol that it followed then, and the label is the one set
last. What its client was sent and what waits for it keeps this order, and is all of it where the
queue never overflowed. -/
theorem fan_out_exact {labels : List Label}
    (ran : run (FanOut.step kinds) (start capacity) labels = some w) (id : Str) :
    w.pushedBy .listener id ++ w.current.owed id = (feedOf kinds labels).data id ∧
      (w.pushedBy .tier id ++ owed w.announcements id).Perm ((feedOf kinds labels).announced id) ∧
      (∀ symbol, w.hub.getTier symbol = ((feedOf kinds labels).tier symbol).getD "B".str) ∧
      (inHand (w.queues id)).Sublist ((w.pushed id).map Prod.snd) ∧
      ((w.queues id).overflows = [] → inHand (w.queues id) = (w.pushed id).map Prod.snd) := by
  have agrees := agrees_run ran
  obtain ⟨ops, queue, pushes⟩ := agrees.queues id
  obtain ⟨sublist, all⟩ := inHand_run (capacity id) ops
  refine ⟨agrees.data id, agrees.announced id, fun symbol => ?_, ?_, fun none => ?_⟩
  · rw [HubState.getTier, agrees.tier]
  · rw [queue, ← pushes]
    exact sublist
  · rw [queue] at none
    rw [queue, all none, pushes]

/-- As many ones as there are sources add up to their number. -/
theorem total_ones (sources : List (Str × Option Int64)) (bucket : Str) :
    total (sources.map (fun source => (source.1, (1 : UInt64)))) bucket =
      UInt64.ofNat (sources.filter (fun source => source.1 = bucket)).length := by
  induction sources with
  | nil => rfl
  | cons source rest inductionHypothesis =>
    rw [List.map_cons, total_cons, inductionHypothesis, List.filter_cons]
    by_cases same : source.1 = bucket
    · rw [if_pos same, if_pos (decide_eq_true same), List.length_cons, UInt64.ofNat_add, add_comm]
      rfl
    · rw [if_neg same, if_neg (by simpa using same), zero_add]

/-- The statistics of a bucket count its messages, and remember the last of its lags. -/
theorem stats_exact {labels : List Label}
    (ran : run (FanOut.step kinds) (start capacity) labels = some w) (bucket : Str) :
    (w.streamCounts bucket).getD 0 = UInt64.ofNat
        ((feedOf kinds labels).sources.filter (fun source => source.1 = bucket)).length ∧
      (w.lagBuf.lookup bucket).getD [] =
        (((feedOf kinds labels).sources.filter (fun source => source.1 = bucket)).filterMap
          Prod.snd).rtake lagBufCap := by
  have agrees := agrees_run ran
  refine ⟨?_, agrees.lags bucket⟩
  rw [agrees.counted, tallied, ← total_ones]
  split_ifs with counted
  · rfl
  · exact (total_of_absent counted).symm

/-- A trade of a price. -/
def trade (price : Nat) : Json :=
  .object [("price".str, .ofNat price), ("source".str, .string "venue".str)]

/-- The second connection follows while the first message is under way, and the first one leaves
before it gets the second message. -/
def overlapping : List Label := [
  .call (.register laptop true), .call (.subscribe laptop ["BTC".str]),
  .message "tick:BTC".str (some (trade 1)), .call (.subscribe phone ["BTC".str]),
  .setTier "BTC".str "A".str, .fan "c1".str 0, .message "tick:BTC".str (some (trade 2)),
  .setTier "BTC".str "C".str, .call (.unsubscribe laptop ["BTC".str]), .announce 0 "c2".str 0,
  .fan "c2".str 0, .drain "c2".str]

/-- Of two messages around a subscription the new follower gets the second one only. -/
theorem overlapping_fanned : ∃ w,
    run (FanOut.step ["tick".str]) (start (fun _ => 2)) overlapping = some w ∧
      w.pushedBy .listener "c1".str ++ w.current.owed "c1".str =
        [dataFrame "tick".str (trade 1), dataFrame "tick".str (trade 2)] ∧
      w.pushedBy .listener "c2".str ++ w.current.owed "c2".str =
        [dataFrame "tick".str (trade 2)] ∧
      w.hub.getTier "BTC".str = "C".str := by
  have ran : (run (FanOut.step ["tick".str]) (start (fun _ => 2)) overlapping).isSome = true := by
    decide +kernel
  obtain ⟨w, ends⟩ := Option.isSome_iff_exists.mp ran
  obtain ⟨first, -, tier, -⟩ := fan_out_exact ends "c1".str
  obtain ⟨second, -⟩ := fan_out_exact ends "c2".str
  exact ⟨w, ends, first.trans (by rfl), second.trans (by rfl), (tier "BTC".str).trans (by rfl)⟩

end LumidPlatform.Realtime.FanOut
