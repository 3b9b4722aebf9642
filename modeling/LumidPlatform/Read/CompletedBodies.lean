import LumidPlatform.Read.CacheRuns

/-!
# What cached bodies are results of

In every run a body that either tier stores is the shaped result of a query that ran to
completion over one of the snapshots. The exception is by design: a specification with a
time limit of its own answers an execution that the limit cuts off as one without rows,
and that answer is stored like any other, unless the shape needs a row. An execution
that fails leaves both tiers as they were and its key cold.
-/

namespace LumidPlatform.Read.CompletedBodies

open LumidPlatform.Read.Spec LumidPlatform.Read.Bind LumidPlatform.Read.Cache
  LumidPlatform.Read.Exec LumidPlatform.Read.CacheRuns

/-- A request to an endpoint that is stored in Redis under a name. -/
structure Names (world : World) (endpoints : List EndpointSpec) (name : Str) (spec : EndpointSpec)
    (request : Request) (bound : Bound) : Prop where
  served : spec ∈ endpoints
  cached : spec.cache = true
  resolved : accepted world spec request = some bound
  name : ∃ gen, (requestKey world gen spec request bound).redisKey world.crates = name

/-- The body is what a request of this name computes over the snapshot, its query running
to completion. -/
def Completed (world : World) (endpoints : List EndpointSpec) (s : State) (name : Str)
    (entry : Entry) : Prop :=
  ∃ spec request bound data, Names world endpoints name spec request bound ∧
    s.history[entry.snapshot]? = some data ∧
      Exec.compute (withData world data) false spec request bound = .ok entry.body.bytes

/-- The execution was cut off, and the body is the empty result of a request of this name,
whose endpoint has a time limit and a shape that needs no row. -/
def TimedOut (world : World) (endpoints : List EndpointSpec) (name : Str) (entry : Entry) : Prop :=
  entry.cutOff = true ∧ ∃ spec request bound, Names world endpoints name spec request bound ∧
    spec.queryTimeoutMs.isSome = true ∧ spec.shape ≠ .one ∧
      renderRows world.crates spec (idEcho (mapOf request.pathParams)) [] = .ok entry.body.bytes

/-- The body is one that the design lets the cache store. -/
def Storable (world : World) (endpoints : List EndpointSpec) (s : State) (name : Str)
    (entry : Entry) : Prop :=
  Completed world endpoints s name entry ∨ TimedOut world endpoints name entry

/-! ## What an execution yields -/

/-- What an execution yields is the result of a query that ran to completion, or the empty
result of one that its time limit cut off. -/
theorem compute_ok {world : World} {cutOff : Bool} {spec : EndpointSpec} {request : Request}
    {bound : Bound} {bytes : Bytes}
    (computed : Exec.compute world cutOff spec request bound = .ok bytes) :
    Exec.compute world false spec request bound = .ok bytes ∨
      cutOff = true ∧ spec.queryTimeoutMs.isSome = true ∧ spec.shape ≠ .one ∧
        renderRows world.crates spec (idEcho (mapOf request.pathParams)) [] = .ok bytes := by
  cases cutOff with
  | false => exact Or.inl computed
  | true =>
    cases peer : fedPeer world with
    | some p =>
      simp only [Exec.compute, peer] at computed ⊢
      exact Or.inl computed
    | none =>
      cases limit : spec.queryTimeoutMs with
      | none =>
        simp only [Exec.compute, peer, produce, fetchRows, limit] at computed ⊢
        exact Or.inl computed
      | some ms =>
        refine Or.inr ⟨rfl, rfl, ?_⟩
        simp only [Exec.compute, peer, produce, fetchRows, limit] at computed
        obtain ⟨objs, fetched, rendered⟩ := ApiResult.bind_eq_ok.mp computed
        obtain ⟨backend, _, asked⟩ := ApiResult.bind_eq_ok.mp fetched
        obtain ⟨query, _, cut⟩ := ApiResult.bind_eq_ok.mp asked
        obtain rfl : [] = objs := Except.ok.inj cut
        refine ⟨?_, rendered⟩
        intro one
        simp [renderRows, shape, one, stripLineageRows, Except.map] at rendered

theorem Completed.later {world : World} {endpoints : List EndpointSpec} {s s' : State} {name : Str}
    {entry : Entry} (effects : Effects world s s')
    (completed : Completed world endpoints s name entry) :
    Completed world endpoints s' name entry := by
  obtain ⟨spec, request, bound, data, names, snapshot, computed⟩ := completed
  refine ⟨spec, request, bound, data, names, ?_, computed⟩
  rcases effects.history with same | ⟨more, grown⟩
  · rw [same]
    exact snapshot
  · rw [grown, List.getElem?_append_left]
    · exact snapshot
    · exact (List.getElem?_eq_some_iff.mp snapshot).1

theorem Storable.later {world : World} {endpoints : List EndpointSpec} {s s' : State} {name : Str}
    {entry : Entry} (effects : Effects world s s')
    (storable : Storable world endpoints s name entry) : Storable world endpoints s' name entry :=
  storable.imp (Completed.later effects) id

/-! ## The invariant -/

/-- A read under the key of its request. -/
def Asked (world : World) (endpoints : List EndpointSpec) (key : CacheKey) (read : ReadTask) :
    Prop :=
  read.key = key ∧ Names world endpoints (key.redisKey world.crates) read.spec read.request
    read.bound

/-- The body with its digest, as the cache makes it. -/
def Digested (crates : Crates) (entry : Entry) : Prop :=
  ∃ ttl, entry.body = CachedBody.new crates entry.body.bytes ttl

structure ReplicaInv (world : World) (endpoints : List EndpointSpec) (s : State)
    (rep : Replica) : Prop where
  reads : ∀ task read, rep.reads task = some read → Asked world endpoints read.key read
  flights : ∀ key flight, rep.flights key = some flight → Asked world endpoints key flight.read
  cold : ∀ key flight, rep.flights key = some flight → rep.l1 key = none
  held : ∀ key entry, rep.Holds key entry →
    Storable world endpoints s (key.redisKey world.crates) entry ∧ Digested world.crates entry

structure Inv (world : World) (endpoints : List EndpointSpec) (s : State) : Prop where
  replicas : ∀ r rep, s.replicas r = some rep → ReplicaInv world endpoints s rep
  l2 : ∀ name stored, s.l2 name = some stored → ∃ entry,
    Storable world endpoints s name entry ∧ Digested world.crates entry ∧
      stored.raw = encodeL2 entry.body ∧ stored.snapshot = entry.snapshot ∧
        stored.cutOff = entry.cutOff

theorem Starts.asked {world : World} {endpoints : List EndpointSpec} {rep : Replica}
    {read : ReadTask} (starts : Starts world endpoints rep read) :
    Asked world endpoints read.key read :=
  ⟨rfl, starts.served, starts.cached, starts.resolved, _,
    (congrArg (CacheKey.redisKey world.crates) starts.key).symm⟩

/-- What a flight computes may be stored under its key. -/
theorem Computes.storable {world : World} {endpoints : List EndpointSpec} {s : State}
    {rep : Replica} {key : CacheKey} {cutOff : Bool} {entry : Entry} {flight : Flight} {data : Data}
    (computes : Computes world s rep key cutOff entry flight data)
    (asked : Asked world endpoints key flight.read) :
    Storable world endpoints s (key.redisKey world.crates) entry := by
  rcases compute_ok computes.computed with completed | ⟨cut, limit, shape, empty⟩
  · refine Or.inl ⟨_, _, _, data, asked.2, ?_, completed⟩
    rw [computes.snapshot, State.version, ← List.getLast?_eq_getElem?]
    exact computes.latest
  · exact Or.inr ⟨computes.cutOff.trans cut, _, _, _, asked.2, limit, shape, empty⟩

/-- What a flight reads from Redis is the body that was stored. -/
theorem Promotes.body {world : World} {s : State} {rep : Replica} {key : CacheKey}
    {entry original : Entry} {flight : Flight} {stored : Stored}
    (promotes : Promotes world s rep key entry flight stored)
    (digested : Digested world.crates original) (raw : stored.raw = encodeL2 original.body) :
    entry.body = CachedBody.new world.crates original.body.bytes
      (flight.read.spec.ttlDuration world.crates) := by
  obtain ⟨ttl, body⟩ := digested
  have decoded := promotes.decoded
  rw [raw, body, decodeL2_encodeL2] at decoded
  exact (Option.some.inj decoded).symm

/-- Whether a body may be stored depends on its bytes and on what was recorded of them. -/
theorem Storable.congr {world : World} {endpoints : List EndpointSpec} {s : State} {name : Str}
    {entry entry' : Entry} (bytes : entry'.body.bytes = entry.body.bytes)
    (snapshot : entry'.snapshot = entry.snapshot) (cutOff : entry'.cutOff = entry.cutOff)
    (storable : Storable world endpoints s name entry) : Storable world endpoints s name entry' := by
  rcases storable with ⟨spec, request, bound, data, names, there, computed⟩ |
    ⟨cut, spec, request, bound, names, limit, shape, empty⟩
  · exact Or.inl ⟨spec, request, bound, data, names, snapshot ▸ there, bytes ▸ computed⟩
  · exact Or.inr ⟨cutOff.trans cut, spec, request, bound, names, limit, shape, bytes ▸ empty⟩

/-- A flight is in the air only for a key that L1 lacks. -/
theorem moves_cold {world : World} {endpoints : List EndpointSpec} {s : State} {label : Label}
    {rep rep' : Replica} (moves : Moves world endpoints s label rep rep')
    (cold : ∀ key flight, rep.flights key = some flight → rep.l1 key = none) (key : CacheKey)
    (flight : Flight) (flying : rep'.flights key = some flight) : rep'.l1 key = none := by
  have advanced : ∀ place moving phase, rep.flights place = some moving →
      (rep.advance place moving phase).flights key = some flight → rep.l1 key = none := by
    intro place moving phase before now
    rcases update_eq_some now with ⟨rfl, _⟩ | ⟨_, unchanged⟩
    · exact cold _ moving before
    · exact cold key flight unchanged
  cases moves with
  | idle => exact cold key flight flying
  | commit => exact cold key flight flying
  | invalidate => exact cold key flight flying
  | publish => exact cold key flight flying
  | told => exact cold key flight flying
  | heard => exact cold key flight flying
  | ignored => exact cold key flight flying
  | start => exact cold key flight flying
  | hit => exact cold key flight flying
  | wait asked unanswered lacks opened =>
    rcases opened with rfl | rfl
    · exact cold key flight flying
    · rcases update_eq_some flying with ⟨rfl, _⟩ | ⟨_, before⟩
      · exact lacks
      · exact cold key flight before
  | promote _ promotes => exact advanced _ _ _ promotes.flying flying
  | miss before => exact advanced _ _ _ before flying
  | compute _ computes => exact advanced _ _ _ computes.flying flying
  | fail =>
    rcases update_eq_some flying with ⟨_, ended⟩ | ⟨_, before⟩
    · simp at ended
    · exact cold key flight before
  | store before _ => exact advanced _ _ _ before flying
  | @keep r place rep ending entry landing phase =>
    rcases update_eq_some flying with ⟨_, ended⟩ | ⟨elsewhere, before⟩
    · simp at ended
    · exact (Function.update_of_ne elsewhere _ _).trans (cold key flight before)
  | answer => exact cold key flight flying
  | @evict r place rep =>
    by_cases here : key = place
    · subst here
      exact Function.update_self _ _ _
    · exact (Function.update_of_ne here _ _).trans (cold key flight flying)

theorem replicaInv_boot (world : World) (endpoints : List EndpointSpec) (s : State) :
    ReplicaInv world endpoints s {} where
  reads := by simp
  flights := by simp
  cold := by simp
  held key entry holds := by simp [Replica.Holds] at holds

theorem replicaInv_moves {world : World} {endpoints : List EndpointSpec} {s s' : State}
    {label : Label} {rep rep' : Replica} (effects : Effects world s s')
    (inv : Inv world endpoints s) (moves : Moves world endpoints s label rep rep')
    (holds : ReplicaInv world endpoints s rep) : ReplicaInv world endpoints s' rep' := by
  refine ⟨?_, ?_, moves_cold moves holds.cold, ?_⟩
  · intro task read after
    rcases moves.reads after with ⟨earlier, before, continues⟩ | starts
    · rw [continues]
      exact holds.reads task earlier before
    · exact Starts.asked starts
  · intro key flight after
    rcases moves.flights after with ⟨earlier, before, same⟩ | ⟨task, asked, rfl⟩
    · exact same ▸ holds.flights key earlier before
    · exact holds.reads task flight.read asked
  · intro key entry after
    rcases moves.holds after with before | ⟨_, _, flight, data, _, _, computes⟩ |
      ⟨_, flight, stored, _, _, promotes⟩
    · exact ⟨(holds.held key entry before).1.later effects, (holds.held key entry before).2⟩
    · have asked := holds.flights key flight computes.flying
      exact ⟨(Computes.storable computes asked).later effects, _, computes.body⟩
    · obtain ⟨original, storable, digested, raw, snapshot, cutOff⟩ :=
        inv.l2 _ stored promotes.found
      have body := Promotes.body promotes digested raw
      have bytes : entry.body.bytes = original.body.bytes := by rw [body, CachedBody.new]
      refine ⟨(storable.congr bytes (promotes.snapshot.trans snapshot)
        (promotes.cutOff.trans cutOff)).later effects,
        flight.read.spec.ttlDuration world.crates, ?_⟩
      rw [bytes]
      exact body

theorem inv_step {world : World} {endpoints : List EndpointSpec} {s s' : State} {label : Label}
    (inv : Inv world endpoints s) (taken : step world endpoints s label = some s') :
    Inv world endpoints s' := by
  have effects := step_effects taken
  constructor
  · intro r rep' running
    rcases step_replica taken running with rfl | ⟨rep, before, moves⟩
    · exact replicaInv_boot world endpoints s'
    · exact replicaInv_moves effects inv moves (inv.replicas r rep before)
  · intro name stored found
    rcases effects.l2 name stored found with before |
      ⟨r, rep, key, flight, entry, running, flying, phase, rfl, rfl⟩
    · obtain ⟨entry, storable, rest⟩ := inv.l2 name stored before
      exact ⟨entry, storable.later effects, rest⟩
    · have held := (inv.replicas r rep running).held key entry
        (Or.inr (Or.inl ⟨flight, flying, Or.inl phase⟩))
      exact ⟨entry, held.1.later effects, held.2, rfl, rfl, rfl⟩

theorem inv_initial (world : World) (endpoints : List EndpointSpec) (data : Data) :
    Inv world endpoints (initial data) where
  replicas := by simp [initial]
  l2 := by simp [initial]

/-! ## Faults -/

/-- The execution of a flight fails. -/
def Fails (world : World) (s : State) (r : Nat) (key : CacheKey) (cutOff : Bool) : Prop :=
  ∃ rep flight data e, s.replicas r = some rep ∧ rep.flights key = some flight ∧
    s.history.getLast? = some data ∧
      Exec.compute (withData world data) cutOff flight.read.spec flight.read.request
        flight.read.bound = .error e

/-- After a failed execution both tiers are as they were, and the next read of the key
finds it cold: not in L1, and no flight in the air. -/
theorem fails_step {world : World} {endpoints : List EndpointSpec} {s s' : State} {r : Nat}
    {key : CacheKey} {cutOff : Bool} (inv : Inv world endpoints s)
    (fails : Fails world s r key cutOff)
    (taken : step world endpoints s (.compute r key cutOff) = some s') :
    s'.l2 = s.l2 ∧ ∃ rep rep', s.replicas r = some rep ∧ s'.replicas r = some rep' ∧
      rep'.l1 = rep.l1 ∧ rep'.l1 key = none ∧ rep'.flights key = none := by
  obtain ⟨rep, flight, data, e, running, flying, latest, failed⟩ := fails
  obtain ⟨data', latest', acted⟩ := Option.bind_eq_some_iff.mp taken
  obtain rfl : data = data' := Option.some.inj (latest.symm.trans latest')
  obtain ⟨before, rep', up, took, rfl⟩ := State.at_eq_some.mp acted
  obtain rfl : rep = before := Option.some.inj (running.symm.trans up)
  obtain ⟨moving, flies, ran⟩ := Option.bind_eq_some_iff.mp took
  obtain rfl : flight = moving := Option.some.inj (flying.symm.trans flies)
  split at ran
  · rw [failed] at ran
    obtain rfl := Option.some.inj ran
    refine ⟨rfl, rep, _, running, Function.update_self _ _ _, rfl, ?_, Function.update_self _ _ _⟩
    exact (inv.replicas r rep running).cold key flight flying
  · simp at ran

/-- In every run: what L1 holds, and what Redis holds, is the shaped result of a completed
query over a snapshot, or the empty result of an execution that its time limit cut off;
and a failed execution stores nothing. -/
theorem stored_storable (world : World) (endpoints : List EndpointSpec) (data : Data) (s : State)
    (run : Transitions.Reaches (step world endpoints) (initial data) s) :
    (∀ r rep key entry, s.replicas r = some rep → rep.l1 key = some entry →
      Storable world endpoints s (key.redisKey world.crates) entry) ∧
    (∀ name stored, s.l2 name = some stored → ∃ entry, Storable world endpoints s name entry ∧
      stored.raw = encodeL2 entry.body ∧ stored.snapshot = entry.snapshot ∧
        stored.cutOff = entry.cutOff) ∧
    ∀ r key cutOff s', step world endpoints s (.compute r key cutOff) = some s' →
      Fails world s r key cutOff →
        s'.l2 = s.l2 ∧ ∃ rep rep', s.replicas r = some rep ∧ s'.replicas r = some rep' ∧
          rep'.l1 = rep.l1 ∧ rep'.l1 key = none ∧ rep'.flights key = none := by
  have inv : Inv world endpoints s := run.invariant (inv_initial world endpoints data)
    (fun before label next holds taken => inv_step holds taken)
  refine ⟨?_, ?_, ?_⟩
  · intro r rep key entry running inL1
    exact ((inv.replicas r rep running).held key entry (Or.inl inL1)).1
  · intro name stored found
    obtain ⟨entry, storable, _, rest⟩ := inv.l2 name stored found
    exact ⟨entry, storable, rest⟩
  · intro r key cutOff s' taken fails
    exact fails_step inv fails taken

/-! ## A search with a time limit -/

/-- A search that is given two seconds. -/
def headlines : EndpointSpec where
  id := "headlines".str
  path := "/headlines".str
  ttl := "60s".str
  tables := ["core.news".str]
  sql := "SELECT title FROM core.news".str
  queryTimeoutMs := some 2000

/-- A database that has one headline. -/
def oneHeadline : Data where
  backends _ _ := .ok ⟨.postgres, fun _ _ => .ok [[("title".str, .string "rain".str)]]⟩
  forward _ _ _ _ := (502, [])
  forward_origin := unreachable_alike

def newsWorld : World := World.plain (fun _ _ => .ok [])

def headlinesKey : CacheKey := ⟨"headlines".str, 0, []⟩

/-- A search on a fresh replica, kept in both tiers. -/
def search (cutOff : Bool) : List Label :=
  [.boot 0, .start 0 0 0 {}, .enter 0 0, .probe 0 headlinesKey true,
    .compute 0 headlinesKey cutOff, .store 0 headlinesKey true, .keep 0 headlinesKey]

theorem search_storable : ∃ s entry,
    Transitions.Reaches (step newsWorld [headlines]) (initial oneHeadline) s ∧
      (s.replicas 0).bind (fun rep => rep.l1 headlinesKey) = some entry ∧
      entry.body.bytes = Text.utf8 "[\x7b\"title\":\"rain\"\x7d]".str ∧
        Storable newsWorld [headlines] s (headlinesKey.redisKey newsWorld.crates) entry := by
  have ran : (Transitions.run (step newsWorld [headlines]) (initial oneHeadline)
      (search false)).map (fun s => ((s.replicas 0).bind (fun rep => rep.l1 headlinesKey)).map
        (fun entry => entry.body.bytes)) =
      some (some (Text.utf8 "[\x7b\"title\":\"rain\"\x7d]".str)) := by decide +kernel
  obtain ⟨s, reached, kept⟩ := Option.map_eq_some_iff.mp ran
  obtain ⟨entry, inL1, bytes⟩ := Option.map_eq_some_iff.mp kept
  obtain ⟨rep, running, found⟩ := Option.bind_eq_some_iff.mp inL1
  have run : Transitions.Reaches (step newsWorld [headlines]) (initial oneHeadline) s :=
    ⟨search false, reached⟩
  exact ⟨s, entry, run, inL1, bytes,
    (stored_storable newsWorld [headlines] oneHeadline s run).1 0 rep headlinesKey entry running
      found⟩

/-- Every completed search finds the headline. -/
theorem headlines_computed (request : Request) (bound : Bound) :
    Exec.compute (withData newsWorld oneHeadline) false headlines request bound =
      .ok (Text.utf8 "[\x7b\"title\":\"rain\"\x7d]".str) := by
  have text : Crates.plain.toVec (rowsValue [[("title".str, .string "rain".str)]]) =
      Text.utf8 "[\x7b\"title\":\"rain\"\x7d]".str := by decide +kernel
  rw [← text]
  rfl

/-- The first snapshot of a run stays the first. -/
theorem first_snapshot {world : World} {endpoints : List EndpointSpec} {data : Data} {s : State}
    (run : Transitions.Reaches (step world endpoints) (initial data) s) :
    s.history.head? = some data := by
  have kept : ∀ before label next, before.history.head? = some data →
      step world endpoints before label = some next → next.history.head? = some data := by
    intro before label next first taken
    rcases (step_effects taken).history with same | ⟨more, grown⟩
    · rw [same]
      exact first
    · rw [grown]
      simp [first]
  exact run.invariant (rfl : (initial data).history.head? = some data) kept

/-- The search that is cut off keeps an empty list, which is the result of no completed
search over any snapshot. -/
theorem search_cutOff : ∃ s rep entry,
    Transitions.Reaches (step newsWorld [headlines]) (initial oneHeadline) s ∧
      s.replicas 0 = some rep ∧ rep.l1 headlinesKey = some entry ∧
      entry.body.bytes = Text.utf8 "[]".str ∧
        ¬Completed newsWorld [headlines] s (headlinesKey.redisKey newsWorld.crates) entry := by
  have ran : (Transitions.run (step newsWorld [headlines]) (initial oneHeadline)
      (search true)).map (fun s => (s.history.length, ((s.replicas 0).bind (fun rep =>
        rep.l1 headlinesKey)).map (fun entry => entry.body.bytes))) =
      some (1, some (Text.utf8 "[]".str)) := by decide +kernel
  obtain ⟨s, reached, kept⟩ := Option.map_eq_some_iff.mp ran
  obtain ⟨single, inTier⟩ := Prod.mk.inj kept
  obtain ⟨entry, inL1, bytes⟩ := Option.map_eq_some_iff.mp inTier
  obtain ⟨rep, running, found⟩ := Option.bind_eq_some_iff.mp inL1
  have run : Transitions.Reaches (step newsWorld [headlines]) (initial oneHeadline) s :=
    ⟨search true, reached⟩
  refine ⟨s, rep, entry, run, running, found, bytes, ?_⟩
  rintro ⟨spec, request, bound, data, names, snapshot, computed⟩
  obtain rfl := List.mem_singleton.mp names.served
  obtain ⟨only, history⟩ := List.length_eq_one_iff.mp single
  have first := first_snapshot run
  rw [history] at first snapshot
  obtain rfl : only = oneHeadline := by simpa using first
  obtain rfl : oneHeadline = data := List.mem_singleton.mp (List.mem_of_getElem? snapshot) |>.symm
  rw [headlines_computed, bytes] at computed
  exact absurd (Except.ok.inj computed) (by decide)

end LumidPlatform.Read.CompletedBodies
