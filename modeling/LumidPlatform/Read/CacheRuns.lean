import LumidPlatform.Lib.Transitions
import LumidPlatform.Read.Exec

/-!
# Replicas around one Redis

Any number of replicas, each a cache manager with its own generations and its own L1,
share one L2. A step of the system is what one replica does between two suspension
points: read a generation, look into L1, ask Redis, run the query, store, answer, bump
generations, publish, take a message from the listener. The database is the list of its
snapshots: a committed write appends one.

A few fields record history for the statements and decide nothing: the snapshot a body
was computed from and whether its execution was cut off, the invalidations a replica has
processed, and those of them that a read found processed when it began.
-/

namespace LumidPlatform.Read.CacheRuns

open LumidPlatform.Read.Spec LumidPlatform.Read.Bind LumidPlatform.Read.Cache
  LumidPlatform.Read.Exec

/-! ## States -/

/-- A cached body, with the number of the snapshot it was computed from, and whether the
time limit cut the execution off. -/
structure Entry where
  body : CachedBody
  snapshot : Nat
  cutOff : Bool
  deriving DecidableEq

/-- The invalidation for a committed write: the table, and the snapshot it committed. -/
structure Invalidation where
  table : Str
  version : Nat
  deriving DecidableEq

/-- A value in Redis; `seen` are the writes its reader had seen invalidated. -/
structure Stored where
  raw : Bytes
  snapshot : Nat
  cutOff : Bool
  seen : List Nat
  deriving DecidableEq

/-- A read in flight. -/
structure ReadTask where
  spec : EndpointSpec
  request : Request
  bound : Bound
  key : CacheKey
  /-- The writes to the tables of its endpoint whose invalidation the replica had
  processed when the read began. -/
  seen : List Nat
  /-- The read waits for the single flight of its key. -/
  waiting : Bool := false
  result : Option Entry := none

/-- How far the single flight of a key has come. -/
inductive Phase where
  | probing
  | computing
  | computed (entry : Entry)
  | finished (entry : Entry)

/-- The single flight of a key, run for the read that found the key cold. -/
structure Flight where
  read : ReadTask
  phase : Phase

/-- A writer between its commit and the end of `invalidate_table`. -/
structure WriteTask where
  schema : Str
  table : Str
  version : Nat
  invalidated : Bool := false

/-- A published message: its payload, and the write it is about. -/
structure Message where
  payload : Str
  version : Nat

structure Replica where
  generations : Str → Nat := fun _ => 0
  l1 : CacheKey → Option Entry := fun _ => none
  flights : CacheKey → Option Flight := fun _ => none
  reads : Nat → Option ReadTask := fun _ => none
  writes : Nat → Option WriteTask := fun _ => none
  inbox : List Message := []
  processed : List Invalidation := []

/-- A read that was answered, and what with. -/
structure Answer where
  read : ReadTask
  entry : Entry

structure State where
  history : List Data
  replicas : Nat → Option Replica := fun _ => none
  l2 : Str → Option Stored := fun _ => none
  answers : List Answer := []

/-- The number of the latest snapshot. -/
def State.version (s : State) : Nat := s.history.length - 1

inductive Label where
  | boot (r : Nat)
  | commit (r task : Nat) (schema table : Str) (data : Data)
  | invalidate (r task : Nat)
  | publish (r task : Nat)
  | deliver (r : Nat)
  | start (r task endpoint : Nat) (request : Request)
  | enter (r task : Nat)
  | probe (r : Nat) (key : CacheKey) (reached : Bool)
  | compute (r : Nat) (key : CacheKey) (cutOff : Bool)
  | store (r : Nat) (key : CacheKey) (reached : Bool)
  | keep (r : Nat) (key : CacheKey)
  | answer (r task : Nat)
  | evict (r : Nat) (key : CacheKey)
  | expire (name : Str)

/-! ## What one replica does -/

/-- `build_reverse`: the endpoints that read a table, as a set. -/
def buildReverse (endpoints : List EndpointSpec) (table : Str) : List Str :=
  (endpoints.filter (fun spec => spec.tables.contains table)).map EndpointSpec.id

/-- The versions of the writes among some invalidations that touch an endpoint. -/
def relevant (endpoints : List EndpointSpec) (id : Str) (processed : List Invalidation) :
    List Nat :=
  (processed.filter (fun inv => (buildReverse endpoints inv.table).contains id)).map
    Invalidation.version

namespace Replica

/-- `invalidate_table_local`; the bumps of one call are one step. -/
def invalidateTableLocal (endpoints : List EndpointSpec) (schema table : Str) (version : Nat)
    (rep : Replica) : Replica :=
  let full := schema ++ '.' :: table
  { rep with
    generations := fun id =>
      if (buildReverse endpoints full).contains id then rep.generations id + 1
      else rep.generations id
    processed := rep.processed ++ [⟨full, version⟩] }

/-- The listener takes its next message. -/
def deliver (endpoints : List EndpointSpec) (rep : Replica) : Option Replica :=
  match rep.inbox with
  | [] => none
  | message :: rest =>
    match Text.splitOnce '.' message.payload with
    | some (schema, table) =>
      some ({ rep with inbox := rest }.invalidateTableLocal endpoints schema table message.version)
    | none => some { rep with inbox := rest }

/-- A read begins: it resolves, and takes the generation of its endpoint. -/
def start (world : World) (endpoints : List EndpointSpec) (task : Nat) (spec : EndpointSpec)
    (request : Request) (rep : Replica) : Option Replica :=
  if (rep.reads task).isNone ∧ spec.cache = true then
    (accepted world spec request).map (fun bound =>
      { rep with reads := Function.update rep.reads task (some {
          spec := spec
          request := request
          bound := bound
          key := requestKey world (rep.generations spec.id) spec request bound
          seen := relevant endpoints spec.id rep.processed }) })
  else none

/-- `try_get_with`: a body in L1 answers the read; otherwise it waits for the single
flight of its key, which it opens if there is none. -/
def enter (task : Nat) (rep : Replica) : Option Replica :=
  (rep.reads task).bind (fun read =>
    if read.waiting ∨ read.result.isSome then none
    else
      match rep.l1 read.key with
      | some entry =>
        some { rep with
          reads := Function.update rep.reads task (some { read with result := some entry }) }
      | none =>
        some { rep with
          reads := Function.update rep.reads task (some { read with waiting := true })
          flights :=
            if (rep.flights read.key).isSome then rep.flights
            else Function.update rep.flights read.key (some ⟨read, .probing⟩) })

/-- A flight moves to a phase. -/
def advance (key : CacheKey) (flight : Flight) (phase : Phase) (rep : Replica) : Replica :=
  { rep with flights := Function.update rep.flights key (some { flight with phase := phase }) }

/-- The first suspension of a flight: Redis is asked. An error is a miss. -/
def probe (crates : Crates) (l2 : Str → Option Stored) (key : CacheKey) (reached : Bool)
    (rep : Replica) : Option Replica :=
  (rep.flights key).bind (fun flight =>
    match flight.phase with
    | .probing =>
      let found := (l2 (key.redisKey crates)).bind (fun stored =>
        (decodeL2 stored.raw (flight.read.spec.ttlDuration crates)).map
          (fun body => (⟨body, stored.snapshot, stored.cutOff⟩ : Entry)))
      match reached, found with
      | true, some entry => some (rep.advance key flight (.finished entry))
      | _, _ => some (rep.advance key flight .computing)
    | _ => none)

/-- The query of a flight is run over the latest snapshot. An error ends the flight for
every read that waits for it. -/
def compute (world : World) (data : Data) (version : Nat) (key : CacheKey) (cutOff : Bool)
    (rep : Replica) : Option Replica :=
  (rep.flights key).bind (fun flight =>
    match flight.phase with
    | .computing =>
      match Exec.compute (withData world data) cutOff flight.read.spec flight.read.request
          flight.read.bound with
      | .ok bytes =>
        let body := CachedBody.new world.crates bytes (flight.read.spec.ttlDuration world.crates)
        some (rep.advance key flight (.computed ⟨body, version, cutOff⟩))
      | .error _ =>
        some { rep with
          flights := Function.update rep.flights key none
          reads := fun task => (rep.reads task).filter
            (fun read => !(read.waiting && decide (read.key = key))) }
    | _ => none)

/-- The end of a flight: the body goes into L1 and to every read that waits for it. -/
def keep (key : CacheKey) (rep : Replica) : Option Replica :=
  (rep.flights key).bind (fun flight =>
    match flight.phase with
    | .finished entry =>
      some { rep with
        flights := Function.update rep.flights key none
        l1 := Function.update rep.l1 key (some entry)
        reads := fun task => (rep.reads task).map (fun read =>
          if read.waiting = true ∧ read.key = key then
            { read with waiting := false, result := some entry }
          else read) }
    | _ => none)

end Replica

/-! ## Steps of the system -/

/-- A running replica takes a step of its own. -/
def State.at (s : State) (r : Nat) (act : Replica → Option Replica) : Option State :=
  ((s.replicas r).bind act).map (fun rep =>
    { s with replicas := Function.update s.replicas r (some rep) })

/-- A committed write: the next snapshot, and a writer that is to invalidate. -/
def State.commit (s : State) (r task : Nat) (schema table : Str) (data : Data) : Option State :=
  State.at { s with history := s.history ++ [data] } r (fun rep =>
    if (rep.writes task).isSome then none
    else some { rep with
      writes := Function.update rep.writes task (some ⟨schema, table, s.history.length, false⟩) })

/-- The first half of `invalidate_table`; a table that no endpoint reads ends it. -/
def State.invalidate (endpoints : List EndpointSpec) (s : State) (r task : Nat) : Option State :=
  s.at r (fun rep => (rep.writes task).bind (fun write =>
    if write.invalidated then none
    else
      let after := rep.invalidateTableLocal endpoints write.schema write.table write.version
      let affected := buildReverse endpoints (write.schema ++ '.' :: write.table)
      some { after with
        writes := Function.update rep.writes task
          (if affected.isEmpty then none else some { write with invalidated := true }) }))

/-- The second half: every running replica is sent the message, the writer's own too. -/
def State.publish (s : State) (r task : Nat) : Option State :=
  (s.replicas r).bind (fun rep => (rep.writes task).bind (fun write =>
    if write.invalidated then
      let message : Message := ⟨write.schema ++ '.' :: write.table, write.version⟩
      some { s with
        replicas := fun other =>
          (Function.update s.replicas r (some { rep with
            writes := Function.update rep.writes task none }) other).map
              (fun listener => { listener with inbox := listener.inbox ++ [message] }) }
    else none))

/-- The second suspension of a flight: `SETEX`, whose failure is ignored. -/
def State.store (crates : Crates) (s : State) (r : Nat) (key : CacheKey) (reached : Bool) :
    Option State :=
  (s.replicas r).bind (fun rep => (rep.flights key).bind (fun flight =>
    match flight.phase with
    | .computed entry =>
      some { s with
        replicas := Function.update s.replicas r (some (rep.advance key flight (.finished entry)))
        l2 :=
          if reached then
            Function.update s.l2 (key.redisKey crates)
              (some ⟨encodeL2 entry.body, entry.snapshot, entry.cutOff, flight.read.seen⟩)
          else s.l2 }
    | _ => none))

/-- The response of a read leaves. -/
def State.answer (s : State) (r task : Nat) : Option State :=
  (s.replicas r).bind (fun rep => (rep.reads task).bind (fun read =>
    read.result.map (fun entry =>
      { s with
        replicas := Function.update s.replicas r (some { rep with
          reads := Function.update rep.reads task none })
        answers := s.answers ++ [⟨read, entry⟩] })))

/-- One step. A replica that boots anew loses all it had; entries of either tier may go
at any time. -/
def step (world : World) (endpoints : List EndpointSpec) (s : State) : Label → Option State
  | .boot r => some { s with replicas := Function.update s.replicas r (some {}) }
  | .commit r task schema table data => s.commit r task schema table data
  | .invalidate r task => s.invalidate endpoints r task
  | .publish r task => s.publish r task
  | .deliver r => s.at r (Replica.deliver endpoints)
  | .start r task endpoint request =>
    endpoints[endpoint]?.bind (fun spec =>
      s.at r (Replica.start world endpoints task spec request))
  | .enter r task => s.at r (Replica.enter task)
  | .probe r key reached => s.at r (Replica.probe world.crates s.l2 key reached)
  | .compute r key cutOff =>
    s.history.getLast?.bind (fun data =>
      s.at r (Replica.compute world data s.version key cutOff))
  | .store r key reached => s.store world.crates r key reached
  | .keep r key => s.at r (Replica.keep key)
  | .answer r task => s.answer r task
  | .evict r key => s.at r (fun rep => some { rep with l1 := Function.update rep.l1 key none })
  | .expire name => some { s with l2 := Function.update s.l2 name none }

/-- No replica runs yet. -/
def initial (data : Data) : State := { history := [data] }

/-! ## What a step can do to a replica -/

/-- The flight of a key computes an entry from the latest snapshot. -/
structure Computes (world : World) (s : State) (rep : Replica) (key : CacheKey) (cutOff : Bool)
    (entry : Entry) (flight : Flight) (data : Data) : Prop where
  flying : rep.flights key = some flight
  latest : s.history.getLast? = some data
  computed : Exec.compute (withData world data) cutOff flight.read.spec flight.read.request
    flight.read.bound = .ok entry.body.bytes
  body : entry.body = CachedBody.new world.crates entry.body.bytes
    (flight.read.spec.ttlDuration world.crates)
  snapshot : entry.snapshot = s.version
  cutOff : entry.cutOff = cutOff

/-- The flight of a key takes an entry from Redis. -/
structure Promotes (world : World) (s : State) (rep : Replica) (key : CacheKey) (entry : Entry)
    (flight : Flight) (stored : Stored) : Prop where
  flying : rep.flights key = some flight
  found : s.l2 (key.redisKey world.crates) = some stored
  decoded : decodeL2 stored.raw (flight.read.spec.ttlDuration world.crates) = some entry.body
  snapshot : entry.snapshot = stored.snapshot
  cutOff : entry.cutOff = stored.cutOff

/-- A read as it begins on a replica. -/
structure Starts (world : World) (endpoints : List EndpointSpec) (rep : Replica)
    (read : ReadTask) : Prop where
  served : read.spec ∈ endpoints
  cached : read.spec.cache = true
  resolved : accepted world read.spec read.request = some read.bound
  key : read.key = requestKey world (rep.generations read.spec.id) read.spec read.request read.bound
  seen : read.seen = relevant endpoints read.spec.id rep.processed
  result : read.result = none

/-- What a label does to a running replica: to its own, or to one that a message reaches. -/
inductive Moves (world : World) (endpoints : List EndpointSpec) (s : State) :
    Label → Replica → Replica → Prop where
  | idle {label : Label} {rep : Replica} : Moves world endpoints s label rep rep
  | commit {r task : Nat} {schema table : Str} {data : Data} {rep : Replica} :
      Moves world endpoints s (.commit r task schema table data) rep { rep with
        writes := Function.update rep.writes task
          (some ⟨schema, table, s.history.length, false⟩) }
  | invalidate {r task : Nat} {rep : Replica} {write : WriteTask} {after : Option WriteTask}
      (pending : rep.writes task = some write)
      (same : ∀ w ∈ after, w.version = write.version) :
      Moves world endpoints s (.invalidate r task) rep
        { rep.invalidateTableLocal endpoints write.schema write.table write.version with
          writes := Function.update rep.writes task after }
  | publish {r task : Nat} {rep : Replica} {write : WriteTask} {message : Message}
      (pending : rep.writes task = some write) (about : message.version = write.version) :
      Moves world endpoints s (.publish r task) rep { rep with
        writes := Function.update rep.writes task none
        inbox := rep.inbox ++ [message] }
  | told {r task : Nat} {rep writer : Replica} {write : WriteTask} {message : Message}
      (running : s.replicas r = some writer) (pending : writer.writes task = some write)
      (about : message.version = write.version) :
      Moves world endpoints s (.publish r task) rep { rep with inbox := rep.inbox ++ [message] }
  | heard {r : Nat} {rep : Replica} {message : Message} {rest : List Message} {schema table : Str}
      (waiting : rep.inbox = message :: rest) :
      Moves world endpoints s (.deliver r) rep
        ({ rep with inbox := rest }.invalidateTableLocal endpoints schema table message.version)
  | ignored {r : Nat} {rep : Replica} {message : Message} {rest : List Message}
      (waiting : rep.inbox = message :: rest) :
      Moves world endpoints s (.deliver r) rep { rep with inbox := rest }
  | start {r task endpoint : Nat} {request : Request} {rep : Replica} {read : ReadTask}
      (starts : Starts world endpoints rep read) :
      Moves world endpoints s (.start r task endpoint request) rep { rep with
        reads := Function.update rep.reads task (some read) }
  | hit {r task : Nat} {rep : Replica} {read : ReadTask} {entry : Entry}
      (asked : rep.reads task = some read) (found : rep.l1 read.key = some entry) :
      Moves world endpoints s (.enter r task) rep { rep with
        reads := Function.update rep.reads task (some { read with result := some entry }) }
  | wait {r task : Nat} {rep : Replica} {read : ReadTask} {flights : CacheKey → Option Flight}
      (asked : rep.reads task = some read) (unanswered : read.result = none)
      (cold : rep.l1 read.key = none)
      (opened : flights = rep.flights ∨
        flights = Function.update rep.flights read.key (some ⟨read, .probing⟩)) :
      Moves world endpoints s (.enter r task) rep { rep with
        reads := Function.update rep.reads task (some { read with waiting := true })
        flights := flights }
  | promote {r : Nat} {key : CacheKey} {rep : Replica} {entry : Entry} {flight : Flight}
      {stored : Stored} (running : s.replicas r = some rep)
      (promotes : Promotes world s rep key entry flight stored) :
      Moves world endpoints s (.probe r key true) rep (rep.advance key flight (.finished entry))
  | miss {r : Nat} {key : CacheKey} {reached : Bool} {rep : Replica} {flight : Flight}
      (flying : rep.flights key = some flight) :
      Moves world endpoints s (.probe r key reached) rep (rep.advance key flight .computing)
  | compute {r : Nat} {key : CacheKey} {cutOff : Bool} {rep : Replica} {entry : Entry}
      {flight : Flight} {data : Data} (running : s.replicas r = some rep)
      (computes : Computes world s rep key cutOff entry flight data) :
      Moves world endpoints s (.compute r key cutOff) rep
        (rep.advance key flight (.computed entry))
  | fail {r : Nat} {key : CacheKey} {cutOff : Bool} {rep : Replica}
      {failed : ReadTask → Bool} :
      Moves world endpoints s (.compute r key cutOff) rep { rep with
        flights := Function.update rep.flights key none
        reads := fun task => (rep.reads task).filter failed }
  | store {r : Nat} {key : CacheKey} {reached : Bool} {rep : Replica} {flight : Flight}
      {entry : Entry} (flying : rep.flights key = some flight)
      (phase : flight.phase = .computed entry) :
      Moves world endpoints s (.store r key reached) rep (rep.advance key flight (.finished entry))
  | keep {r : Nat} {key : CacheKey} {rep : Replica} {flight : Flight} {entry : Entry}
      (flying : rep.flights key = some flight) (phase : flight.phase = .finished entry) :
      Moves world endpoints s (.keep r key) rep { rep with
        flights := Function.update rep.flights key none
        l1 := Function.update rep.l1 key (some entry)
        reads := fun task => (rep.reads task).map (fun read =>
          if read.waiting = true ∧ read.key = key then
            { read with waiting := false, result := some entry }
          else read) }
  | answer {r task : Nat} {rep : Replica} :
      Moves world endpoints s (.answer r task) rep { rep with
        reads := Function.update rep.reads task none }
  | evict {r : Nat} {key : CacheKey} {rep : Replica} :
      Moves world endpoints s (.evict r key) rep { rep with
        l1 := Function.update rep.l1 key none }

section
variable {world : World} {endpoints : List EndpointSpec} {s s' : State} {label : Label}
  {rep rep' : Replica} {key : CacheKey}

theorem deliver_moves {r : Nat} (took : rep.deliver endpoints = some rep') :
    Moves world endpoints s (.deliver r) rep rep' := by
  rw [Replica.deliver] at took
  split at took
  · simp at took
  · rename_i message rest waiting
    split at took
    · obtain rfl := Option.some.inj took
      exact .heard waiting
    · obtain rfl := Option.some.inj took
      exact .ignored waiting

theorem start_moves {r task endpoint : Nat} {spec : EndpointSpec} {request : Request}
    (served : endpoints[endpoint]? = some spec)
    (took : rep.start world endpoints task spec request = some rep') :
    Moves world endpoints s (.start r task endpoint request) rep rep' := by
  rw [Replica.start] at took
  split_ifs at took with free
  obtain ⟨bound, resolved, rfl⟩ := Option.map_eq_some_iff.mp took
  exact .start ⟨List.mem_of_getElem? served, free.2, resolved, rfl, rfl, rfl⟩

theorem enter_moves {r task : Nat} (took : rep.enter task = some rep') :
    Moves world endpoints s (.enter r task) rep rep' := by
  obtain ⟨read, asked, entered⟩ := Option.bind_eq_some_iff.mp took
  by_cases busy : read.waiting = true ∨ read.result.isSome = true
  · simp [busy] at entered
  · rw [if_neg busy] at entered
    have unanswered : read.result = none := by
      by_contra some
      exact busy (Or.inr (Option.isSome_iff_ne_none.mpr some))
    split at entered
    · rename_i entry found
      obtain rfl := Option.some.inj entered
      exact .hit asked found
    · rename_i cold
      obtain rfl := Option.some.inj entered
      refine .wait asked unanswered cold ?_
      split_ifs
      · exact Or.inl rfl
      · exact Or.inr rfl

theorem probe_moves {r : Nat} {reached : Bool} (running : s.replicas r = some rep)
    (took : rep.probe world.crates s.l2 key reached = some rep') :
    Moves world endpoints s (.probe r key reached) rep rep' := by
  obtain ⟨flight, flying, asked⟩ := Option.bind_eq_some_iff.mp took
  split at asked
  · dsimp only at asked
    split at asked
    · rename_i entry found
      obtain rfl := Option.some.inj asked
      obtain ⟨stored, inL2, read⟩ := Option.bind_eq_some_iff.mp found
      obtain ⟨body, decoded, rfl⟩ := Option.map_eq_some_iff.mp read
      exact .promote running ⟨flying, inL2, decoded, rfl, rfl⟩
    · obtain rfl := Option.some.inj asked
      exact .miss flying
  · simp at asked

theorem compute_moves {r : Nat} {cutOff : Bool} {data : Data} (running : s.replicas r = some rep)
    (latest : s.history.getLast? = some data)
    (took : rep.compute world data s.version key cutOff = some rep') :
    Moves world endpoints s (.compute r key cutOff) rep rep' := by
  obtain ⟨flight, flying, ran⟩ := Option.bind_eq_some_iff.mp took
  split at ran
  · split at ran
    · rename_i bytes computed
      obtain rfl := Option.some.inj ran
      exact .compute running ⟨flying, latest, computed, rfl, rfl, rfl⟩
    · obtain rfl := Option.some.inj ran
      exact .fail
  · simp at ran

theorem keep_moves {r : Nat} (took : rep.keep key = some rep') :
    Moves world endpoints s (.keep r key) rep rep' := by
  obtain ⟨flight, flying, kept⟩ := Option.bind_eq_some_iff.mp took
  split at kept
  · rename_i entry phase
    obtain rfl := Option.some.inj kept
    exact .keep flying phase
  · simp at kept

theorem State.at_eq_some {r : Nat} {act : Replica → Option Replica} :
    s.at r act = some s' ↔ ∃ rep rep', s.replicas r = some rep ∧ act rep = some rep' ∧
      s' = { s with replicas := Function.update s.replicas r (some rep') } := by
  rw [State.at]
  constructor
  · intro taken
    obtain ⟨rep', acted, rfl⟩ := Option.map_eq_some_iff.mp taken
    obtain ⟨rep, running, took⟩ := Option.bind_eq_some_iff.mp acted
    exact ⟨rep, rep', running, took, rfl⟩
  · rintro ⟨rep, rep', running, took, rfl⟩
    simp [running, took]

/-- An entry of a map after one place was written: it is what was written, or it was there. -/
theorem update_eq_some {Key Value : Type} [DecidableEq Key] {map : Key → Option Value}
    {place key : Key} {written : Option Value} {found : Value}
    (after : Function.update map place written key = some found) :
    (key = place ∧ written = some found) ∨ (key ≠ place ∧ map key = some found) := by
  by_cases own : key = place
  · subst own
    rw [Function.update_self] at after
    exact Or.inl ⟨rfl, after⟩
  · rw [Function.update_of_ne own] at after
    exact Or.inr ⟨own, after⟩

/-- Where one replica of a state acts, every replica moves. -/
theorem moves_of_update {r other : Nat} {found : Replica} (running : s.replicas r = some rep)
    (moved : Moves world endpoints s label rep rep')
    (after : Function.update s.replicas r (some rep') other = some found) :
    ∃ before, s.replicas other = some before ∧ Moves world endpoints s label before found := by
  rcases update_eq_some after with ⟨rfl, written⟩ | ⟨_, unchanged⟩
  · obtain rfl := Option.some.inj written
    exact ⟨rep, running, moved⟩
  · exact ⟨found, unchanged, .idle⟩

/-- A replica after a step was just booted, or moved by the label of the step. -/
theorem step_replica (taken : step world endpoints s label = some s') {other : Nat}
    {found : Replica} (running : s'.replicas other = some found) :
    found = {} ∨ ∃ before, s.replicas other = some before ∧
      Moves world endpoints s label before found := by
  cases label with
  | boot r =>
    simp only [step, Option.some.injEq] at taken
    subst taken
    rcases update_eq_some running with ⟨_, fresh⟩ | ⟨_, unchanged⟩
    · exact Or.inl (Option.some.inj fresh).symm
    · exact Or.inr ⟨found, unchanged, .idle⟩
  | commit r task schema table data =>
    obtain ⟨rep, rep', up, took, rfl⟩ := State.at_eq_some.mp taken
    split_ifs at took
    obtain rfl := Option.some.inj took
    exact Or.inr (moves_of_update up .commit running)
  | invalidate r task =>
    obtain ⟨rep, rep', up, took, rfl⟩ := State.at_eq_some.mp taken
    obtain ⟨write, pending, after⟩ := Option.bind_eq_some_iff.mp took
    split_ifs at after
    obtain rfl := Option.some.inj after
    refine Or.inr (moves_of_update up (.invalidate pending ?_) running)
    intro w member
    split_ifs at member
    · simp at member
    · simp only [Option.mem_def, Option.some.injEq] at member
      rw [← member]
  | publish r task =>
    obtain ⟨rep, up, posted⟩ := Option.bind_eq_some_iff.mp taken
    obtain ⟨write, pending, after⟩ := Option.bind_eq_some_iff.mp posted
    split_ifs at after
    obtain rfl := Option.some.inj after
    obtain ⟨listener, told, rfl⟩ := Option.map_eq_some_iff.mp running
    rcases update_eq_some told with ⟨rfl, written⟩ | ⟨_, unchanged⟩
    · obtain rfl := Option.some.inj written
      exact Or.inr ⟨rep, up, .publish pending rfl⟩
    · exact Or.inr ⟨listener, unchanged, .told up pending rfl⟩
  | deliver r =>
    obtain ⟨rep, rep', up, took, rfl⟩ := State.at_eq_some.mp taken
    exact Or.inr (moves_of_update up (deliver_moves took) running)
  | start r task endpoint request =>
    obtain ⟨spec, served, acted⟩ := Option.bind_eq_some_iff.mp taken
    obtain ⟨rep, rep', up, took, rfl⟩ := State.at_eq_some.mp acted
    exact Or.inr (moves_of_update up (start_moves served took) running)
  | enter r task =>
    obtain ⟨rep, rep', up, took, rfl⟩ := State.at_eq_some.mp taken
    exact Or.inr (moves_of_update up (enter_moves took) running)
  | probe r key reached =>
    obtain ⟨rep, rep', up, took, rfl⟩ := State.at_eq_some.mp taken
    exact Or.inr (moves_of_update up (probe_moves up took) running)
  | compute r key cutOff =>
    obtain ⟨data, latest, acted⟩ := Option.bind_eq_some_iff.mp taken
    obtain ⟨rep, rep', up, took, rfl⟩ := State.at_eq_some.mp acted
    exact Or.inr (moves_of_update up (compute_moves up latest took) running)
  | store r key reached =>
    obtain ⟨rep, up, flown⟩ := Option.bind_eq_some_iff.mp taken
    obtain ⟨flight, flying, after⟩ := Option.bind_eq_some_iff.mp flown
    split at after
    · rename_i entry phase
      obtain rfl := Option.some.inj after
      exact Or.inr (moves_of_update up (.store flying phase) running)
    · simp at after
  | keep r key =>
    obtain ⟨rep, rep', up, took, rfl⟩ := State.at_eq_some.mp taken
    exact Or.inr (moves_of_update up (keep_moves took) running)
  | answer r task =>
    obtain ⟨rep, up, asked⟩ := Option.bind_eq_some_iff.mp taken
    obtain ⟨read, _, done⟩ := Option.bind_eq_some_iff.mp asked
    obtain ⟨entry, _, rfl⟩ := Option.map_eq_some_iff.mp done
    exact Or.inr (moves_of_update up .answer running)
  | evict r key =>
    obtain ⟨rep, rep', up, took, rfl⟩ := State.at_eq_some.mp taken
    obtain rfl := Option.some.inj took
    exact Or.inr (moves_of_update up .evict running)
  | expire name =>
    obtain rfl := Option.some.inj taken
    exact Or.inr ⟨found, running, .idle⟩

/-! ## Where cached bodies come from -/

/-- A replica holds an entry under a key: in L1, in the flight of the key, or for a read
of the key. -/
def Replica.Holds (rep : Replica) (key : CacheKey) (entry : Entry) : Prop :=
  rep.l1 key = some entry ∨
    (∃ flight, rep.flights key = some flight ∧
      (flight.phase = .computed entry ∨ flight.phase = .finished entry)) ∨
    ∃ task read, rep.reads task = some read ∧ read.key = key ∧ read.result = some entry

/-- An entry that a replica holds after an update of its flights was held or is the
entry of the written flight. -/
theorem Replica.Holds.of_flights (rep : Replica) {place key : CacheKey} {written : Option Flight}
    {entry : Entry}
    (holds : Replica.Holds { rep with flights := Function.update rep.flights place written } key
      entry) :
    rep.Holds key entry ∨ key = place ∧ ∃ flight, written = some flight ∧
      (flight.phase = .computed entry ∨ flight.phase = .finished entry) := by
  rcases holds with inL1 | ⟨flight, flying, phase⟩ | asked
  · exact Or.inl (Or.inl inL1)
  · rcases update_eq_some flying with ⟨here, same⟩ | ⟨_, before⟩
    · exact Or.inr ⟨here, flight, same, phase⟩
    · exact Or.inl (Or.inr (Or.inl ⟨flight, before, phase⟩))
  · exact Or.inl (Or.inr (Or.inr asked))

/-- An entry that a replica holds after an update of its reads was held or is the result
of the written read. -/
theorem Replica.Holds.of_reads (rep : Replica) {place : Nat} {key : CacheKey}
    {written : Option ReadTask} {entry : Entry}
    (holds : Replica.Holds { rep with reads := Function.update rep.reads place written } key
      entry) :
    rep.Holds key entry ∨ ∃ read, written = some read ∧ read.key = key ∧
      read.result = some entry := by
  rcases holds with inL1 | flying | ⟨task, read, asked, keyed, result⟩
  · exact Or.inl (Or.inl inL1)
  · exact Or.inl (Or.inr (Or.inl flying))
  · rcases update_eq_some asked with ⟨_, same⟩ | ⟨_, before⟩
    · exact Or.inr ⟨read, same, keyed, result⟩
    · exact Or.inl (Or.inr (Or.inr ⟨task, read, before, keyed, result⟩))

/-- After a flight ended with an entry, a replica holds what it held before. -/
theorem Replica.Holds.of_keep {place : CacheKey} {flight : Flight} {done entry : Entry}
    (flying : rep.flights place = some flight) (phase : flight.phase = .finished done)
    (holds : Replica.Holds { rep with
      flights := Function.update rep.flights place none
      l1 := Function.update rep.l1 place (some done)
      reads := fun task => (rep.reads task).map (fun read =>
        if read.waiting = true ∧ read.key = place then
          { read with waiting := false, result := some done }
        else read) } key entry) : rep.Holds key entry := by
  have held : rep.Holds place done := Or.inr (Or.inl ⟨flight, flying, Or.inr phase⟩)
  rcases holds with inL1 | ⟨other, stays, otherPhase⟩ | ⟨task, read, asked, keyed, result⟩
  · rcases update_eq_some inL1 with ⟨rfl, same⟩ | ⟨_, before⟩
    · obtain rfl := Option.some.inj same
      exact held
    · exact Or.inl before
  · rcases update_eq_some stays with ⟨_, same⟩ | ⟨_, before⟩
    · simp at same
    · exact Or.inr (Or.inl ⟨other, before, otherPhase⟩)
  · obtain ⟨earlier, was, now⟩ := Option.map_eq_some_iff.mp asked
    split_ifs at now with waited
    · obtain rfl := now
      obtain rfl : done = entry := Option.some.inj result
      obtain rfl : earlier.key = key := keyed
      exact waited.2 ▸ held
    · obtain rfl := now
      exact Or.inr (Or.inr ⟨task, earlier, was, keyed, result⟩)

/-- After a step a replica holds what it held, an entry computed from the latest snapshot,
or one that Redis had. -/
theorem Moves.holds {entry : Entry} (moves : Moves world endpoints s label rep rep')
    (holds : rep'.Holds key entry) :
    rep.Holds key entry ∨
      (∃ r cutOff flight data, s.replicas r = some rep ∧ label = .compute r key cutOff ∧
        Computes world s rep key cutOff entry flight data) ∨
      ∃ r flight stored, s.replicas r = some rep ∧ label = .probe r key true ∧
        Promotes world s rep key entry flight stored := by
  cases moves with
  | idle => exact Or.inl holds
  | commit => exact Or.inl holds
  | invalidate => exact Or.inl holds
  | publish => exact Or.inl holds
  | told => exact Or.inl holds
  | heard => exact Or.inl holds
  | ignored => exact Or.inl holds
  | start starts =>
    rcases Replica.Holds.of_reads rep holds with before | ⟨read, new, _, result⟩
    · exact Or.inl before
    · obtain rfl := Option.some.inj new
      simp [starts.result] at result
  | hit asked found =>
    rcases Replica.Holds.of_reads rep holds with before | ⟨answered, new, keyed, result⟩
    · exact Or.inl before
    · obtain rfl := Option.some.inj new
      obtain rfl := Option.some.inj result
      exact Or.inl (Or.inl (keyed ▸ found))
  | @wait r task rep read flights asked unanswered cold opened =>
    rcases Replica.Holds.of_reads { rep with flights := flights } holds with
      waits | ⟨waiting, new, _, result⟩
    · rcases opened with rfl | rfl
      · exact Or.inl waits
      · rcases Replica.Holds.of_flights rep waits with before | ⟨_, flight, new, phase⟩
        · exact Or.inl before
        · obtain rfl := Option.some.inj new
          simp at phase
    · obtain rfl := Option.some.inj new
      simp [unanswered] at result
  | @promote r place rep found flight stored running promotes =>
    rcases Replica.Holds.of_flights rep holds with before | ⟨rfl, moved, new, phase⟩
    · exact Or.inl before
    · obtain rfl := Option.some.inj new
      obtain rfl : found = entry := by simpa using phase
      exact Or.inr (Or.inr ⟨r, flight, stored, running, rfl, promotes⟩)
  | miss =>
    rcases Replica.Holds.of_flights rep holds with before | ⟨_, moved, new, phase⟩
    · exact Or.inl before
    · obtain rfl := Option.some.inj new
      simp at phase
  | @compute r place cutOff rep found flight data running computes =>
    rcases Replica.Holds.of_flights rep holds with before | ⟨rfl, moved, new, phase⟩
    · exact Or.inl before
    · obtain rfl := Option.some.inj new
      obtain rfl : found = entry := by simpa using phase
      exact Or.inr (Or.inl ⟨r, cutOff, flight, data, running, rfl, computes⟩)
  | fail =>
    refine Or.inl ?_
    rcases holds with inL1 | ⟨other, stays, phase⟩ | ⟨task, read, asked, keyed, result⟩
    · exact Or.inl inL1
    · rcases update_eq_some stays with ⟨_, same⟩ | ⟨_, before⟩
      · simp at same
      · exact Or.inr (Or.inl ⟨other, before, phase⟩)
    · have was := (Option.filter_eq_some_iff.mp asked).1
      exact Or.inr (Or.inr ⟨task, read, was, keyed, result⟩)
  | @store r place reached rep flight done flying phase =>
    rcases Replica.Holds.of_flights rep holds with before | ⟨rfl, moved, new, now⟩
    · exact Or.inl before
    · obtain rfl := Option.some.inj new
      obtain rfl : done = entry := by simpa using now
      exact Or.inl (Or.inr (Or.inl ⟨flight, flying, Or.inl phase⟩))
  | keep flying phase => exact Or.inl (Replica.Holds.of_keep flying phase holds)
  | answer =>
    rcases Replica.Holds.of_reads rep holds with before | ⟨read, new, _, _⟩
    · exact Or.inl before
    · simp at new
  | evict =>
    refine Or.inl ?_
    rcases holds with inL1 | flying | asked
    · rcases update_eq_some inL1 with ⟨_, same⟩ | ⟨_, before⟩
      · simp at same
      · exact Or.inl before
    · exact Or.inr (Or.inl flying)
    · exact Or.inr (Or.inr asked)

/-! ## Reads and flights -/

/-- The same read, further on. -/
def ReadTask.Continues (earlier later : ReadTask) : Prop :=
  later = { earlier with waiting := later.waiting, result := later.result }

theorem ReadTask.continues_self (read : ReadTask) : read.Continues read := rfl

/-- A read of a replica after a step went on, or began. -/
theorem Moves.reads {task : Nat} {read : ReadTask} (moves : Moves world endpoints s label rep rep')
    (after : rep'.reads task = some read) :
    (∃ earlier, rep.reads task = some earlier ∧ earlier.Continues read) ∨
      Starts world endpoints rep read := by
  have kept : rep.reads task = some read → (∃ earlier, rep.reads task = some earlier ∧
      earlier.Continues read) ∨ Starts world endpoints rep read :=
    fun before => Or.inl ⟨read, before, read.continues_self⟩
  cases moves with
  | idle => exact kept after
  | commit => exact kept after
  | invalidate => exact kept after
  | publish => exact kept after
  | told => exact kept after
  | heard => exact kept after
  | ignored => exact kept after
  | start starts =>
    rcases update_eq_some after with ⟨_, new⟩ | ⟨_, before⟩
    · obtain rfl := Option.some.inj new
      exact Or.inr starts
    · exact kept before
  | @hit r place rep asking entry asked found =>
    rcases update_eq_some after with ⟨rfl, new⟩ | ⟨_, before⟩
    · obtain rfl := Option.some.inj new
      exact Or.inl ⟨asking, asked, rfl⟩
    · exact kept before
  | @wait r place rep asking flights asked unanswered cold opened =>
    rcases update_eq_some after with ⟨rfl, new⟩ | ⟨_, before⟩
    · obtain rfl := Option.some.inj new
      exact Or.inl ⟨asking, asked, rfl⟩
    · exact kept before
  | promote => exact kept after
  | miss => exact kept after
  | compute => exact kept after
  | fail => exact kept (Option.filter_eq_some_iff.mp after).1
  | store => exact kept after
  | keep =>
    obtain ⟨earlier, was, rfl⟩ := Option.map_eq_some_iff.mp after
    refine Or.inl ⟨earlier, was, ?_⟩
    split_ifs
    · rfl
    · rfl
  | answer =>
    rcases update_eq_some after with ⟨_, new⟩ | ⟨_, before⟩
    · simp at new
    · exact kept before
  | evict => exact kept after

/-- A flight of a replica after a step was there for the same read, or was opened for a
read of its key. -/
theorem Moves.flights {flight : Flight} (moves : Moves world endpoints s label rep rep')
    (after : rep'.flights key = some flight) :
    (∃ earlier, rep.flights key = some earlier ∧ earlier.read = flight.read) ∨
      ∃ task, rep.reads task = some flight.read ∧ flight.read.key = key := by
  have kept : rep.flights key = some flight → (∃ earlier, rep.flights key = some earlier ∧
      earlier.read = flight.read) ∨ ∃ task, rep.reads task = some flight.read ∧
        flight.read.key = key := fun before => Or.inl ⟨flight, before, rfl⟩
  have advanced : ∀ place moving phase, rep.flights place = some moving →
      (rep.advance place moving phase).flights key = some flight →
        (∃ earlier, rep.flights key = some earlier ∧ earlier.read = flight.read) ∨
          ∃ task, rep.reads task = some flight.read ∧ flight.read.key = key := by
    intro place moving phase flying now
    rcases update_eq_some now with ⟨rfl, new⟩ | ⟨_, before⟩
    · obtain rfl := Option.some.inj new
      exact Or.inl ⟨moving, flying, rfl⟩
    · exact kept before
  cases moves with
  | idle => exact kept after
  | commit => exact kept after
  | invalidate => exact kept after
  | publish => exact kept after
  | told => exact kept after
  | heard => exact kept after
  | ignored => exact kept after
  | start => exact kept after
  | hit => exact kept after
  | @wait r place rep asking flights asked unanswered cold opened =>
    rcases opened with rfl | rfl
    · exact kept after
    · rcases update_eq_some after with ⟨rfl, new⟩ | ⟨_, before⟩
      · obtain rfl := Option.some.inj new
        exact Or.inr ⟨place, asked, rfl⟩
      · exact kept before
  | promote _ promotes => exact advanced _ _ _ promotes.flying after
  | miss flying => exact advanced _ _ _ flying after
  | compute _ computes => exact advanced _ _ _ computes.flying after
  | fail =>
    rcases update_eq_some after with ⟨_, new⟩ | ⟨_, before⟩
    · simp at new
    · exact kept before
  | store flying _ => exact advanced _ _ _ flying after
  | keep =>
    rcases update_eq_some after with ⟨_, new⟩ | ⟨_, before⟩
    · simp at new
    · exact kept before
  | answer => exact kept after
  | evict => exact kept after

end

/-! ## What a step does to the rest -/

/-- What one replica does on its own leaves everything else as it was. -/
theorem State.at_frame {s s' : State} {r : Nat} {act : Replica → Option Replica}
    (taken : s.at r act = some s') :
    s'.history = s.history ∧ s'.l2 = s.l2 ∧ s'.answers = s.answers := by
  obtain ⟨rep, rep', _, _, rfl⟩ := State.at_eq_some.mp taken
  exact ⟨rfl, rfl, rfl⟩

/-- Redis and the answers after a step, and the snapshots of the database. -/
structure Effects (world : World) (s s' : State) : Prop where
  history : s'.history = s.history ∨ ∃ data, s'.history = s.history ++ [data]
  l2 : ∀ name stored, s'.l2 name = some stored → s.l2 name = some stored ∨
    ∃ r rep key flight entry, s.replicas r = some rep ∧ rep.flights key = some flight ∧
      flight.phase = .computed entry ∧ name = key.redisKey world.crates ∧
        stored = ⟨encodeL2 entry.body, entry.snapshot, entry.cutOff, flight.read.seen⟩
  answers : ∀ answer ∈ s'.answers, answer ∈ s.answers ∨
    ∃ r rep task, s.replicas r = some rep ∧ rep.reads task = some answer.read ∧
      answer.read.result = some answer.entry

/-- A step that leaves Redis and the answers as they were. -/
theorem Effects.quiet {world : World} {s s' : State}
    (history : s'.history = s.history ∨ ∃ data, s'.history = s.history ++ [data])
    (l2 : s'.l2 = s.l2) (answers : s'.answers = s.answers) : Effects world s s' where
  history := history
  l2 _ _ found := Or.inl (l2 ▸ found)
  answers _ member := Or.inl (answers ▸ member)

theorem step_effects {world : World} {endpoints : List EndpointSpec} {s s' : State} {label : Label}
    (taken : step world endpoints s label = some s') : Effects world s s' := by
  have ownStep : ∀ r act, s.at r act = some s' → Effects world s s' := by
    intro r act acted
    obtain ⟨history, l2, answers⟩ := State.at_frame acted
    exact .quiet (Or.inl history) l2 answers
  cases label with
  | boot r =>
    obtain rfl := Option.some.inj taken
    exact .quiet (Or.inl rfl) rfl rfl
  | commit r task schema table data =>
    obtain ⟨history, l2, answers⟩ := State.at_frame taken
    exact .quiet (Or.inr ⟨data, history⟩) l2 answers
  | invalidate r task => exact ownStep _ _ taken
  | publish r task =>
    obtain ⟨rep, _, posted⟩ := Option.bind_eq_some_iff.mp taken
    obtain ⟨write, _, after⟩ := Option.bind_eq_some_iff.mp posted
    split_ifs at after
    obtain rfl := Option.some.inj after
    exact .quiet (Or.inl rfl) rfl rfl
  | deliver r => exact ownStep _ _ taken
  | start r task endpoint request =>
    obtain ⟨spec, _, acted⟩ := Option.bind_eq_some_iff.mp taken
    exact ownStep _ _ acted
  | enter r task => exact ownStep _ _ taken
  | probe r key reached => exact ownStep _ _ taken
  | compute r key cutOff =>
    obtain ⟨data, _, acted⟩ := Option.bind_eq_some_iff.mp taken
    exact ownStep _ _ acted
  | store r key reached =>
    obtain ⟨rep, up, flown⟩ := Option.bind_eq_some_iff.mp taken
    obtain ⟨flight, flying, after⟩ := Option.bind_eq_some_iff.mp flown
    split at after
    · rename_i entry phase
      obtain rfl := Option.some.inj after
      refine ⟨Or.inl rfl, fun name stored found => ?_, fun _ member => Or.inl member⟩
      cases reached with
      | false => exact Or.inl found
      | true =>
        rcases update_eq_some found with ⟨rfl, same⟩ | ⟨_, before⟩
        · exact Or.inr ⟨r, rep, key, flight, entry, up, flying, phase, rfl,
            (Option.some.inj same).symm⟩
        · exact Or.inl before
    · simp at after
  | keep r key => exact ownStep _ _ taken
  | answer r task =>
    obtain ⟨rep, up, asked⟩ := Option.bind_eq_some_iff.mp taken
    obtain ⟨read, waits, done⟩ := Option.bind_eq_some_iff.mp asked
    obtain ⟨entry, result, rfl⟩ := Option.map_eq_some_iff.mp done
    refine ⟨Or.inl rfl, fun _ _ found => Or.inl found, fun answer member => ?_⟩
    rcases List.mem_append.mp member with before | last
    · exact Or.inl before
    · obtain rfl := List.mem_singleton.mp last
      exact Or.inr ⟨r, rep, task, up, waits, result⟩
  | evict r key => exact ownStep _ _ taken
  | expire name =>
    obtain rfl := Option.some.inj taken
    refine ⟨Or.inl rfl, fun other stored found => ?_, fun _ member => Or.inl member⟩
    rcases update_eq_some found with ⟨_, same⟩ | ⟨_, before⟩
    · simp at same
    · exact Or.inl before

end LumidPlatform.Read.CacheRuns
