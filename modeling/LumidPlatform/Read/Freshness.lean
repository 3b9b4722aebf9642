import LumidPlatform.Read.CacheRuns

/-!
# Freshness of cached reads

A generation is a count of invalidations on one replica, and Redis is keyed by it for
all. Within a replica a count stands for the writes that were invalidated when it was
reached, so what is computed under it is at least as recent as they are. An entry of
Redis is that recent for the replica that stored it. A read that takes it is answered
freshly where, under this count, the storing replica had seen an invalidation at least
as late for each write the reading one has seen.
-/

namespace LumidPlatform.Read.Freshness

open LumidPlatform.Read.Spec LumidPlatform.Read.Cache LumidPlatform.Read.Exec
  LumidPlatform.Read.CacheRuns

/-- A snapshot contains every write of a list. -/
def Fresh (seen : List Nat) (snapshot : Nat) : Prop := ∀ version ∈ seen, version ≤ snapshot

/-- A flight that finds an entry in Redis finds one stored by a replica which, under the
same generation, had seen as late a write for every write its own read has seen. -/
def hitsAligned (world : World) (s : State) : Label → Bool
  | .probe r key true =>
    ((s.replicas r).bind (fun rep => rep.flights key)).all (fun flight =>
      (s.l2 (key.redisKey world.crates)).all (fun stored =>
        flight.read.seen.all (fun version =>
          stored.seen.any (fun other => decide (version ≤ other)))))
  | _ => true

/-! ## What a generation stands for -/

/-- The writes that were invalidated when the replica reached a generation. -/
def seenAt (endpoints : List EndpointSpec) (rep : Replica) (key : CacheKey) : List Nat :=
  (relevant endpoints key.endpointId rep.processed).take key.gen

/-- The replica has reached the generation of a key. -/
def Reached (rep : Replica) (key : CacheKey) : Prop := key.gen ≤ rep.generations key.endpointId

/-- Generations count processed invalidations, and every write known to the replica is
committed. -/
structure Counted (endpoints : List EndpointSpec) (version : Nat) (rep : Replica) : Prop where
  generations : ∀ id, rep.generations id = (relevant endpoints id rep.processed).length
  processed : ∀ inv ∈ rep.processed, inv.version ≤ version
  inbox : ∀ message ∈ rep.inbox, message.version ≤ version
  writes : ∀ task write, rep.writes task = some write → write.version ≤ version

/-- A read under a reached generation, that has seen what the generation stands for. -/
structure Began (endpoints : List EndpointSpec) (rep : Replica) (key : CacheKey)
    (read : ReadTask) : Prop where
  keyed : read.key = key
  reached : Reached rep key
  seen : read.seen = seenAt endpoints rep key

structure ReplicaInv (endpoints : List EndpointSpec) (version : Nat) (rep : Replica) : Prop
    extends Counted endpoints version rep where
  reads : ∀ task read, rep.reads task = some read → Began endpoints rep read.key read
  flights : ∀ key flight, rep.flights key = some flight → Began endpoints rep key flight.read
  held : ∀ key entry, rep.Holds key entry →
    Reached rep key ∧ Fresh (seenAt endpoints rep key) entry.snapshot

structure Inv (endpoints : List EndpointSpec) (s : State) : Prop where
  replicas : ∀ r rep, s.replicas r = some rep → ReplicaInv endpoints s.version rep
  l2 : ∀ name stored, s.l2 name = some stored → Fresh stored.seen stored.snapshot
  answers : ∀ answer ∈ s.answers, Fresh answer.read.seen answer.entry.snapshot

theorem relevant_append (endpoints : List EndpointSpec) (id : Str)
    (processed more : List Invalidation) :
    relevant endpoints id (processed ++ more) =
      relevant endpoints id processed ++ relevant endpoints id more := by
  simp [relevant]

theorem relevant_singleton (endpoints : List EndpointSpec) (id : Str) (inv : Invalidation) :
    relevant endpoints id [inv] =
      if (buildReverse endpoints inv.table).contains id then [inv.version] else [] := by
  simp only [relevant, List.filter_cons, List.filter_nil]
  split_ifs
  · rfl
  · rfl

/-- A write the replica has processed is committed. -/
theorem Counted.relevant_le {endpoints : List EndpointSpec} {version : Nat} {rep : Replica}
    (counted : Counted endpoints version rep) (id : Str) :
    Fresh (relevant endpoints id rep.processed) version := by
  intro v member
  obtain ⟨inv, filtered, rfl⟩ := List.mem_map.mp member
  exact counted.processed inv (List.mem_filter.mp filtered).1

theorem Counted.seenAt_le {endpoints : List EndpointSpec} {version : Nat} {rep : Replica}
    (counted : Counted endpoints version rep) (key : CacheKey) :
    Fresh (seenAt endpoints rep key) version := by
  intro v member
  exact counted.relevant_le key.endpointId v (List.mem_of_mem_take member)

/-! ## An invalidation -/

/-- An invalidation adds one to the generations of the endpoints it touches. -/
theorem Counted.invalidate {endpoints : List EndpointSpec} {version v : Nat} {rep : Replica}
    (counted : Counted endpoints version rep) (schema table : Str) (committed : v ≤ version) :
    Counted endpoints version (rep.invalidateTableLocal endpoints schema table v) where
  generations id := by
    simp only [Replica.invalidateTableLocal, relevant_append, relevant_singleton,
      List.length_append, counted.generations]
    split_ifs
    · rfl
    · rfl
  processed inv member := by
    rcases List.mem_append.mp member with before | last
    · exact counted.processed inv before
    · obtain rfl := List.mem_singleton.mp last
      exact committed
  inbox := counted.inbox
  writes := counted.writes

/-- From one replica to its next state, what the generations reached so far stand for stays. -/
structure Grows (endpoints : List EndpointSpec) (rep rep' : Replica) : Prop where
  reached : ∀ key, Reached rep key → Reached rep' key
  seenAt : ∀ key, Reached rep key → seenAt endpoints rep' key = seenAt endpoints rep key

theorem Grows.same {endpoints : List EndpointSpec} {rep rep' : Replica}
    (generations : rep'.generations = rep.generations) (processed : rep'.processed = rep.processed) :
    Grows endpoints rep rep' where
  reached key before := by
    rw [Reached, generations]
    exact before
  seenAt key _ := by rw [Freshness.seenAt, Freshness.seenAt, processed]

theorem Grows.invalidate {endpoints : List EndpointSpec} {version : Nat} {rep : Replica}
    (counted : Counted endpoints version rep) (schema table : Str) (v : Nat) :
    Grows endpoints rep (rep.invalidateTableLocal endpoints schema table v) where
  reached key before := by
    have bumped : rep.generations key.endpointId ≤
        (rep.invalidateTableLocal endpoints schema table v).generations key.endpointId := by
      simp only [Replica.invalidateTableLocal]
      split_ifs
      · omega
      · omega
    exact Nat.le_trans before bumped
  seenAt key before := by
    have long : key.gen ≤ (relevant endpoints key.endpointId rep.processed).length :=
      counted.generations key.endpointId ▸ before
    simp only [Freshness.seenAt, Replica.invalidateTableLocal, relevant_append]
    exact List.take_append_of_le_length long

theorem Counted.later {endpoints : List EndpointSpec} {version version' : Nat} {rep : Replica}
    (counted : Counted endpoints version rep) (later : version ≤ version') :
    Counted endpoints version' rep where
  generations := counted.generations
  processed inv member := Nat.le_trans (counted.processed inv member) later
  inbox message member := Nat.le_trans (counted.inbox message member) later
  writes task write found := Nat.le_trans (counted.writes task write found) later

/-- The listener takes a message off. -/
theorem Counted.drop {endpoints : List EndpointSpec} {version : Nat} {rep : Replica}
    {message : Message} {rest : List Message} (counted : Counted endpoints version rep)
    (waiting : rep.inbox = message :: rest) :
    Counted endpoints version { rep with inbox := rest } :=
  { counted with
    inbox := fun m member => counted.inbox m (waiting ▸ List.mem_cons_of_mem _ member) }

theorem Counted.next {endpoints : List EndpointSpec} {version : Nat} {rep : Replica}
    {message : Message} {rest : List Message} (counted : Counted endpoints version rep)
    (waiting : rep.inbox = message :: rest) : message.version ≤ version :=
  counted.inbox message (waiting ▸ List.mem_cons_self)

/-- The snapshots of the database are only added to. -/
theorem version_le {world : World} {s s' : State} (effects : Effects world s s') :
    s.version ≤ s'.version := by
  rcases effects.history with same | ⟨data, more⟩
  · rw [State.version, State.version, same]
  · rw [State.version, State.version, more, List.length_append]
    omega

/-- A step of a replica keeps the count, and what reached generations stand for. -/
theorem moves_counted {world : World} {endpoints : List EndpointSpec} {s s' : State} {label : Label}
    {rep rep' : Replica} (taken : step world endpoints s label = some s') (inv : Inv endpoints s)
    (moves : Moves world endpoints s label rep rep') (counted : Counted endpoints s.version rep) :
    Counted endpoints s'.version rep' ∧ Grows endpoints rep rep' := by
  have later := version_le (step_effects taken)
  have quiet : ∀ next : Replica, next.generations = rep.generations →
      next.processed = rep.processed → next.inbox = rep.inbox → next.writes = rep.writes →
        Counted endpoints s'.version next ∧ Grows endpoints rep next := by
    intro next generations processed inbox writes
    refine ⟨⟨?_, ?_, ?_, ?_⟩, .same generations processed⟩
    · rw [generations, processed]
      exact counted.generations
    · rw [processed]
      exact (counted.later later).processed
    · rw [inbox]
      exact (counted.later later).inbox
    · rw [writes]
      exact (counted.later later).writes
  cases moves with
  | idle => exact quiet rep rfl rfl rfl rfl
  | @commit r task schema table data rep =>
    obtain ⟨history, _, _⟩ := State.at_frame taken
    have committed : s.history.length ≤ s'.version := by
      rw [State.version, history, List.length_append]
      simp
    refine ⟨{ counted.later later with writes := ?_ }, .same rfl rfl⟩
    intro place write found
    rcases update_eq_some found with ⟨_, new⟩ | ⟨_, before⟩
    · obtain rfl := Option.some.inj new
      exact committed
    · exact (counted.later later).writes place write before
  | @invalidate r task rep write after pending same =>
    have committed := counted.writes task write pending
    have counts := (counted.invalidate write.schema write.table committed).later later
    refine ⟨{ counts with writes := ?_ }, ?_⟩
    · intro place found isThere
      rcases update_eq_some isThere with ⟨_, new⟩ | ⟨_, before⟩
      · rw [same found new]
        exact Nat.le_trans committed later
      · exact (counted.later later).writes place found before
    · have grows := Grows.invalidate counted write.schema write.table write.version
      exact ⟨grows.reached, grows.seenAt⟩
  | @publish r task rep write message pending about =>
    refine ⟨{ counted.later later with inbox := ?_, writes := ?_ }, .same rfl rfl⟩
    · intro m member
      rcases List.mem_append.mp member with before | last
      · exact (counted.later later).inbox m before
      · obtain rfl := List.mem_singleton.mp last
        exact about ▸ (counted.later later).writes task write pending
    · intro place found isThere
      rcases update_eq_some isThere with ⟨_, new⟩ | ⟨_, before⟩
      · simp at new
      · exact (counted.later later).writes place found before
  | @told r task rep writer write message running pending about =>
    refine ⟨{ counted.later later with inbox := ?_ }, .same rfl rfl⟩
    intro m member
    rcases List.mem_append.mp member with before | last
    · exact (counted.later later).inbox m before
    · obtain rfl := List.mem_singleton.mp last
      exact about ▸ Nat.le_trans ((inv.replicas r writer running).writes task write pending) later
  | @heard r rep message rest schema table waiting =>
    have taken' := counted.drop waiting
    have grows := Grows.invalidate taken' schema table message.version
    exact ⟨(taken'.invalidate schema table (counted.next waiting)).later later,
      ⟨grows.reached, grows.seenAt⟩⟩
  | ignored waiting => exact ⟨(counted.drop waiting).later later, .same rfl rfl⟩
  | start => exact quiet _ rfl rfl rfl rfl
  | hit => exact quiet _ rfl rfl rfl rfl
  | wait => exact quiet _ rfl rfl rfl rfl
  | promote => exact quiet _ rfl rfl rfl rfl
  | miss => exact quiet _ rfl rfl rfl rfl
  | compute => exact quiet _ rfl rfl rfl rfl
  | fail => exact quiet _ rfl rfl rfl rfl
  | store => exact quiet _ rfl rfl rfl rfl
  | keep => exact quiet _ rfl rfl rfl rfl
  | answer => exact quiet _ rfl rfl rfl rfl
  | evict => exact quiet _ rfl rfl rfl rfl

/-! ## Reads, flights and entries -/

theorem Began.grow {endpoints : List EndpointSpec} {rep rep' : Replica} {key : CacheKey}
    {read : ReadTask} (began : Began endpoints rep key read) (grows : Grows endpoints rep rep') :
    Began endpoints rep' key read where
  keyed := began.keyed
  reached := grows.reached key began.reached
  seen := began.seen.trans (grows.seenAt key began.reached).symm

/-- A read that begins has seen what its generation stands for. -/
theorem Starts.began {world : World} {endpoints : List EndpointSpec} {version : Nat}
    {rep : Replica} {read : ReadTask} (starts : Starts world endpoints rep read)
    (counted : Counted endpoints version rep) : Began endpoints rep read.key read where
  keyed := rfl
  reached := by
    rw [starts.key]
    exact Nat.le_refl _
  seen := by
    rw [starts.seen, starts.key]
    simp only [seenAt, requestKey, counted.generations]
    exact (List.take_length).symm

/-- What is computed now contains every write whose invalidation was processed. -/
theorem Computes.fresh {world : World} {endpoints : List EndpointSpec} {s : State} {rep : Replica}
    {key : CacheKey} {cutOff : Bool} {entry : Entry} {flight : Flight} {data : Data}
    (computes : Computes world s rep key cutOff entry flight data)
    (counted : Counted endpoints s.version rep) : Fresh (seenAt endpoints rep key) entry.snapshot := by
  rw [computes.snapshot]
  exact counted.seenAt_le key

/-- What an aligned hit takes from Redis contains them too. -/
theorem Promotes.fresh {world : World} {endpoints : List EndpointSpec} {s : State} {r : Nat}
    {rep : Replica} {key : CacheKey} {entry : Entry} {flight : Flight} {stored : Stored}
    (promotes : Promotes world s rep key entry flight stored) (running : s.replicas r = some rep)
    (aligned : hitsAligned world s (.probe r key true) = true)
    (began : Began endpoints rep key flight.read)
    (storedFresh : Fresh stored.seen stored.snapshot) :
    Fresh (seenAt endpoints rep key) entry.snapshot := by
  intro version seen
  have covered : flight.read.seen.all (fun version =>
      stored.seen.any (fun other => decide (version ≤ other))) = true := by
    simpa [hitsAligned, running, promotes.flying, promotes.found] using aligned
  rw [← began.seen] at seen
  obtain ⟨other, member, below⟩ := List.any_eq_true.mp (List.all_eq_true.mp covered version seen)
  have atMost : version ≤ other := by simpa using below
  rw [promotes.snapshot]
  exact Nat.le_trans atMost (storedFresh other member)

/-- A replica that boots knows nothing. -/
theorem replicaInv_boot (endpoints : List EndpointSpec) (version : Nat) :
    ReplicaInv endpoints version {} where
  generations _ := rfl
  processed := by simp
  inbox := by simp
  writes := by simp
  reads := by simp
  flights := by simp
  held key entry holds := by simp [Replica.Holds] at holds

/-- A step whose hits are aligned keeps what holds of a replica. -/
theorem replicaInv_moves {world : World} {endpoints : List EndpointSpec} {s s' : State}
    {label : Label} {rep rep' : Replica} (taken : step world endpoints s label = some s')
    (inv : Inv endpoints s) (aligned : hitsAligned world s label = true)
    (moves : Moves world endpoints s label rep rep')
    (holds : ReplicaInv endpoints s.version rep) : ReplicaInv endpoints s'.version rep' := by
  obtain ⟨counted, grows⟩ := moves_counted taken inv moves holds.toCounted
  refine { counted with reads := ?_, flights := ?_, held := ?_ }
  · intro task read after
    rcases moves.reads after with ⟨earlier, before, continues⟩ | starts
    · have began := (holds.reads task earlier before).grow grows
      rw [continues]
      exact ⟨rfl, began.reached, began.seen⟩
    · exact (Starts.began starts holds.toCounted).grow grows
  · intro key flight after
    rcases moves.flights after with ⟨earlier, before, same⟩ | ⟨task, asked, rfl⟩
    · exact same ▸ (holds.flights key earlier before).grow grows
    · exact (holds.reads task flight.read asked).grow grows
  · intro key entry after
    have fresh : Reached rep key ∧ Fresh (seenAt endpoints rep key) entry.snapshot := by
      rcases moves.holds after with before | ⟨r, cutOff, flight, data, running, rfl, computes⟩ |
        ⟨r, flight, stored, running, rfl, promotes⟩
      · exact holds.held key entry before
      · exact ⟨(holds.flights key flight computes.flying).reached,
          Computes.fresh computes holds.toCounted⟩
      · have began := holds.flights key flight promotes.flying
        exact ⟨began.reached,
          Promotes.fresh promotes running aligned began (inv.l2 _ stored promotes.found)⟩
    rw [grows.seenAt key fresh.1]
    exact ⟨grows.reached key fresh.1, fresh.2⟩

/-- A step whose hits are aligned keeps the invariant. -/
theorem inv_step {world : World} {endpoints : List EndpointSpec} {s s' : State} {label : Label}
    (inv : Inv endpoints s) (aligned : hitsAligned world s label = true)
    (taken : step world endpoints s label = some s') : Inv endpoints s' := by
  have effects := step_effects taken
  refine ⟨?_, ?_, ?_⟩
  · intro r rep' running
    rcases step_replica taken running with rfl | ⟨rep, before, moves⟩
    · exact replicaInv_boot endpoints s'.version
    · exact replicaInv_moves taken inv aligned moves (inv.replicas r rep before)
  · intro name stored found
    rcases effects.l2 name stored found with before |
      ⟨r, rep, key, flight, entry, running, flying, phase, _, rfl⟩
    · exact inv.l2 name stored before
    · have replica := inv.replicas r rep running
      have held := replica.held key entry (Or.inr (Or.inl ⟨flight, flying, Or.inl phase⟩))
      rw [(replica.flights key flight flying).seen]
      exact held.2
  · intro answer member
    rcases effects.answers answer member with before | ⟨r, rep, task, running, asked, result⟩
    · exact inv.answers answer before
    · have replica := inv.replicas r rep running
      have held := replica.held answer.read.key answer.entry
        (Or.inr (Or.inr ⟨task, answer.read, asked, rfl, result⟩))
      rw [(replica.reads task answer.read asked).seen]
      exact held.2

theorem inv_initial (endpoints : List EndpointSpec) (data : Data) :
    Inv endpoints (initial data) where
  replicas := by simp [initial]
  l2 := by simp [initial]
  answers := by simp [initial]

/-- In a run whose Redis hits are all aligned, every read is answered from a snapshot that
contains each write whose invalidation its replica had processed when it began. -/
theorem answers_fresh (world : World) (endpoints : List EndpointSpec) (data : Data) (s : State)
    (run : Transitions.Reaches (Transitions.guarded (hitsAligned world) (step world endpoints))
      (initial data) s) :
    ∀ answer ∈ s.answers, ∀ version ∈ answer.read.seen, version ≤ answer.entry.snapshot := by
  have inv : Inv endpoints s := run.guarded_invariant (inv_initial endpoints data)
    (fun before label next holds aligned taken => inv_step holds aligned taken)
  intro answer member
  exact inv.answers answer member

/-! ## Two replicas -/

/-- The price of an instrument; every caller gets the same. -/
def quotes : EndpointSpec where
  id := "quotes".str
  path := "/quotes".str
  ttl := "5s".str
  tables := ["core.quotes".str]
  sql := "SELECT price FROM core.quotes".str

/-- A database in which the price is the given one. -/
def priced (price : Nat) : Data where
  backends _ _ := .ok ⟨.postgres, fun _ _ => .ok [[("price".str, Json.ofNat price)]]⟩
  forward _ _ _ _ := (502, [])
  forward_origin := unreachable_alike

def quotesWorld : World := World.plain (fun _ _ => .ok [])

def quotesKey (gen : Nat) : CacheKey := ⟨"quotes".str, gen, []⟩

/-- A read of the price that runs alone on a replica under some generation. -/
def readAlone (r gen : Nat) : List Label :=
  [.start r 0 0 {}, .enter r 0, .probe r (quotesKey gen) true, .compute r (quotesKey gen) false,
    .store r (quotesKey gen) true, .keep r (quotesKey gen), .answer r 0]

/-- A read of the price that Redis answers. -/
def readShared (r gen : Nat) : List Label :=
  [.start r 0 0 {}, .enter r 0, .probe r (quotesKey gen) true, .keep r (quotesKey gen), .answer r 0]

/-- A write on the first replica, published to both. -/
def writeOnFirst (price : Nat) : List Label :=
  [.commit 0 0 "core".str "quotes".str (priced price), .invalidate 0 0, .publish 0 0]

/-- Both replicas boot, and the first one's entry is read by the second under a generation
that stands for the same write on both. -/
def shared : List Label :=
  [.boot 0, .boot 1] ++ writeOnFirst 1 ++ readAlone 0 1 ++ [.deliver 1] ++ readShared 1 1

theorem shared_fresh : ∃ s,
    Transitions.Reaches
        (Transitions.guarded (hitsAligned quotesWorld) (step quotesWorld [quotes]))
        (initial (priced 0)) s ∧
      s.answers.map (fun a => (a.read.seen, a.entry.snapshot)) = [([1], 1), ([1], 1)] ∧
        ∀ answer ∈ s.answers, ∀ version ∈ answer.read.seen, version ≤ answer.entry.snapshot := by
  have ran : (Transitions.run
      (Transitions.guarded (hitsAligned quotesWorld) (step quotesWorld [quotes]))
      (initial (priced 0)) shared).map (fun s => s.answers.map (fun a =>
        (a.read.seen, a.entry.snapshot))) = some [([1], 1), ([1], 1)] := by decide +kernel
  obtain ⟨s, reached, answers⟩ := Option.map_eq_some_iff.mp ran
  exact ⟨s, ⟨shared, reached⟩, answers, answers_fresh quotesWorld [quotes] (priced 0) s
    ⟨shared, reached⟩⟩

/-- The first replica hears its own message and reads under generation 2 what its first
write left; then a second write takes the other replica, too, to generation 2. -/
def echoed : List Label :=
  [.boot 0, .boot 1] ++ writeOnFirst 1 ++ [.deliver 0, .deliver 1] ++ readAlone 0 2 ++
    writeOnFirst 2 ++ [.deliver 1] ++ readShared 1 2

/-- The second replica answers with the price before a write that it has processed. -/
theorem echoed_stale : ∃ s, Transitions.Reaches (step quotesWorld [quotes]) (initial (priced 0)) s ∧
    ∃ answer ∈ s.answers, answer.read.seen = [1, 2] ∧ answer.entry.snapshot = 1 ∧
      answer.entry.body.bytes = Text.utf8 "[\x7b\"price\":1\x7d]".str ∧
      ¬∀ version ∈ answer.read.seen, version ≤ answer.entry.snapshot := by
  have ran : (Transitions.run (step quotesWorld [quotes]) (initial (priced 0)) echoed).map
      (fun s => s.answers.map (fun a =>
        (a.read.seen, a.entry.snapshot, a.entry.body.bytes))) =
      some [([1, 1], 1, Text.utf8 "[\x7b\"price\":1\x7d]".str),
        ([1, 2], 1, Text.utf8 "[\x7b\"price\":1\x7d]".str)] := by decide +kernel
  obtain ⟨s, reached, answers⟩ := Option.map_eq_some_iff.mp ran
  have last : ([1, 2], 1, Text.utf8 "[\x7b\"price\":1\x7d]".str) ∈
      s.answers.map (fun a => (a.read.seen, a.entry.snapshot, a.entry.body.bytes)) := by
    rw [answers]
    simp
  obtain ⟨answer, member, parts⟩ := List.mem_map.mp last
  obtain ⟨seen, snapshot, body⟩ : answer.read.seen = [1, 2] ∧ answer.entry.snapshot = 1 ∧
      answer.entry.body.bytes = Text.utf8 "[\x7b\"price\":1\x7d]".str := by simpa using parts
  refine ⟨s, ⟨echoed, reached⟩, answer, member, seen, snapshot, body, fun fresh => ?_⟩
  have covers := fresh 2 (by simp [seen])
  omega

end LumidPlatform.Read.Freshness
