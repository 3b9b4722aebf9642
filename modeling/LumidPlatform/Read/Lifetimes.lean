import Mathlib.Logic.Function.Basic
import LumidPlatform.Lib.Transitions
import LumidPlatform.Read.Cache

/-!
# How old a cached body is

Replicas share one Redis, and time passes. A body lives in Redis from the moment it is
stored, and in the memory of a replica from the moment it is kept there, also when it comes
from Redis. So a body may be served for both lifetimes after the query that produced it, and
no longer than that, but for what storing and fetching take.

The moment a query came to its end is recorded with each body for the statements, and
whether a body was fetched; both decide nothing. Times are in nanoseconds.
-/

namespace LumidPlatform.Read.Lifetimes

open Transitions LumidPlatform.Read.Cache

/-! ## States -/

/-- A body, with the moment at which its query came to its end. -/
structure Dated where
  body : CachedBody
  computed : Nat
  fetched : Bool

/-- A body in the memory of a replica. -/
structure Held where
  dated : Dated
  inserted : Nat

/-- A value in Redis, with the seconds it was stored for. -/
structure Stored where
  raw : Bytes
  computed : Nat
  inserted : Nat
  seconds : Nat

/-- How far the single flight of a key has come; a body that is there was obtained at some
moment, from the query or from Redis. -/
inductive Phase where
  | probing
  | computing
  | storing (dated : Dated)
  | keeping (dated : Dated) (since : Nat)

structure Replica where
  l1 : CacheKey → Option Held := fun _ => none
  flights : CacheKey → Option Phase := fun _ => none

/-- A body that a request was answered with, and when. -/
structure Served where
  key : CacheKey
  dated : Dated
  at_ : Nat

structure State where
  now : Nat := 0
  replicas : Nat → Replica := fun _ => {}
  l2 : Str → Option Stored := fun _ => none
  served : List Served := []

inductive Label where
  | wait (time : Nat)
  | boot (r : Nat)
  /-- A request arrives at a replica. -/
  | request (r : Nat) (key : CacheKey)
  /-- Redis answers, or fails to. -/
  | probe (r : Nat) (key : CacheKey) (reached : Bool)
  /-- The query of a flight comes to its end. -/
  | finish (r : Nat) (key : CacheKey) (result : Option Bytes)
  | store (r : Nat) (key : CacheKey) (reached : Bool)
  | keep (r : Nat) (key : CacheKey)
  /-- An entry goes before its time. -/
  | evict (r : Nat) (key : CacheKey)
  | drop (name : Str)

/-! ## Steps -/

/-- `moka` has dropped an entry once its lifetime is over. -/
def Held.live (now : Nat) (held : Held) : Bool :=
  now < held.inserted + held.dated.body.ttl.nanos

/-- Redis has dropped a value once its seconds are over. -/
def Stored.live (now : Nat) (stored : Stored) : Bool :=
  now < stored.inserted + stored.seconds * 1000000000

/-- The seconds that `SETEX` is called with. -/
def setexSeconds (ttl : Duration) : Nat := max ttl.asSecs 1

/-- What a cache is made of: the lifetime of the bodies of each endpoint. -/
structure Setting where
  crates : Crates
  ttl : Str → Duration
  useL2 : Bool

namespace State

variable (setting : Setting)

/-- A replica is changed. -/
def put (s : State) (r : Nat) (replica : Replica) : State :=
  { s with replicas := Function.update s.replicas r replica }

/-- The flight of a key moves to a phase, or ends. -/
def advance (s : State) (r : Nat) (key : CacheKey) (phase : Option Phase) : State :=
  s.put r { s.replicas r with flights := Function.update (s.replicas r).flights key phase }

/-- `try_get_with`: a live body answers the request; otherwise its key has one flight. -/
def request (s : State) (r : Nat) (key : CacheKey) : State :=
  match ((s.replicas r).l1 key).filter (Held.live s.now) with
  | some held => { s with served := s.served ++ [⟨key, held.dated, s.now⟩] }
  | none =>
    if ((s.replicas r).flights key).isSome then s
    else s.advance r key (some (if setting.useL2 then .probing else .computing))

/-- `GET`: a live value that can be decoded is the body, with a new lifetime. -/
def probe (s : State) (r : Nat) (key : CacheKey) (reached : Bool) : Option State :=
  match (s.replicas r).flights key with
  | some .probing =>
    let found := ((s.l2 (key.redisKey setting.crates)).filter (Stored.live s.now)).bind
      (fun stored => (decodeL2 stored.raw (setting.ttl key.endpointId)).map
        (fun body => (⟨body, stored.computed, true⟩ : Dated)))
    match reached, found with
    | true, some dated => some (s.advance r key (some (.keeping dated s.now)))
    | _, _ => some (s.advance r key (some .computing))
  | _ => none

/-- An error ends the flight; a body goes on to Redis. -/
def finish (s : State) (r : Nat) (key : CacheKey) (result : Option Bytes) : Option State :=
  match (s.replicas r).flights key with
  | some .computing =>
    some (s.advance r key (result.map (fun bytes =>
      let dated : Dated :=
        ⟨CachedBody.new setting.crates bytes (setting.ttl key.endpointId), s.now, false⟩
      if setting.useL2 then .storing dated else .keeping dated s.now)))
  | _ => none

/-- `SETEX`, whose failure is ignored. -/
def store (s : State) (r : Nat) (key : CacheKey) (reached : Bool) : Option State :=
  match (s.replicas r).flights key with
  | some (.storing dated) =>
    let stored : Stored :=
      ⟨encodeL2 dated.body, dated.computed, s.now, setexSeconds (setting.ttl key.endpointId)⟩
    some { s.advance r key (some (.keeping dated dated.computed)) with
      l2 :=
        if reached then Function.update s.l2 (key.redisKey setting.crates) (some stored)
        else s.l2 }
  | _ => none

/-- The body is kept, and answers the requests that wait for it. -/
def keep (s : State) (r : Nat) (key : CacheKey) : Option State :=
  match (s.replicas r).flights key with
  | some (.keeping dated _) =>
    some { s.put r {
      l1 := Function.update (s.replicas r).l1 key (some ⟨dated, s.now⟩)
      flights := Function.update (s.replicas r).flights key none } with
      served := s.served ++ [⟨key, dated, s.now⟩] }
  | _ => none

end State

def step (setting : Setting) (s : State) : Label → Option State
  | .wait time => some { s with now := s.now + time }
  | .boot r => some (s.put r {})
  | .request r key => some (s.request setting r key)
  | .probe r key reached => s.probe setting r key reached
  | .finish r key result => s.finish setting r key result
  | .store r key reached => s.store setting r key reached
  | .keep r key => s.keep r key
  | .evict r key =>
    some (s.put r { s.replicas r with l1 := Function.update (s.replicas r).l1 key none })
  | .drop name => some { s with l2 := Function.update s.l2 name none }

/-- The condition on a step: a body is stored, and kept, within some time after it was
obtained. -/
def prompt (delay : Nat) (s : State) : Label → Bool
  | .store r key _ =>
    match (s.replicas r).flights key with
    | some (.storing dated) => s.now ≤ dated.computed + delay
    | _ => true
  | .keep r key =>
    match (s.replicas r).flights key with
    | some (.keeping _ since) => s.now ≤ since + delay
    | _ => true
  | _ => true

/-! ## Names in Redis -/

/-- Only keys of one endpoint have the same name. -/
theorem endpointId_of_redisKey {crates : Crates} {key other : CacheKey}
    (same : key.redisKey crates = other.redisKey crates) : key.endpointId = other.endpointId := by
  have tails : key.endpointId ++ ':' :: Text.showNat key.gen =
      other.endpointId ++ ':' :: Text.showNat other.gen := by
    have apart : ∀ k : CacheKey, k.redisKey crates =
        ("rc:v1:".str ++ (k.endpointId ++ ':' :: Text.showNat k.gen) ++ [':']) ++
          crates.sha256Hex (Text.utf8 k.paramsCanon) := by
      intro k
      simp [CacheKey.redisKey, String.str]
    rw [apart, apart] at same
    have cut := (List.append_inj' same (by rw [crates.sha256Hex_length, crates.sha256Hex_length])).1
    exact List.append_cancel_left (List.append_cancel_right cut)
  have plain : ∀ gen : Nat, ∀ c ∈ (Text.showNat gen).reverse, decide (c ≠ ':') = true := by
    intro gen c member
    have digit := Text.isAsciiDigit_of_mem_showNat (List.mem_reverse.mp member)
    refine decide_eq_true ?_
    rintro rfl
    exact absurd digit (by decide)
  have reversed := congrArg (fun s => s.reverse.dropWhile (fun c => decide (c ≠ ':'))) tails
  simp only [List.reverse_append, List.reverse_cons, List.append_assoc,
    List.singleton_append] at reversed
  rw [List.dropWhile_append_of_pos (plain _), List.dropWhile_append_of_pos (plain _),
    List.dropWhile_cons_of_neg (by decide), List.dropWhile_cons_of_neg (by decide)] at reversed
  exact List.reverse_injective (List.cons.inj reversed).2

/-! ## Lifetimes -/

variable {setting : Setting} {delay : Nat}

/-- How long Redis keeps a body of a key, in nanoseconds. -/
def inRedis (setting : Setting) (key : CacheKey) : Nat :=
  setexSeconds (setting.ttl key.endpointId) * 1000000000

/-- The last moment at which a body can have been obtained by a flight. -/
def latest (setting : Setting) (delay : Nat) (key : CacheKey) (dated : Dated) : Nat :=
  dated.computed + if dated.fetched then delay + inRedis setting key else 0

/-- What is known of the phase of a flight. -/
def SoundPhase (setting : Setting) (delay : Nat) (key : CacheKey) : Phase → Prop
  | .probing | .computing => True
  | .storing dated => dated.body.ttl = setting.ttl key.endpointId ∧ dated.fetched = false
  | .keeping dated since =>
    dated.body.ttl = setting.ttl key.endpointId ∧ since ≤ latest setting delay key dated

/-- What is known of a replica. -/
structure ReplicaInv (setting : Setting) (delay : Nat) (replica : Replica) : Prop where
  held : ∀ key held, replica.l1 key = some held →
    held.dated.body.ttl = setting.ttl key.endpointId ∧
      held.inserted ≤ latest setting delay key held.dated + delay
  flights : ∀ key phase, replica.flights key = some phase → SoundPhase setting delay key phase

structure Inv (setting : Setting) (delay : Nat) (s : State) : Prop where
  replicas : ∀ r, ReplicaInv setting delay (s.replicas r)
  stored : ∀ (key : CacheKey) stored, s.l2 (key.redisKey setting.crates) = some stored →
    stored.seconds = setexSeconds (setting.ttl key.endpointId) ∧
      stored.inserted ≤ stored.computed + delay
  served : ∀ served ∈ s.served, served.at_ ≤
    latest setting delay served.key served.dated + delay +
      (setting.ttl served.key.endpointId).nanos

variable {s next : State} {r : Nat} {key : CacheKey} {replica : Replica}

theorem Inv.put (inv : Inv setting delay s) (sound : ReplicaInv setting delay replica) :
    Inv setting delay (s.put r replica) where
  replicas other := by
    dsimp only [State.put]
    by_cases same : other = r
    · rw [same, Function.update_self]
      exact sound
    · rw [Function.update_of_ne same]
      exact inv.replicas other
  stored := inv.stored
  served := inv.served

/-- A flight that moves on or ends leaves the others as they are. -/
theorem ReplicaInv.update (inv : ReplicaInv setting delay replica) {phase : Option Phase}
    (sound : ∀ next, phase = some next → SoundPhase setting delay key next) :
    ReplicaInv setting delay
      { replica with flights := Function.update replica.flights key phase } where
  held := inv.held
  flights other next there := by
    dsimp only at there
    by_cases same : other = key
    · subst same
      rw [Function.update_self] at there
      exact sound next there
    · rw [Function.update_of_ne same] at there
      exact inv.flights other next there

theorem Inv.advance (inv : Inv setting delay s) {phase : Option Phase}
    (sound : ∀ next, phase = some next → SoundPhase setting delay key next) :
    Inv setting delay (s.advance r key phase) :=
  inv.put ((inv.replicas r).update sound)

/-! ## Steps -/

/-- A request that finds a live body is served within its lifetime. -/
theorem Inv.request (inv : Inv setting delay s) : Inv setting delay (s.request setting r key) := by
  rw [State.request]
  cases found : ((s.replicas r).l1 key).filter (Held.live s.now) with
  | none =>
    dsimp only
    split_ifs
    · exact inv
    · refine inv.advance fun next opened => ?_
      cases opened
      trivial
    · refine inv.advance fun next opened => ?_
      cases opened
      trivial
  | some held =>
    obtain ⟨there, live⟩ := Option.filter_eq_some_iff.mp found
    obtain ⟨ttl, inserted⟩ := (inv.replicas r).held key held there
    refine { inv with served := fun served member => ?_ }
    rcases List.mem_append.mp member with earlier | new
    · exact inv.served served earlier
    · rw [List.mem_singleton.mp new]
      have before := of_decide_eq_true live
      rw [ttl] at before
      dsimp only
      omega

theorem ttl_of_decodeL2 {raw : Bytes} {ttl : Duration} {body : CachedBody}
    (read : decodeL2 raw ttl = some body) : body.ttl = ttl := by
  unfold decodeL2 at read
  split at read
  · cases read
    rfl
  · cases read

/-- A body that is fetched was stored within its time in Redis. -/
theorem Inv.probe (inv : Inv setting delay s) {reached : Bool}
    (stepped : s.probe setting r key reached = some next) : Inv setting delay next := by
  rw [State.probe] at stepped
  split at stepped
  · dsimp only at stepped
    split at stepped
    · rename_i dated found
      cases stepped
      refine inv.advance fun next phase => ?_
      cases phase
      obtain ⟨stored, there, decoded⟩ := Option.bind_eq_some_iff.mp found
      obtain ⟨kept, live⟩ := Option.filter_eq_some_iff.mp there
      obtain ⟨body, read, rfl⟩ := Option.map_eq_some_iff.mp decoded
      obtain ⟨seconds, inserted⟩ := inv.stored key stored kept
      have before := of_decide_eq_true live
      rw [seconds] at before
      refine ⟨ttl_of_decodeL2 read, ?_⟩
      simp only [latest, if_true, inRedis]
      omega
    · cases stepped
      refine inv.advance fun next phase => ?_
      cases phase
      trivial
  · cases stepped

theorem Inv.finish (inv : Inv setting delay s) {result : Option Bytes}
    (stepped : s.finish setting r key result = some next) : Inv setting delay next := by
  rw [State.finish] at stepped
  split at stepped
  · cases stepped
    refine inv.advance fun next phase => ?_
    obtain ⟨bytes, _, rfl⟩ := Option.map_eq_some_iff.mp phase
    dsimp only
    split_ifs
    · exact ⟨rfl, rfl⟩
    · exact ⟨rfl, Nat.le_add_right _ _⟩
  · cases stepped

/-- A body is stored promptly. -/
theorem Inv.store (inv : Inv setting delay s) {reached : Bool}
    (soon : prompt delay s (.store r key reached) = true)
    (stepped : s.store setting r key reached = some next) : Inv setting delay next := by
  rw [State.store] at stepped
  split at stepped
  · rename_i dated phase
    cases stepped
    have sound := (inv.replicas r).flights key _ phase
    have moved : Inv setting delay
        (s.advance r key (some (.keeping dated dated.computed))) := by
      refine inv.advance fun next there => ?_
      cases there
      exact ⟨sound.1, Nat.le_add_right _ _⟩
    refine { moved with stored := fun other stored there => ?_ }
    dsimp only at there
    split_ifs at there
    · by_cases same : other.redisKey setting.crates = key.redisKey setting.crates
      · rw [same, Function.update_self] at there
        cases there
        rw [endpointId_of_redisKey same]
        simp only [prompt, phase, decide_eq_true_eq] at soon
        exact ⟨rfl, soon⟩
      · rw [Function.update_of_ne same] at there
        exact inv.stored other stored there
    · exact inv.stored other stored there
  · cases stepped

/-- A body is kept promptly, and serves the requests that wait for it at once. -/
theorem Inv.keep (inv : Inv setting delay s) (soon : prompt delay s (.keep r key) = true)
    (stepped : s.keep r key = some next) : Inv setting delay next := by
  rw [State.keep] at stepped
  split at stepped
  · rename_i dated since phase
    cases stepped
    obtain ⟨ttl, obtained⟩ := (inv.replicas r).flights key _ phase
    simp only [prompt, phase, decide_eq_true_eq] at soon
    have ended : ReplicaInv setting delay
        { s.replicas r with flights := Function.update (s.replicas r).flights key none } :=
      (inv.replicas r).update fun next absent => nomatch absent
    have kept : ReplicaInv setting delay
        { l1 := Function.update (s.replicas r).l1 key (some ⟨dated, s.now⟩)
          flights := Function.update (s.replicas r).flights key none } := by
      refine { ended with held := fun other held there => ?_ }
      dsimp only at there
      by_cases same : other = key
      · subst same
        rw [Function.update_self] at there
        cases there
        exact ⟨ttl, by dsimp only; omega⟩
      · rw [Function.update_of_ne same] at there
        exact (inv.replicas r).held other held there
    refine { inv.put kept with served := fun served member => ?_ }
    rcases List.mem_append.mp member with earlier | new
    · exact inv.served served earlier
    · rw [List.mem_singleton.mp new]
      dsimp only
      omega
  · cases stepped

theorem Inv.step (inv : Inv setting delay s) {label : Label} (soon : prompt delay s label = true)
    (stepped : step setting s label = some next) : Inv setting delay next := by
  cases label with
  | wait time =>
    cases stepped
    exact { inv with }
  | boot r =>
    cases stepped
    exact inv.put ⟨fun _ _ absent => (nomatch absent), fun _ _ absent => (nomatch absent)⟩
  | request r key =>
    cases stepped
    exact inv.request
  | probe r key reached => exact inv.probe stepped
  | finish r key result => exact inv.finish stepped
  | store r key reached => exact inv.store soon stepped
  | keep r key => exact inv.keep soon stepped
  | evict r key =>
    cases stepped
    refine inv.put { inv.replicas r with held := fun other held there => ?_ }
    dsimp only at there
    by_cases same : other = key
    · rw [same, Function.update_self] at there
      cases there
    · rw [Function.update_of_ne same] at there
      exact (inv.replicas r).held other held there
  | drop name =>
    cases stepped
    refine { inv with stored := fun other stored there => ?_ }
    dsimp only at there
    by_cases same : other.redisKey setting.crates = name
    · rw [same, Function.update_self] at there
      cases there
    · rw [Function.update_of_ne same] at there
      exact inv.stored other stored there

theorem Inv.initial : Inv setting delay {} where
  replicas _ := ⟨fun _ _ absent => (nomatch absent), fun _ _ absent => (nomatch absent)⟩
  stored _ _ absent := nomatch absent
  served _ member := nomatch member

/-- In every run whose bodies are stored and kept promptly, a body is served no longer than
its lifetime after its query came to its end; one that was fetched, no longer than that and
its time in Redis together. -/
theorem served_within {labels : List Label} {s : State}
    (ran : run (guarded (prompt delay) (step setting)) {} labels = some s) :
    ∀ served ∈ s.served,
      let ttl := (setting.ttl served.key.endpointId).nanos
      if served.dated.fetched then
        served.at_ ≤ served.dated.computed + ttl +
          setexSeconds (setting.ttl served.key.endpointId) * 1000000000 + 2 * delay
      else served.at_ ≤ served.dated.computed + ttl + delay := by
  have inv : Inv setting delay s := by
    refine run_invariant (fun state label next holds taken => ?_) Inv.initial ran
    obtain ⟨soon, stepped⟩ := guarded_eq_some.mp taken
    exact holds.step soon stepped
  intro served member
  have bounded := inv.served served member
  unfold latest inRedis at bounded
  dsimp only
  split_ifs at bounded ⊢ <;> omega

/-! ## Two replicas -/

/-- Bodies that live for half a minute. -/
def halfMinute : Setting := ⟨.plain, fun _ => .ofSecs 30, true⟩

def quotesKey : CacheKey := ⟨"quotes".str, 0, []⟩

/-- A query on the first replica; late in the lifetime of its body the second fetches it, and
answers with it late in the lifetime it has there. -/
def handedOn : List Label :=
  [.request 0 quotesKey, .probe 0 quotesKey true, .finish 0 quotesKey (some (Text.utf8 "[]".str)),
    .store 0 quotesKey true, .keep 0 quotesKey, .wait 29000000000,
    .request 1 quotesKey, .probe 1 quotesKey true, .keep 1 quotesKey, .wait 29000000000,
    .request 1 quotesKey]

theorem handedOn_served :
    (run (guarded (prompt 0) (step halfMinute)) {} handedOn).map
      (fun s => s.served.map (fun served => (served.at_, served.dated.computed))) =
        some [(0, 0), (29000000000, 0), (58000000000, 0)] := by
  decide +kernel

/-- A body is served almost twice its lifetime after its query. -/
theorem handedOn_old : ∃ s, run (step halfMinute) {} handedOn = some s ∧
    ∃ served ∈ s.served,
      served.dated.computed + (halfMinute.ttl served.key.endpointId).nanos < served.at_ := by
  obtain ⟨s, ran, answers⟩ := Option.map_eq_some_iff.mp handedOn_served
  have last : (58000000000, 0) ∈
      s.served.map (fun served => (served.at_, served.dated.computed)) := by
    rw [answers]
    simp
  obtain ⟨served, member, same⟩ := List.mem_map.mp last
  obtain ⟨at_, computed⟩ := Prod.mk.inj same
  refine ⟨s, run_of_guarded ran, served, member, ?_⟩
  rw [at_, computed]
  show 0 + 30 * 1000000000 < 58000000000
  norm_num

theorem handedOn_within : ∃ s, run (guarded (prompt 0) (step halfMinute)) {} handedOn = some s ∧
    ∀ served ∈ s.served,
      let ttl := (halfMinute.ttl served.key.endpointId).nanos
      if served.dated.fetched then
        served.at_ ≤ served.dated.computed + ttl +
          setexSeconds (halfMinute.ttl served.key.endpointId) * 1000000000 + 2 * 0
      else served.at_ ≤ served.dated.computed + ttl + 0 := by
  obtain ⟨s, ran, _⟩ := Option.map_eq_some_iff.mp handedOn_served
  exact ⟨s, ran, served_within ran⟩

end LumidPlatform.Read.Lifetimes
