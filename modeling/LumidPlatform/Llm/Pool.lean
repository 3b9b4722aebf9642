import LumidPlatform.Llm.Settings

/-!
# The pool of local backends

Backends are interned by address: an address that several models or the primary name is one
backend, with one load. A request gets the backends of its model in the order in which they
are to be tried.
-/

namespace LumidPlatform.Llm

/-- What is fixed of a `BackendHandle`. -/
structure BackendHandle where
  url : Str
  maxConcurrency : Nat
  queueRoof : Nat
  tier : Nat
  shortTier : Option Nat
  shortRoof : Nat
  deriving DecidableEq

/-- What changes of it: requests in flight, the latch of the circuit breaker, failures in a
row, and the length of the engine's queue, which is -1 while unknown. The counters are an
`AtomicI32` and an `AtomicU32`: what is added to them wraps. -/
structure Load where
  inflight : Int
  healthy : Bool
  failures : Nat
  queueDepth : Int
  deriving DecidableEq

/-- The loads of all backends, by address. -/
abbrev Loads := Str → Load

def Load.initial : Load := ⟨0, true, 0, -1⟩

/-- `as i32` of a `u32`. -/
def asI32 (n : Nat) : Int := if n < 2 ^ 31 then n else n - 2 ^ 32

/-- An integer as an `i32` that was counted to: `fetch_add` and `fetch_sub` wrap. -/
def wrapI32 (n : Int) : Int := n.bmod (2 ^ 32)

/-- An integer as a `u32` that was counted to. -/
def wrapU32 (n : Nat) : Nat := n % 2 ^ 32

namespace BackendHandle

variable (handle : BackendHandle) (load : Load)

def atQueueRoof : Bool :=
  if handle.queueRoof = 0 then false
  else 0 ≤ load.queueDepth && asI32 handle.queueRoof ≤ load.queueDepth

def atRoof : Bool :=
  if handle.atQueueRoof load then true
  else if handle.maxConcurrency = 0 then false
  else asI32 handle.maxConcurrency ≤ load.inflight

def effectiveTier (short : Bool) : Nat :=
  match handle.shortTier with
  | some tier => if short && load.inflight < asI32 handle.shortRoof then tier else handle.tier
  | none => handle.tier

end BackendHandle

/-! ## Bookkeeping -/

def circuitOpenAfter : Nat := 3

namespace Loads

variable (loads : Loads) (url : Str)

def set (load : Load) : Loads := Function.update loads url load

/-- `acquire`. -/
def acquire : Loads :=
  loads.set url { loads url with inflight := wrapI32 ((loads url).inflight + 1) }

/-- The guard is dropped. -/
def release : Loads :=
  loads.set url { loads url with inflight := wrapI32 ((loads url).inflight - 1) }

def onConnectOk : Loads :=
  loads.set url { loads url with failures := 0, healthy := true }

/-- `fetch_add` gives the count before; one more is what it came to, and wraps as well. -/
def onConnectErr : Loads :=
  let failures := wrapU32 ((loads url).failures + 1)
  loads.set url { loads url with
    failures
    healthy := (loads url).healthy && failures < circuitOpenAfter }

end Loads

/-! ## Interning -/

/-- The settings `key=value` after the address. -/
def suffixPairs (suffix : Str) : List (Str × Str) :=
  (suffix.splitOn '&').filterMap (fun kv =>
    (Text.splitOnce '=' kv).map (fun pair => (Text.trim pair.1, Text.trim pair.2)))

/-- The last value of a key, as the loops over the settings leave it. -/
def lastValue (pairs : List (Str × Str)) (key : Str) : Option Str :=
  List.lookup key pairs.reverse

/-- `parse_suffix`: the address, the tier and the concurrency roof. -/
def parseSuffix (url : Str) : Str × Nat × Option Nat :=
  match Text.splitOnce '#' url with
  | some (base, suffix) =>
    (base, ((lastValue (suffixPairs suffix) "tier".str).bind parseU32).getD 0,
      (lastValue (suffixPairs suffix) "max_concurrency".str).bind parseU32)
  | none => (url, 0, none)

/-- `parse_short_suffix`. -/
def parseShortSuffix (url : Str) : Option Nat × Nat :=
  match Text.splitOnce '#' url with
  | none => (none, 0)
  | some (_, suffix) =>
    match (lastValue (suffixPairs suffix) "short_tier".str).bind parseU32,
        (lastValue (suffixPairs suffix) "short_roof".str).bind parseU32 with
    | some tier, some roof => if 0 < roof then (some tier, roof) else (none, 0)
    | _, _ => (none, 0)

/-- `BackendPool`. -/
structure BackendPool where
  byModel : HashMap (List BackendHandle)
  primary : Option BackendHandle
  all : List BackendHandle
  openrouterUrl : Str

/-- The closure `intern`: the backend of an address, and all backends seen so far. -/
def intern (defaultMaxConcurrency queueRoof : Nat) (all : List BackendHandle) (url : Str) :
    BackendHandle × List BackendHandle :=
  let (base, tier, maxConcurrencyOverride) := parseSuffix url
  let key := Text.trimEndMatches '/' base
  match all.find? (fun handle => handle.url == key) with
  | some handle => (handle, all)
  | none =>
    let (shortTier, shortRoof) := parseShortSuffix url
    let handle : BackendHandle :=
      ⟨key, maxConcurrencyOverride.getD defaultMaxConcurrency, queueRoof, tier, shortTier,
        shortRoof⟩
    (handle, all ++ [handle])

/-- The addresses of one model. -/
def internAll (defaultMaxConcurrency queueRoof : Nat) :
    List BackendHandle → List Str → List BackendHandle × List BackendHandle
  | all, [] => ([], all)
  | all, url :: rest =>
    let (handle, all) := intern defaultMaxConcurrency queueRoof all url
    let (handles, all) := internAll defaultMaxConcurrency queueRoof all rest
    (handle :: handles, all)

/-- The loop over the roster. -/
def internModels (defaultMaxConcurrency queueRoof : Nat) :
    List (Str × List Str) → HashMap (List BackendHandle) → List BackendHandle →
      HashMap (List BackendHandle) × List BackendHandle
  | [], byModel, all => (byModel, all)
  | (model, urls) :: rest, byModel, all =>
    let (handles, all) := internAll defaultMaxConcurrency queueRoof all urls
    let byModel := if handles.isEmpty then byModel else byModel.insert model handles
    internModels defaultMaxConcurrency queueRoof rest byModel all

/-- `intern_backends`: the roster first, then the primary. -/
def internBackends (primaryUrl : Str) (backends : List (Str × List Str))
    (defaultMaxConcurrency queueRoof : Nat) (openrouterUrl : Str) : BackendPool :=
  let (byModel, all) := internModels defaultMaxConcurrency queueRoof backends ∅ []
  if primaryUrl.isEmpty then ⟨byModel, none, all, openrouterUrl⟩
  else
    let (primary, all) := intern defaultMaxConcurrency queueRoof all primaryUrl
    ⟨byModel, some primary, all, openrouterUrl⟩

/-- `from_settings`. -/
def BackendPool.fromSettings (settings : Settings) : BackendPool :=
  internBackends settings.llmBackendUrl settings.llmBackends settings.llmBackendMaxConcurrency
    settings.llmBackendQueueRoof settings.llmOpenrouterUrl

/-! ## The order of trying -/

/-- The key that backends are sorted by. -/
structure Rank where
  unhealthy : Bool
  full : Bool
  tier : Nat
  inflight : Int

/-- The order of tuples. -/
def Rank.le (left right : Rank) : Bool :=
  if left.unhealthy != right.unhealthy then right.unhealthy
  else if left.full != right.full then right.full
  else if left.tier != right.tier then left.tier < right.tier
  else left.inflight ≤ right.inflight

def BackendHandle.rank (loads : Loads) (short : Bool) (handle : BackendHandle) : Rank :=
  ⟨!(loads handle.url).healthy, handle.atRoof (loads handle.url),
    handle.effectiveTier (loads handle.url) short, (loads handle.url).inflight⟩

namespace BackendPool

variable (pool : BackendPool) (loads : Loads)

/-- The backends of a model, unsorted. The primary serves requests without a model, and all
of them where there is no roster. -/
def handlesOf (model : Option Str) : List BackendHandle :=
  let namedUnknown := model.isSome && !pool.byModel.keys.isEmpty &&
    model.all (fun m => !decide (m ∈ pool.byModel))
  match model.bind (fun m => pool.byModel.lookup m) with
  | some handles => handles
  | none => if namedUnknown then [] else pool.primary.toList

/-- `backends_for_class`: healthy backends before the others, those with room before full
ones, lower tiers first, then those with fewer requests in flight. -/
def backendsForClass (model : Option Str) (short : Bool) : List BackendHandle :=
  (pool.handlesOf model).mergeSort
    (fun left right => (left.rank loads short).le (right.rank loads short))

/-- `backends_for`. -/
def backendsFor (model : Option Str) : List BackendHandle :=
  pool.backendsForClass loads model false

/-- The state of a pool and the size of a request decide the order alone. -/
theorem backendsForClass_perm (model : Option Str) (short : Bool) :
    (pool.backendsForClass loads model short).Perm (pool.handlesOf model) :=
  List.mergeSort_perm _ _

theorem backendsForClass_eq_nil {model : Option Str} {short : Bool} :
    pool.backendsForClass loads model short = [] ↔ pool.handlesOf model = [] := by
  rw [← List.isEmpty_iff, ← List.isEmpty_iff,
    (pool.backendsForClass_perm loads model short).isEmpty_eq]

end BackendPool

end LumidPlatform.Llm
