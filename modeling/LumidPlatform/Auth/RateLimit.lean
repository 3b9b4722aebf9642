import LumidPlatform.Auth.Concurrency
import LumidPlatform.Lib.FixedWindow
import LumidPlatform.Llm.Settings

/-!
# Rate limits

A limiter counts the calls of each key in fixed windows of the clock, under the limit of the tier
that the key has. It counts in a `u32`, and a release build lets that number start over. So the
calls of a key that are allowed in a window are its first ones, up to the limit, as long as there
are fewer calls than a `u32` can count.
-/

namespace LumidPlatform.Auth.RateLimit

open FixedWindow

/-! ## Rates -/

/-- A limit, and the seconds of the window it is for. -/
structure Rate where
  limit : Nat
  window : Nat
  fits : limit < u32Modulus
  positive : 0 < window

/-- The seconds of a unit; one that is not known is a minute. -/
def unitSeconds (unit : Str) : Nat :=
  if unit = "second".str then 1
  else if unit = "minute".str then 60
  else if unit = "hour".str then 3600
  else if unit = "day".str then 86400
  else 60

/-- A unit is at least a second. -/
theorem unitSeconds_pos (unit : Str) : 0 < unitSeconds unit := by
  rw [unitSeconds]
  split_ifs <;> decide

/-- The number of a rate, or sixty. -/
def parseLimit (number : Option Str) : Nat :=
  (number.bind fun s => Llm.parseU32 (Text.trim s)).getD 60

/-- A limit is a number of 32 bits. -/
theorem parseLimit_lt (number : Option Str) : parseLimit number < u32Modulus := by
  rw [parseLimit]
  cases read : number.bind fun s => Llm.parseU32 (Text.trim s) with
  | none => decide
  | some n =>
    obtain ⟨s, -, parsed⟩ := Option.bind_eq_some_iff.mp read
    exact of_decide_eq_true (Option.filter_eq_some_iff.mp parsed).2

/-- `parse_rate`. -/
def parseRate (unicode : Unicode) (spec : Str) : Rate :=
  let parts := spec.splitOn '/'
  let unit := unicode.toLowercase
    (Text.trimEndMatches 's' (Text.trim ((parts[1]?).getD "minute".str)))
  { limit := parseLimit parts[0]?
    window := unitSeconds unit
    fits := parseLimit_lt _
    positive := unitSeconds_pos _ }

/-! ## The limiter -/

/-- `RateLimiter`; a bucket has the window it is in, and the calls of that window. -/
structure RateLimiter where
  anon : Rate
  authed : Rate
  anonSpec : Str
  authedSpec : Str
  buckets : HashMap Entry := ∅

/-- The limiter of two texts, which are kept for the headers. -/
def RateLimiter.new (unicode : Unicode) (anonSpec authedSpec : Str) : RateLimiter where
  anon := parseRate unicode anonSpec
  authed := parseRate unicode authedSpec
  anonSpec := anonSpec
  authedSpec := authedSpec

/-- What is decided of a call, with what its headers say. -/
structure Decision where
  allowed : Bool
  retryAfterS : Nat
  limitSpec : Str
  limit : Nat
  remaining : Nat
  resetS : Nat

/-- Whether a key is of the tier of identities. -/
def isAuthed (key : Str) : Bool := "id:".str.isPrefixOf key || "presented:".str.isPrefixOf key

/-- The rate of a caller, by the form of the key. -/
def RateLimiter.rate (limiter : RateLimiter) (key : Str) : Rate :=
  if isAuthed key then limiter.authed else limiter.anon

/-- `check` at a second of the clock. The clock is an `i64`, so its windows stay far below what a
`u64` holds; the count of a bucket is a `u32`. -/
def RateLimiter.check (limiter : RateLimiter) (key : Str) (now : Nat) : Decision × RateLimiter :=
  let rate := limiter.rate key
  let spec := if isAuthed key then limiter.authedSpec else limiter.anonSpec
  let windowId := now / rate.window
  let found := (limiter.buckets.lookup key).getD ⟨windowId, 0⟩
  let current := if found.window ≠ windowId then ⟨windowId, 0⟩ else found
  let entry := { current with count := (current.count + 1) % u32Modulus }
  let allowed := decide (entry.count ≤ rate.limit)
  let resetS := (windowId + 1) * rate.window - now
  ({ allowed
     retryAfterS := if allowed then 0 else resetS
     limitSpec := spec
     limit := rate.limit
     remaining := rate.limit - entry.count
     resetS },
   { limiter with buckets := limiter.buckets.insert key entry })

/-! ## Calls -/

/-- A call at a moment. -/
structure Call where
  key : Str
  now : Nat

/-- The limiter after a sequence of calls. -/
def RateLimiter.after (limiter : RateLimiter) (calls : List Call) : RateLimiter :=
  calls.foldl (fun limiter call => (limiter.check call.key call.now).2) limiter

/-- What is decided on each call of a sequence. -/
def RateLimiter.decisions (limiter : RateLimiter) : List Call → List (Call × Decision)
  | [] => []
  | call :: rest =>
    let checked := limiter.check call.key call.now
    (call, checked.1) :: checked.2.decisions rest

/-- The window of the key that a call comes in. -/
def RateLimiter.windowOf (limiter : RateLimiter) (call : Call) : Nat :=
  call.now / (limiter.rate call.key).window

/-- The calls of a key and window. -/
def RateLimiter.callsIn (limiter : RateLimiter) (calls : List Call) (key : Str) (window : Nat) :
    Nat :=
  calls.countP fun call => call.key = key ∧ limiter.windowOf call = window

/-- Those that are allowed. -/
def RateLimiter.allowedIn (limiter : RateLimiter) (calls : List Call) (key : Str) (window : Nat) :
    Nat :=
  (limiter.decisions calls).countP fun decided =>
    (decided.1.key = key ∧ limiter.windowOf decided.1 = window) ∧ decided.2.allowed = true

/-- The windows of the calls of a key. -/
def RateLimiter.windowsOf (limiter : RateLimiter) (calls : List Call) (key : Str) : List Nat :=
  (calls.filter fun call => call.key = key).map limiter.windowOf

variable {limiter : RateLimiter} {calls : List Call}

/-- A call counts in the bucket of its key. -/
theorem check_buckets (limiter : RateLimiter) (key : Str) (now : Nat) :
    (limiter.check key now).2.buckets = limiter.buckets.insert key
      (bump u32Modulus (limiter.buckets.lookup key) (now / (limiter.rate key).window)) := by
  rw [RateLimiter.check, bump]
  dsimp only
  rw [ite_not]

/-- A check counts the call in the bucket of its key, and leaves the others. -/
theorem check_lookup (limiter : RateLimiter) (key : Str) (now : Nat) (other : Str) :
    (limiter.check key now).2.buckets.lookup other =
      if key = other then
        some (bump u32Modulus (limiter.buckets.lookup key) (now / (limiter.rate key).window))
      else limiter.buckets.lookup other := by
  rw [check_buckets]
  split_ifs with same
  · subst same
    exact AList.lookup_insert _
  · exact AList.lookup_insert_ne (Ne.symm same)

/-- It is allowed if its count is within the limit. -/
theorem check_allowed (limiter : RateLimiter) (key : Str) (now : Nat) :
    (limiter.check key now).1.allowed = true ↔
      (bump u32Modulus (limiter.buckets.lookup key) (now / (limiter.rate key).window)).count ≤
        (limiter.rate key).limit := by
  rw [RateLimiter.check, bump]
  dsimp only
  rw [decide_eq_true_iff, ite_not]

/-- It leaves the rates. -/
theorem check_rate (limiter : RateLimiter) (key : Str) (now : Nat) :
    (limiter.check key now).2.rate = limiter.rate := rfl

/-- So do any number of checks. -/
theorem after_rate (limiter : RateLimiter) (calls : List Call) :
    (limiter.after calls).rate = limiter.rate := by
  induction calls generalizing limiter with
  | nil => rfl
  | cons call rest inductionHypothesis =>
    rw [RateLimiter.after, List.foldl_cons]
    exact (inductionHypothesis _).trans (check_rate limiter call.key call.now)

/-- The last call is checked after the others. -/
theorem after_snoc (limiter : RateLimiter) (calls : List Call) (call : Call) :
    limiter.after (calls ++ [call]) = ((limiter.after calls).check call.key call.now).2 := by
  rw [RateLimiter.after, List.foldl_append]
  rfl

/-- Its decision comes last. -/
theorem decisions_snoc (limiter : RateLimiter) (calls : List Call) (call : Call) :
    limiter.decisions (calls ++ [call]) =
      limiter.decisions calls ++ [(call, ((limiter.after calls).check call.key call.now).1)] := by
  induction calls generalizing limiter with
  | nil => rfl
  | cons first rest inductionHypothesis =>
    rw [List.cons_append, RateLimiter.decisions, inductionHypothesis]
    rfl

/-- So does its window, among those of its key. -/
theorem windowsOf_snoc (limiter : RateLimiter) (calls : List Call) (call : Call) (key : Str) :
    limiter.windowsOf (calls ++ [call]) key =
      limiter.windowsOf calls key ++ if call.key = key then [limiter.windowOf call] else [] := by
  rw [RateLimiter.windowsOf, List.filter_append, List.map_append, RateLimiter.windowsOf]
  by_cases same : call.key = key <;> simp [same]

/-- A bucket has counted the windows of the calls of its key. -/
theorem after_lookup (fresh : limiter.buckets = ∅) (calls : List Call) (key : Str) :
    (limiter.after calls).buckets.lookup key =
      FixedWindow.after u32Modulus (limiter.windowsOf calls key) := by
  induction calls using List.reverseRecOn with
  | nil =>
    rw [RateLimiter.after, List.foldl_nil, fresh]
    rfl
  | append_singleton calls call inductionHypothesis =>
    rw [after_snoc, check_lookup, after_rate, windowsOf_snoc]
    split_ifs with same
    · subst same
      rw [inductionHypothesis, FixedWindow.after_snoc]
      rfl
    · rw [List.append_nil, inductionHypothesis]

/-- Windows come in order if the calls do. -/
theorem windowsOf_sorted (limiter : RateLimiter)
    (sorted : (calls.map Call.now).Pairwise (· ≤ ·)) (key : Str) :
    (limiter.windowsOf calls key).Pairwise (· ≤ ·) := by
  rw [RateLimiter.windowsOf, List.pairwise_map]
  have kept := (List.pairwise_map.mp sorted).filter fun call => decide (call.key = key)
  refine kept.imp_of_mem fun first second order => ?_
  have firstKey := of_decide_eq_true (List.mem_filter.mp first).2
  have secondKey := of_decide_eq_true (List.mem_filter.mp second).2
  rw [RateLimiter.windowOf, RateLimiter.windowOf, firstKey, secondKey]
  exact Nat.div_le_div_right order

/-- The calls of a window are counted. -/
theorem count_windowsOf (limiter : RateLimiter) (calls : List Call) (key : Str) (window : Nat) :
    (limiter.windowsOf calls key).count window = limiter.callsIn calls key window := by
  rw [RateLimiter.windowsOf, List.count, List.countP_map, List.countP_filter,
    RateLimiter.callsIn]
  refine List.countP_congr fun call _ => ?_
  simp [and_comm]

/-- The last call is counted in its window. -/
theorem callsIn_snoc (limiter : RateLimiter) (calls : List Call) (call : Call) (key : Str)
    (window : Nat) :
    limiter.callsIn (calls ++ [call]) key window = limiter.callsIn calls key window +
      if call.key = key ∧ limiter.windowOf call = window then 1 else 0 := by
  rw [RateLimiter.callsIn, List.countP_append, List.countP_singleton, RateLimiter.callsIn]
  simp only [decide_eq_true_eq]

/-- The last of a sequence of calls is allowed if the count of its window is within the limit. -/
theorem last_allowed (fresh : limiter.buckets = ∅) {call : Call}
    (sorted : ((calls ++ [call]).map Call.now).Pairwise (· ≤ ·)) :
    ((limiter.after calls).check call.key call.now).1.allowed = true ↔
      (limiter.callsIn calls call.key (limiter.windowOf call) + 1) % u32Modulus ≤
        (limiter.rate call.key).limit := by
  have windows := windowsOf_sorted limiter sorted call.key
  rw [windowsOf_snoc, if_pos rfl] at windows
  have counted : bump u32Modulus (FixedWindow.after u32Modulus (limiter.windowsOf calls call.key))
      (limiter.windowOf call) = ⟨limiter.windowOf call,
        (limiter.callsIn calls call.key (limiter.windowOf call) + 1) % u32Modulus⟩ := by
    rw [bump_after windows, count_windowsOf]
  rw [check_allowed, after_rate, after_lookup fresh, ← RateLimiter.windowOf, counted]

/-- Of the calls of a key in a window as many are allowed as the counter lets pass. -/
theorem allowedIn_eq (fresh : limiter.buckets = ∅)
    (sorted : (calls.map Call.now).Pairwise (· ≤ ·)) (key : Str) (window : Nat) :
    limiter.allowedIn calls key window =
      admitted u32Modulus (limiter.rate key).limit (limiter.callsIn calls key window) := by
  induction calls using List.reverseRecOn with
  | nil => rfl
  | append_singleton calls call inductionHypothesis =>
    have before : (calls.map Call.now).Pairwise (· ≤ ·) := by
      rw [List.map_append] at sorted
      exact (List.pairwise_append.mp sorted).1
    have allowed := last_allowed fresh sorted
    have earlier := inductionHypothesis before
    rw [RateLimiter.allowedIn] at earlier ⊢
    rw [decisions_snoc, List.countP_append, earlier, callsIn_snoc]
    by_cases here : call.key = key ∧ limiter.windowOf call = window
    · obtain ⟨rfl, rfl⟩ := here
      simp [admitted, allowed]
    · simp [here]

end LumidPlatform.Auth.RateLimit
