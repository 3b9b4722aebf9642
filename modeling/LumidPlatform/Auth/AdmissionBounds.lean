import LumidPlatform.Auth.RateLimit
import LumidPlatform.Auth.Slots

/-!
# What is admitted at most

Of a bucket no more guards are live than its limit, and of a key no more calls are allowed in a
window than its limit. Both are counted in a `u32`, and both hold until its numbers run out: the
count that comes after the largest one is zero, and what was refused is admitted again.
-/

namespace LumidPlatform.Auth

open Transitions RateLimit

/-- No more calls of a key are allowed in a window than the limit of its tier. -/
def WithinLimits (limiter : RateLimiter) (calls : List Call) : Prop :=
  ∀ key window, limiter.allowedIn calls key window ≤ (limiter.rate key).limit

/-- No key is called in a window more often than its bucket can count. -/
def Countable (limiter : RateLimiter) (calls : List Call) : Prop :=
  ∀ key window, limiter.callsIn calls key window < u32Modulus

/-- The limits of the tiers are kept exactly as long as the buckets can count. -/
theorem withinLimits_iff {limiter : RateLimiter} (fresh : limiter.buckets = ∅) {calls : List Call}
    (sorted : (calls.map Call.now).Pairwise (· ≤ ·)) :
    WithinLimits limiter calls ↔ Countable limiter calls := by
  refine forall_congr' fun key => forall_congr' fun window => ?_
  rw [allowedIn_eq fresh sorted]
  exact FixedWindow.admitted_le_iff (limiter.rate key).fits

/-- Whatever tasks take and give back at the same time, as long as no addition finds the largest
number: no bucket has more live guards than its limit, every subtraction finds what it subtracts,
and a bucket counts nothing once nobody asks for it or holds it. And in any sequence of calls with
a clock that does not go back, the limits of the tiers are kept if and only if no key is called in
a window more often than a `u32` counts. -/
theorem admission_bounded_iff (unicode : Unicode) (anonSpec authedSpec : Str) (limits : Limits) :
    (∀ labels state, run (guarded Slots.fits (Slots.step limits)) {} labels = some state →
      Slots.Bounded limits labels state) ∧
    ∀ calls : List Call, (calls.map Call.now).Pairwise (· ≤ ·) →
      (WithinLimits (.new unicode anonSpec authedSpec) calls ↔
        Countable (.new unicode anonSpec authedSpec) calls) :=
  ⟨fun _ _ ran => (Slots.kept_of_run ran).bounded, fun _ sorted => withinLimits_iff rfl sorted⟩

/-- A limiter that allows an identity one call a day. -/
def onceADay : RateLimiter := .new .ascii "60/minute".str "1/day".str

/-- A call of an identity in the first second. -/
def firstCall : Call := ⟨"id:a".str, 0⟩

theorem callsIn_replicate (limiter : RateLimiter) (call : Call) (n : Nat) :
    limiter.callsIn (List.replicate n call) call.key (limiter.windowOf call) = n := by
  rw [RateLimiter.callsIn, List.countP_replicate, decide_eq_true ⟨rfl, rfl⟩, if_pos rfl]

theorem once_limit : (onceADay.rate firstCall.key).limit = 1 := by decide

/-- As many calls in the first second as a `u32` has numbers, and more than one is allowed. -/
theorem day_starts_over :
    ((List.replicate u32Modulus firstCall).map Call.now).Pairwise (· ≤ ·) ∧
      (onceADay.rate firstCall.key).limit = 1 ∧
      1 < onceADay.allowedIn (List.replicate u32Modulus firstCall) firstCall.key
        (onceADay.windowOf firstCall) := by
  have sorted : ((List.replicate u32Modulus firstCall).map Call.now).Pairwise (· ≤ ·) := by
    rw [List.map_replicate]
    exact List.pairwise_replicate_of_refl
  refine ⟨sorted, once_limit, Nat.lt_of_not_le fun within => ?_⟩
  rw [allowedIn_eq rfl sorted, callsIn_replicate, once_limit] at within
  have below := (FixedWindow.admitted_le_iff (by decide)).mp within
  exact Nat.lt_irrefl _ below

end LumidPlatform.Auth
