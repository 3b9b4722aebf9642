import LumidPlatform.Auth.Concurrency

/-!
# Limits as they are configured

A limit of zero is documented as no limit. The server sets up a limiter as soon as one of the
two limits is not zero, and raises the other to one. So requests are refused by the
configuration exactly when both limits are zero or neither is, as long as no address is
spelled like a key.
-/

namespace LumidPlatform.Auth

open Transitions

/-- The part of `Settings` that the limiter is made of; zero means unlimited. -/
structure ConcurrencySettings where
  maxConcurrencyPerKey : Nat
  maxConcurrencyPerIp : Nat

/-- The limiter that `serve` sets up. -/
def ConcurrencySettings.limiter (settings : ConcurrencySettings) : Option Limits :=
  if settings.maxConcurrencyPerKey > 0 ∨ settings.maxConcurrencyPerIp > 0 then
    some ⟨max settings.maxConcurrencyPerKey 1, max settings.maxConcurrencyPerIp 1⟩
  else none

/-- A gated request starts or finishes; without a limiter no slots are taken. -/
def gateStep (limiter : Option Limits) (w : World) (label : Label) : Option World :=
  match limiter, label with
  | some limits, label => step limits w label
  | none, .request request => some { w with held := request :: w.held }
  | none, .finish i => (w.held[i]?).map (fun _ => { w with held := w.held.eraseIdx i })

/-- `gate` refuses a request for concurrency. -/
def refused (limiter : Option Limits) (w : World) (request : Request) : Bool :=
  match limiter with
  | some limits => !(acquire limits w.counters request.key request.ip).2
  | none => false

/-! ## What is configured -/

/-- The unfinished requests of a key. -/
def ofKey (w : World) (key : Str) : Nat := w.held.countP (fun request => request.key = key)

/-- The unfinished requests of an address. -/
def ofIp (w : World) (ip : Str) : Nat := w.held.countP (fun request => request.ip = ip)

/-- Some limit that is not zero is reached. -/
def limitReached (settings : ConcurrencySettings) (w : World) (request : Request) : Bool :=
  (settings.maxConcurrencyPerKey ≠ 0 ∧ settings.maxConcurrencyPerKey ≤ ofKey w request.key) ∨
    (settings.maxConcurrencyPerIp ≠ 0 ∧ settings.maxConcurrencyPerIp ≤ ofIp w request.ip)

/-- No address among the request and the unfinished ones is spelled like the key of one. -/
def spelledApart (w : World) (request : Request) : Bool :=
  (request :: w.held).all (fun first => (request :: w.held).all (fun other =>
    first.ip ≠ other.key))

/-- The condition on a step: where there is a limiter, a request that asks is spelled apart. -/
def asksApart (limiter : Option Limits) (w : World) : Label → Bool
  | .request request => limiter.isNone || spelledApart w request
  | .finish _ => true

/-! ## Decisions -/

theorem tryAcquire_granted (counters : Counters) (bucket : Str) (limit : Nat) :
    (tryAcquire counters bucket limit).2 = true ↔ inFlight counters bucket < limit := by
  rw [tryAcquire]
  split_ifs with full
  · simpa using full
  · simpa using full

/-- A request whose buckets differ is admitted exactly if both have room. -/
theorem acquire_granted (limits : Limits) (counters : Counters) {key ip : Str}
    (apart : ip ≠ key) :
    (acquire limits counters key ip).2 = true ↔
      inFlight counters key < limits.perKey ∧ inFlight counters ip < limits.perIp := by
  have keyed := tryAcquire_granted counters key limits.perKey
  have untouched := tryAcquire_inFlight counters key limits.perKey ip
  rw [if_neg (fun both => apart both.2.symm), Nat.add_zero] at untouched
  have addressed := tryAcquire_granted (tryAcquire counters key limits.perKey).1 ip limits.perIp
  rw [untouched] at addressed
  rw [← keyed, ← addressed, acquire]
  rcases tryAcquire counters key limits.perKey with ⟨taken, granted⟩
  cases granted with
  | false => simp
  | true =>
    cases second : tryAcquire taken ip limits.perIp with
    | mk both also => cases also <;> simp [second]

/-- The slots of a bucket that is no address are those of its key. -/
theorem slotsOf_key {held : List Request} {key : Str}
    (apart : ∀ request ∈ held, request.ip ≠ key) :
    slotsOf key held = held.countP (fun request => request.key = key) := by
  induction held with
  | nil => rfl
  | cons request rest inductionHypothesis =>
    have later := inductionHypothesis (fun other member => apart other (.tail _ member))
    rw [slotsOf, List.map_cons, List.sum_cons, ← slotsOf, later, slots,
      if_neg (apart request List.mem_cons_self), List.countP_cons]
    simp only [decide_eq_true_eq]
    omega

/-- The slots of a bucket that is no key are those of its address. -/
theorem slotsOf_ip {held : List Request} {ip : Str}
    (apart : ∀ request ∈ held, ip ≠ request.key) :
    slotsOf ip held = held.countP (fun request => request.ip = ip) := by
  induction held with
  | nil => rfl
  | cons request rest inductionHypothesis =>
    have later := inductionHypothesis (fun other member => apart other (.tail _ member))
    rw [slotsOf, List.map_cons, List.sum_cons, ← slotsOf, later, slots,
      if_neg (apart request List.mem_cons_self).symm, List.countP_cons]
    simp only [decide_eq_true_eq]
    omega

theorem apart_of_spelledApart {w : World} {request first other : Request}
    (apart : spelledApart w request = true) (left : first ∈ request :: w.held)
    (right : other ∈ request :: w.held) : first.ip ≠ other.key := by
  have each := List.all_eq_true.mp (List.all_eq_true.mp apart first left) other right
  exact of_decide_eq_true each

/-- A limiter refuses a request that is spelled apart when one of its limits is reached. -/
theorem refused_iff {limits : Limits} {w : World} {request : Request} (counted : Counted w)
    (apart : spelledApart w request = true) :
    refused (some limits) w request = true ↔
      limits.perKey ≤ ofKey w request.key ∨ limits.perIp ≤ ofIp w request.ip := by
  have own := apart_of_spelledApart apart List.mem_cons_self List.mem_cons_self
  have keyed : inFlight w.counters request.key = ofKey w request.key := by
    rw [counted, ofKey]
    exact slotsOf_key fun other member =>
      apart_of_spelledApart apart (.tail _ member) List.mem_cons_self
  have addressed : inFlight w.counters request.ip = ofIp w request.ip := by
    rw [counted, ofIp]
    exact slotsOf_ip fun other member =>
      apart_of_spelledApart apart List.mem_cons_self (.tail _ member)
  rw [refused, Bool.not_eq_true', ← Bool.not_eq_true, acquire_granted limits w.counters own,
    keyed, addressed]
  omega

/-! ## Histories -/

/-- With a limiter, every counter counts the slots that are held. -/
theorem counted_of_run {limits : Limits} {labels : List Label} {w : World}
    (ran : run (gateStep (some limits)) {} labels = some w) : Counted w :=
  run_invariant (fun _ _ _ holds stepped => Counted.step holds stepped) (fun _ => rfl) ran

/-- Two callers at one address. -/
def sameAddress : Request × Request :=
  (⟨some "ana".str, forwardedFor "10.0.0.1".str⟩, ⟨some "eve".str, forwardedFor "10.0.0.1".str⟩)

/-- One caller at two addresses. -/
def sameKey : Request × Request :=
  (⟨some "ana".str, forwardedFor "10.0.0.1".str⟩, ⟨some "ana".str, forwardedFor "10.0.0.2".str⟩)

/-- The first request of all is admitted, if its address is not its key. -/
theorem first_admitted {limits : Limits} {request : Request} (apart : request.ip ≠ request.key)
    (roomKey : 0 < limits.perKey) (roomIp : 0 < limits.perIp) :
    (World.ask limits {} request).held = [request] := by
  have granted := (acquire_granted limits ∅ apart).mpr ⟨roomKey, roomIp⟩
  have admitted : (acquire limits ({} : World).counters request.key request.ip).2 = true := granted
  rw [World.ask, admitted, if_pos rfl]

/-- After a first request, a limiter with a limit of one refuses a second one that shares its
key, or its address, whatever the other limit is. -/
theorem second_refused (limits : Limits) (first second : Request)
    (apart : spelledApart { held := [first] } second = true)
    (room : 0 < limits.perKey ∧ 0 < limits.perIp)
    (shared : limits.perKey = 1 ∧ first.key = second.key ∨
      limits.perIp = 1 ∧ first.ip = second.ip) :
    ∃ w, run (guarded (asksApart (some limits)) (gateStep (some limits))) {} [.request first] =
        some w ∧
      w.held = [first] ∧ spelledApart w second = true ∧
      refused (some limits) w second = true := by
  have own : first.ip ≠ first.key :=
    apart_of_spelledApart apart (.tail _ List.mem_cons_self) (.tail _ List.mem_cons_self)
  have held := first_admitted own room.1 room.2
  have meets : asksApart (some limits) {} (.request first) = true := by
    simpa [asksApart, spelledApart] using own
  have ran : run (guarded (asksApart (some limits)) (gateStep (some limits))) {}
      [.request first] = some (World.ask limits {} first) := by
    rw [run_cons, guarded, if_pos meets]
    rfl
  have stillApart : spelledApart (World.ask limits {} first) second = true := by
    rw [spelledApart, held]
    exact apart
  refine ⟨_, ran, held, stillApart, ?_⟩
  rw [refused_iff (counted_of_run (run_of_guarded ran)) stillApart, ofKey, ofIp, held]
  rcases shared with ⟨one, same⟩ | ⟨one, same⟩
  · left
    simp [one, same]
  · right
    simp [one, same]

/-- The requests of a history are refused as configured; they are spelled apart where there is a
limiter. -/
def Follows (settings : ConcurrencySettings) : Prop :=
  ∀ labels w,
    run (guarded (asksApart settings.limiter) (gateStep settings.limiter)) {} labels = some w →
    ∀ request, (settings.limiter.isSome = true → spelledApart w request = true) →
      refused settings.limiter w request = limitReached settings w request

/-- The configuration is not followed if a limit was raised to one and a second request that
shares the bucket of that limit reaches none. -/
theorem not_follows {settings : ConcurrencySettings} (first second : Request)
    (limited : settings.maxConcurrencyPerKey > 0 ∨ settings.maxConcurrencyPerIp > 0)
    (apart : spelledApart { held := [first] } second = true)
    (free : limitReached settings { held := [first] } second = false)
    (shared : settings.maxConcurrencyPerKey = 0 ∧ first.key = second.key ∨
      settings.maxConcurrencyPerIp = 0 ∧ first.ip = second.ip) : ¬Follows settings := by
  intro follows
  have limiter : settings.limiter =
      some ⟨max settings.maxConcurrencyPerKey 1, max settings.maxConcurrencyPerIp 1⟩ :=
    if_pos limited
  obtain ⟨w, ran, held, stillApart, refuses⟩ := second_refused
    ⟨max settings.maxConcurrencyPerKey 1, max settings.maxConcurrencyPerIp 1⟩ first second apart
    ⟨Nat.lt_of_lt_of_le Nat.one_pos (Nat.le_max_right _ _),
      Nat.lt_of_lt_of_le Nat.one_pos (Nat.le_max_right _ _)⟩
    (shared.imp (And.imp_left fun zero => by rw [zero]; rfl)
      (And.imp_left fun zero => by rw [zero]; rfl))
  have same : limitReached settings w second = limitReached settings { held := [first] } second := by
    simp [limitReached, ofKey, ofIp, held]
  have told := follows [.request first] w (limiter ▸ ran) second fun _ => stillApart
  rw [limiter, refuses, same, free] at told
  cases told

/-- In every history whose requests are spelled apart, requests are refused as configured,
exactly if both limits are zero or neither is. -/
theorem refused_as_configured_iff (settings : ConcurrencySettings) :
    Follows settings ↔
      (settings.maxConcurrencyPerKey = 0 ↔ settings.maxConcurrencyPerIp = 0) := by
  obtain ⟨perKey, perIp⟩ := settings
  dsimp only
  constructor
  · intro follows
    by_contra unlike
    obtain ⟨limited, zero⟩ | ⟨zero, limited⟩ : 0 < perKey ∧ perIp = 0 ∨ perKey = 0 ∧ 0 < perIp := by
      omega
    · have none : ofKey { held := [sameAddress.1] } sameAddress.2.key = 0 := by decide +kernel
      refine not_follows sameAddress.1 sameAddress.2 (.inl limited) (by decide +kernel) ?_
        (.inr ⟨zero, by decide +kernel⟩) follows
      simp [limitReached, none, zero, limited.ne']
    · have none : ofIp { held := [sameKey.1] } sameKey.2.ip = 0 := by decide +kernel
      refine not_follows sameKey.1 sameKey.2 (.inr limited) (by decide +kernel) ?_
        (.inl ⟨zero, by decide +kernel⟩) follows
      simp [limitReached, none, zero, limited.ne']
  · intro alike labels w ran request apart
    have ran := run_of_guarded ran
    by_cases limited : perKey > 0 ∨ perIp > 0
    · have limiter : ConcurrencySettings.limiter ⟨perKey, perIp⟩ =
          some ⟨max perKey 1, max perIp 1⟩ := if_pos limited
      rw [limiter] at ran apart ⊢
      rw [Bool.eq_iff_iff, refused_iff (counted_of_run ran) (apart rfl), limitReached,
        decide_eq_true_eq]
      dsimp only
      omega
    · have limiter : ConcurrencySettings.limiter ⟨perKey, perIp⟩ = none := if_neg limited
      rw [limiter]
      have zero : perKey = 0 ∧ perIp = 0 := by omega
      simp [refused, limitReached, zero]

/-- With five requests for a key and no limit for an address, the second caller of an address
is refused. -/
theorem secondCaller_refused :
    ∃ w, run (gateStep (ConcurrencySettings.limiter ⟨5, 0⟩)) {} [.request sameAddress.1] =
        some w ∧ spelledApart w sameAddress.2 = true ∧
      refused (ConcurrencySettings.limiter ⟨5, 0⟩) w sameAddress.2 = true ∧
      limitReached ⟨5, 0⟩ w sameAddress.2 = false := by
  have told : (run (gateStep (ConcurrencySettings.limiter ⟨5, 0⟩)) {}
      [.request sameAddress.1]).map (fun w => (spelledApart w sameAddress.2,
        refused (ConcurrencySettings.limiter ⟨5, 0⟩) w sameAddress.2,
        limitReached ⟨5, 0⟩ w sameAddress.2)) = some (true, true, false) := by decide +kernel
  obtain ⟨w, ran, same⟩ := Option.map_eq_some_iff.mp told
  simp only [Prod.mk.injEq] at same
  exact ⟨w, ran, same.1, same.2.1, same.2.2⟩

end LumidPlatform.Auth
