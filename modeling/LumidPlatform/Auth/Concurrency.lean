import Mathlib.Data.List.Perm.Basic
import LumidPlatform.Lib.Transitions
import LumidPlatform.Text

/-!
# Concurrency slots

A request takes a slot of its key and a slot of the address it says it comes from, and gives
both back when its response is over. Keys and addresses are buckets of one map, and only the
keys carry a prefix, so an address may be spelled like the key of another caller.
-/

namespace LumidPlatform.Auth

open Transitions

/-- The headers of a request; the value of one is a sequence of bytes. -/
abbrev HeaderMap := List (Str × Bytes)

/-- `HeaderMap::get` and `HeaderValue::to_str`: visible ASCII and tabs. -/
def headerText (headers : HeaderMap) (name : Str) : Option Str :=
  (List.lookup name headers).bind (fun bytes =>
    if bytes.all (fun b => (32 ≤ b.toNat && b.toNat < 127) || b.toNat == 9) then
      some (bytes.map (fun b => Char.ofNat b.toNat))
    else none)

/-- `client_ip`. -/
def clientIp (headers : HeaderMap) : Str :=
  let named (header : Str) : Option Str :=
    (headerText headers header).bind (fun v =>
      ((v.splitOn ',').head?.map Text.trim).filter (fun first => !first.isEmpty))
  ((named "x-forwarded-for".str).orElse (fun _ => named "x-real-ip".str)).getD "unknown".str

/-- A request as the gate has it: the subject of its identity, unless it has none. -/
structure Request where
  sub : Option Str
  headers : HeaderMap

/-- The key bucket of an identity. -/
def keyOf (sub : Str) : Str := "id:".str ++ sub

/-- The rate-limit key of `gate`. -/
def Request.key (request : Request) : Str :=
  match request.sub with
  | some sub => keyOf sub
  | none => "ip:".str ++ clientIp request.headers

def Request.ip (request : Request) : Str := clientIp request.headers

/-- A `u32` starts over here, in an atomic counter as in a release build. -/
def u32Modulus : Nat := 2 ^ 32

/-- The counters of a `ConcurrencyLimiter`. -/
abbrev Counters := HashMap Nat

/-- The slots that are taken in a bucket. -/
def inFlight (counters : Counters) (bucket : Str) : Nat := (counters.lookup bucket).getD 0

/-- `ConcurrencyLimiter`. -/
structure Limits where
  perKey : Nat
  perIp : Nat

/-- `try_acquire`. -/
def tryAcquire (counters : Counters) (bucket : Str) (limit : Nat) : Counters × Bool :=
  let prev := inFlight counters bucket
  if limit ≤ prev then (counters.insert bucket prev, false)
  else (counters.insert bucket (prev + 1), true)

/-- A `ConcurrencyGuard` is dropped. -/
def drop (counters : Counters) (bucket : Str) : Counters :=
  counters.insert bucket (inFlight counters bucket - 1)

/-- `acquire`. -/
def acquire (limits : Limits) (counters : Counters) (key ip : Str) : Counters × Bool :=
  match tryAcquire counters key limits.perKey with
  | (taken, false) => (taken, false)
  | (taken, true) =>
    match tryAcquire taken ip limits.perIp with
    | (both, true) => (both, true)
    | (refused, false) => (drop refused key, false)

/-- The counters, and the requests that hold slots. -/
structure World where
  counters : Counters := ∅
  held : List Request := []

inductive Label where
  /-- A request asks for its slots. -/
  | request (request : Request)
  /-- The response of a request that holds slots is over. -/
  | finish (i : Nat)

/-- A request asks for its slots, and holds them if it is admitted. -/
def World.ask (limits : Limits) (w : World) (request : Request) : World :=
  let acquired := acquire limits w.counters request.key request.ip
  { counters := acquired.1, held := if acquired.2 then request :: w.held else w.held }

def step (limits : Limits) (w : World) : Label → Option World
  | .request request => some (w.ask limits request)
  | .finish i =>
    (w.held[i]?).map (fun request =>
      { counters := drop (drop w.counters request.key) request.ip, held := w.held.eraseIdx i })

/-- Whether `acquire` admits a request of an identity on its key bucket. -/
def admits (limits : Limits) (w : World) (sub : Str) : Bool :=
  decide (inFlight w.counters (keyOf sub) < limits.perKey)

/-! ## What the counters count -/

/-- The slots that a request holds in a bucket. -/
def slots (bucket : Str) (request : Request) : Nat :=
  (if request.key = bucket then 1 else 0) + if request.ip = bucket then 1 else 0

/-- The slots of a bucket that a list of requests holds. -/
def slotsOf (bucket : Str) (held : List Request) : Nat := (held.map (slots bucket)).sum

theorem tryAcquire_inFlight (counters : Counters) (bucket : Str) (limit : Nat) (other : Str) :
    inFlight (tryAcquire counters bucket limit).1 other = inFlight counters other +
      if (tryAcquire counters bucket limit).2 = true ∧ bucket = other then 1 else 0 := by
  rw [tryAcquire]
  by_cases same : other = bucket
  · subst same
    split_ifs with full granted granted
    · exact absurd granted.1 (by simp)
    · rw [inFlight, AList.lookup_insert, Option.getD_some, Nat.add_zero]
    · rw [inFlight, AList.lookup_insert, Option.getD_some]
    · exact absurd ⟨rfl, rfl⟩ granted
  · have differs : ¬bucket = other := fun h => same h.symm
    split_ifs with full granted granted
    · exact absurd granted.2 differs
    · rw [inFlight, AList.lookup_insert_ne same, Nat.add_zero, inFlight]
    · exact absurd granted.2 differs
    · rw [inFlight, AList.lookup_insert_ne same, Nat.add_zero, inFlight]

theorem drop_inFlight (counters : Counters) (bucket other : Str) :
    inFlight (drop counters bucket) other =
      inFlight counters other - if bucket = other then 1 else 0 := by
  rw [drop, inFlight]
  by_cases same : other = bucket
  · subst same
    rw [AList.lookup_insert, Option.getD_some, if_pos rfl]
  · rw [AList.lookup_insert_ne same, if_neg (fun h => same h.symm), Nat.sub_zero, inFlight]

/-- A request that is admitted takes its two slots, and one that is not takes none. -/
theorem acquire_inFlight (limits : Limits) (counters : Counters) (request : Request)
    (bucket : Str) :
    inFlight (acquire limits counters request.key request.ip).1 bucket =
      inFlight counters bucket +
        if (acquire limits counters request.key request.ip).2 then slots bucket request else 0 := by
  have first := tryAcquire_inFlight counters request.key limits.perKey bucket
  cases keyed : tryAcquire counters request.key limits.perKey with
  | mk taken granted =>
    rw [keyed] at first
    cases granted with
    | false =>
      simp only [acquire, keyed]
      simpa using first
    | true =>
      have second := tryAcquire_inFlight taken request.ip limits.perIp bucket
      cases addressed : tryAcquire taken request.ip limits.perIp with
      | mk both also =>
        rw [addressed] at second
        cases also with
        | true =>
          simp only [acquire, keyed, addressed, if_true]
          simp only [true_and] at first second
          rw [second, first, slots, Nat.add_assoc]
        | false =>
          simp only [acquire, keyed, addressed, Bool.false_eq_true, if_false]
          simp only [true_and, Bool.false_eq_true, false_and, if_false] at first second
          rw [drop_inFlight, second, first]
          omega

/-- Every counter counts the slots that are held. -/
def Counted (w : World) : Prop := ∀ bucket, inFlight w.counters bucket = slotsOf bucket w.held

theorem Counted.step {limits : Limits} {w next : World} {label : Label} (counted : Counted w)
    (stepped : step limits w label = some next) : Counted next := by
  intro bucket
  cases label with
  | request request =>
    obtain rfl := Option.some.inj stepped
    have acquired := acquire_inFlight limits w.counters request bucket
    rw [counted bucket] at acquired
    refine acquired.trans ?_
    rw [World.ask]
    by_cases admitted : (acquire limits w.counters request.key request.ip).2 = true
    · rw [if_pos admitted, if_pos admitted, slotsOf, slotsOf, List.map_cons, List.sum_cons,
        Nat.add_comm]
    · rw [if_neg admitted, if_neg admitted, Nat.add_zero]
  | finish i =>
    obtain ⟨request, found, rfl⟩ := Option.map_eq_some_iff.mp stepped
    obtain ⟨inside, rfl⟩ := List.getElem?_eq_some_iff.mp found
    have whole : slotsOf bucket w.held =
        slots bucket w.held[i] + slotsOf bucket (w.held.eraseIdx i) := by
      rw [slotsOf, slotsOf, ← List.sum_cons, ← List.map_cons]
      exact ((List.getElem_cons_eraseIdx_perm inside).symm.map _).sum_nat
    show inFlight (drop (drop w.counters w.held[i].key) w.held[i].ip) bucket =
      slotsOf bucket (w.held.eraseIdx i)
    rw [drop_inFlight, drop_inFlight, counted bucket, whole, slots]
    omega

/-! ## Whose slots -/

/-- The request holds, or would hold, no slot of the key bucket of another identity. -/
def apartFrom (request : Request) : Bool :=
  !Text.startsWith request.ip "id:".str || decide (request.key = request.ip)

/-- The slots that an identity's own requests hold in its key bucket. -/
def ownSlots (w : World) (sub : Str) : Nat :=
  slotsOf (keyOf sub) (w.held.filter (fun request => request.sub = some sub))

/-- Every key bucket counts slots of its own identity only. -/
def Unshared (w : World) : Prop := ∀ sub, inFlight w.counters (keyOf sub) = ownSlots w sub

theorem keyOf_injective {sub other : Str} (same : keyOf sub = keyOf other) : sub = other :=
  List.append_cancel_left same

/-- Only an identity's own requests have its key. -/
theorem key_eq_keyOf {request : Request} {sub : Str} :
    request.key = keyOf sub ↔ request.sub = some sub := by
  rw [Request.key]
  cases request.sub with
  | none => simp [keyOf, String.str]
  | some own =>
    simp only [Option.some.injEq]
    exact ⟨keyOf_injective, congrArg keyOf⟩

/-- A request is apart exactly if no slot of it is in the key bucket of another identity. -/
theorem apartFrom_iff {request : Request} :
    apartFrom request = true ↔
      ∀ sub, request.sub ≠ some sub → slots (keyOf sub) request = 0 := by
  have spelled (sub : Str) (other : request.sub ≠ some sub) :
      slots (keyOf sub) request = 0 ↔ request.ip ≠ keyOf sub := by
    rw [slots, if_neg (fun same => other (key_eq_keyOf.mp same)), Nat.zero_add]
    split_ifs with same <;> simp [same]
  rw [apartFrom, Bool.or_eq_true, Bool.not_eq_true', decide_eq_true_eq]
  constructor
  · intro apart sub other
    rw [spelled sub other]
    intro same
    rcases apart with foreign | own
    · have starts : Text.startsWith request.ip "id:".str = true := by
        rw [same]
        exact List.isPrefixOf_iff_prefix.mpr (List.prefix_append _ _)
      rw [starts] at foreign
      cases foreign
    · exact other (key_eq_keyOf.mp (own.trans same))
  · intro none
    by_cases foreign : Text.startsWith request.ip "id:".str = true
    · obtain ⟨sub, same⟩ := List.isPrefixOf_iff_prefix.mp foreign
      have ip : request.ip = keyOf sub := same.symm
      by_cases own : request.sub = some sub
      · exact Or.inr ((key_eq_keyOf.mpr own).trans ip.symm)
      · exact absurd ip ((spelled sub own).mp (none sub own))
    · exact Or.inl (by simpa using foreign)

/-- A bucket counts the own slots of its identity and those that others hold in it. -/
theorem slotsOf_split (held : List Request) (sub : Str) :
    slotsOf (keyOf sub) held =
      slotsOf (keyOf sub) (held.filter (fun request => request.sub = some sub)) +
        slotsOf (keyOf sub) (held.filter (fun request => ¬request.sub = some sub)) := by
  induction held with
  | nil => rfl
  | cons request rest inductionHypothesis =>
    by_cases own : request.sub = some sub <;>
      simp only [slotsOf, List.map_cons, List.sum_cons, List.filter_cons, own, decide_true,
        decide_false, not_true_eq_false, not_false_eq_true, if_true, if_false,
        Bool.false_eq_true] at inductionHypothesis ⊢ <;> omega

/-- The buckets are unshared exactly if all requests that hold slots are apart. -/
theorem unshared_iff {w : World} (counted : Counted w) :
    Unshared w ↔ ∀ request ∈ w.held, apartFrom request = true := by
  constructor
  · intro unshared request member
    rw [apartFrom_iff]
    intro sub other
    have whole := unshared sub
    rw [counted, slotsOf_split, ownSlots] at whole
    have none : slotsOf (keyOf sub) (w.held.filter (fun r => ¬r.sub = some sub)) = 0 := by omega
    rw [slotsOf, List.sum_eq_zero_iff_forall_eq_nat] at none
    exact none _ (List.mem_map_of_mem (List.mem_filter.mpr ⟨member, by simpa using other⟩))
  · intro apart sub
    rw [counted, slotsOf_split, ownSlots]
    have none : slotsOf (keyOf sub) (w.held.filter (fun r => ¬r.sub = some sub)) = 0 := by
      rw [slotsOf, List.sum_eq_zero_iff_forall_eq_nat]
      intro count listed
      obtain ⟨request, member, rfl⟩ := List.mem_map.mp listed
      obtain ⟨there, other⟩ := List.mem_filter.mp member
      exact apartFrom_iff.mp (apart request there) sub (by simpa using other)
    rw [none, Nat.add_zero]

/-- The condition on a step: a request that is admitted is apart. -/
def keepsApart (limits : Limits) (w : World) : Label → Bool
  | .request request =>
    !(acquire limits w.counters request.key request.ip).2 || apartFrom request
  | .finish _ => true

theorem keepsApart_iff {limits : Limits} {w next : World} {label : Label} (counted : Counted w)
    (unshared : Unshared w) (stepped : step limits w label = some next) :
    keepsApart limits w label = true ↔ Unshared next := by
  have apart := (unshared_iff counted).mp unshared
  rw [unshared_iff (counted.step stepped)]
  cases label with
  | request request =>
    obtain rfl := Option.some.inj stepped
    rw [keepsApart, World.ask]
    cases admitted : (acquire limits w.counters request.key request.ip).2 with
    | true => simpa using fun _ => apart
    | false => simpa using apart
  | finish i =>
    obtain ⟨request, found, rfl⟩ := Option.map_eq_some_iff.mp stepped
    refine iff_of_true rfl (fun other member => apart other ?_)
    exact List.mem_of_mem_eraseIdx member

/-- In a run, the key buckets are unshared in every state exactly if every request that is
admitted is apart; and then whether a request of an identity is admitted on its key bucket is
decided by its own requests. -/
theorem slots_apart {limits : Limits} {labels : List Label} {w : World}
    (ran : run (step limits) {} labels = some w) :
    ((∀ before, before <+: labels → ∀ state, run (step limits) {} before = some state →
        Unshared state) ↔
      (run (guarded (keepsApart limits) (step limits)) {} labels).isSome) ∧
    ((run (guarded (keepsApart limits) (step limits)) {} labels).isSome →
      ∀ sub, admits limits w sub = decide (ownSlots w sub < limits.perKey)) := by
  have started : Counted {} := fun _ => rfl
  have counted {before : List Label} {state : World}
      (ends : run (step limits) {} before = some state) : Counted state :=
    run_invariant (fun _ _ _ holds stepped => Counted.step holds stepped) started ends
  have exactly : (∀ before, before <+: labels → ∀ state,
      run (step limits) {} before = some state → Counted state ∧ Unshared state) ↔
        (run (guarded (keepsApart limits) (step limits)) {} labels).isSome := by
    refine guarded_exact (fun state label next holds stepped => ?_) ⟨started, fun _ => rfl⟩ ran
    rw [keepsApart_iff holds.1 holds.2 stepped]
    exact ⟨fun unshared => ⟨holds.1.step stepped, unshared⟩, And.right⟩
  constructor
  · rw [← exactly]
    refine forall₄_congr (fun before inside state ends => ?_)
    exact ⟨fun unshared => ⟨counted ends, unshared⟩, And.right⟩
  · intro meets sub
    have unshared := (exactly.mpr meets labels (List.prefix_refl labels) w ran).2
    rw [admits, unshared sub]

/-! ## Two runs -/

/-- A header that names where the request comes from. -/
def forwardedFor (text : Str) : HeaderMap := [("x-forwarded-for".str, Text.utf8 text)]

/-- Two requests of one caller, and what another caller is told after them. -/
def twice (text : Str) : List Label :=
  [.request ⟨some "eve".str, forwardedFor text⟩, .request ⟨some "eve".str, forwardedFor text⟩]

theorem plainAddress_apart : ∃ w, run (step ⟨2, 10⟩) {} (twice "203.0.113.7".str) = some w ∧
    admits ⟨2, 10⟩ w "ana".str = decide (ownSlots w "ana".str < 2) := by
  have meets : (run (guarded (keepsApart ⟨2, 10⟩) (step ⟨2, 10⟩)) {}
      (twice "203.0.113.7".str)).isSome = true := by decide +kernel
  obtain ⟨w, allowed⟩ := Option.isSome_iff_exists.mp meets
  exact ⟨w, run_of_guarded allowed, (slots_apart (run_of_guarded allowed)).2 meets "ana".str⟩

/-- An address spelled like a key takes the slots of another caller. -/
theorem spelledAddress_blocks : admits ⟨2, 10⟩ {} "ana".str = true ∧
    ∃ w, run (step ⟨2, 10⟩) {} (twice "id:ana".str) = some w ∧
      ownSlots w "ana".str = 0 ∧ admits ⟨2, 10⟩ w "ana".str = false := by
  have ran : (run (step ⟨2, 10⟩) {} (twice "id:ana".str)).map
      (fun w => (ownSlots w "ana".str, admits ⟨2, 10⟩ w "ana".str)) = some (0, false) := by
    decide +kernel
  obtain ⟨w, reached, ends⟩ := Option.map_eq_some_iff.mp ran
  exact ⟨rfl, w, reached, (Prod.mk.inj ends).1, (Prod.mk.inj ends).2⟩

end LumidPlatform.Auth
