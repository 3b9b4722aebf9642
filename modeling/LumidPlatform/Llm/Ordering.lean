import LumidPlatform.Llm.Pool

/-!
# The order in which backends are tried

A request tries the backends of its model in the order of four keys: health, room, tier and load.
The order is right whatever the keys are. The keys compare settings with counters, and a setting
is a 32-bit number without a sign that is read as one with a sign for it.
-/

namespace LumidPlatform.Llm

/-! ## The order of ranks -/

theorem Rank.le_trans {first second third : Rank} (left : first.le second = true)
    (right : second.le third = true) : first.le third = true := by
  simp only [Rank.le] at left right ⊢
  grind

theorem Rank.le_total (left right : Rank) : (left.le right || right.le left) = true := by
  simp only [Rank.le]
  grind

/-- The counters of a backend are 32-bit numbers with a sign. -/
structure Load.IsI32 (load : Load) : Prop where
  inflight : -2 ^ 31 ≤ load.inflight ∧ load.inflight < 2 ^ 31
  queueDepth : -2 ^ 31 ≤ load.queueDepth ∧ load.queueDepth < 2 ^ 31

namespace BackendHandle

/-- The settings of a backend are 32-bit numbers without a sign. -/
structure IsU32 (handle : BackendHandle) : Prop where
  maxConcurrency : handle.maxConcurrency < 2 ^ 32
  queueRoof : handle.queueRoof < 2 ^ 32
  shortRoof : handle.shortRoof < 2 ^ 32

/-- The backend has as many requests as it may have, or its engine is known to have as many
waiting; zero sets no bound. -/
def Saturated (handle : BackendHandle) (load : Load) : Prop :=
  (handle.maxConcurrency ≠ 0 ∧ handle.maxConcurrency ≤ load.inflight) ∨
    (handle.queueRoof ≠ 0 ∧ 0 ≤ load.queueDepth ∧ handle.queueRoof ≤ load.queueDepth)

/-- A backend may come before another one: key by key, the first key in which they differ
decides. -/
structure MayPrecede (loads : Loads) (short : Bool) (left right : BackendHandle) : Prop where
  health : (loads right.url).healthy = true → (loads left.url).healthy = true
  room : (loads left.url).healthy = (loads right.url).healthy →
    left.atRoof (loads left.url) = true → right.atRoof (loads right.url) = true
  tier : (loads left.url).healthy = (loads right.url).healthy →
    left.atRoof (loads left.url) = right.atRoof (loads right.url) →
      left.effectiveTier (loads left.url) short ≤ right.effectiveTier (loads right.url) short
  inflight : (loads left.url).healthy = (loads right.url).healthy →
    left.atRoof (loads left.url) = right.atRoof (loads right.url) →
      left.effectiveTier (loads left.url) short = right.effectiveTier (loads right.url) short →
        (loads left.url).inflight ≤ (loads right.url).inflight

theorem mayPrecede_of_rank {loads : Loads} {short : Bool} {left right : BackendHandle}
    (ordered : (left.rank loads short).le (right.rank loads short) = true) :
    MayPrecede loads short left right := by
  simp only [Rank.le, rank] at ordered
  refine ⟨?_, ?_, ?_, ?_⟩
  · intro healthy
    grind
  · intro health full
    grind
  · intro health room
    grind
  · intro health room tier
    grind

end BackendHandle

/-- What the pool owes to every request, whatever the counters are: the backends of its model,
in order; the short tier of a backend exactly while it has fewer requests than its short roof;
and a backend is at its roof exactly where it is saturated. -/
structure BackendPool.OrderingLaw (pool : BackendPool) : Prop where
  ordered : ∀ loads : Loads, (∀ url, (loads url).IsI32) → ∀ model short,
    (pool.backendsForClass loads model short).Perm (pool.handlesOf model) ∧
      (pool.backendsForClass loads model short).Pairwise
        (BackendHandle.MayPrecede loads short)
  short_tier : ∀ model, ∀ handle ∈ pool.handlesOf model, ∀ load : Load, load.IsI32 →
    handle.effectiveTier load false = handle.tier ∧
      ∀ tier, handle.shortTier = some tier →
        handle.effectiveTier load true =
          if load.inflight < handle.shortRoof then tier else handle.tier
  at_roof : ∀ model, ∀ handle ∈ pool.handlesOf model, ∀ load : Load, load.IsI32 →
    (handle.atRoof load = true ↔ handle.Saturated load)

/-! ## Settings read with a sign -/

theorem asI32_of_small {n : Nat} (small : n < 2 ^ 31) : asI32 n = n := if_pos small

theorem asI32_of_large {n : Nat} (large : ¬n < 2 ^ 31) (typed : n < 2 ^ 32) : asI32 n < 0 := by
  rw [asI32, if_neg large]
  omega

namespace BackendHandle

variable {handle : BackendHandle}

theorem atRoof_iff {load : Load} : handle.atRoof load = true ↔
    (handle.maxConcurrency ≠ 0 ∧ asI32 handle.maxConcurrency ≤ load.inflight) ∨
      (handle.queueRoof ≠ 0 ∧ 0 ≤ load.queueDepth ∧
        asI32 handle.queueRoof ≤ load.queueDepth) := by
  rw [atRoof, atQueueRoof]
  split_ifs with unbounded queued unlimited full
  all_goals simp_all

/-- An idle backend whose queue has a known depth of zero. -/
def idle : Load := ⟨0, true, 0, 0⟩

theorem idle_isI32 : idle.IsI32 := ⟨by decide, by decide⟩

/-- An idle backend is not saturated. -/
theorem not_saturated_idle : ¬handle.Saturated idle := by
  rintro (⟨bounded, full⟩ | ⟨bounded, -, full⟩)
  · exact bounded (by simpa [idle] using full)
  · exact bounded (by simpa [idle] using full)

theorem atRoof_iff_saturated (typed : handle.IsU32) :
    (∀ load : Load, load.IsI32 → (handle.atRoof load = true ↔ handle.Saturated load)) ↔
      handle.maxConcurrency < 2 ^ 31 ∧ handle.queueRoof < 2 ^ 31 := by
  constructor
  · intro law
    have room := (law idle idle_isI32).not.mpr not_saturated_idle
    rw [atRoof_iff, not_or] at room
    constructor
    · by_contra large
      have negative := asI32_of_large large typed.maxConcurrency
      refine room.1 ⟨by omega, ?_⟩
      exact Int.le_of_lt negative
    · by_contra large
      have negative := asI32_of_large large typed.queueRoof
      refine room.2 ⟨by omega, Int.le_refl 0, ?_⟩
      exact Int.le_of_lt negative
  · rintro ⟨concurrency, roof⟩ load -
    rw [atRoof_iff, asI32_of_small concurrency, asI32_of_small roof, Saturated]

theorem effectiveTier_iff (typed : handle.IsU32) :
    (∀ load : Load, load.IsI32 → handle.effectiveTier load false = handle.tier ∧
        ∀ tier, handle.shortTier = some tier →
          handle.effectiveTier load true =
            if load.inflight < handle.shortRoof then tier else handle.tier) ↔
      ∀ tier, handle.shortTier = some tier → tier ≠ handle.tier →
        handle.shortRoof < 2 ^ 31 := by
  constructor
  · intro law tier short different
    by_contra large
    have negative := asI32_of_large large typed.shortRoof
    have competes := (law idle idle_isI32).2 tier short
    have busy : ¬(true && decide (idle.inflight < asI32 handle.shortRoof)) = true := by
      rw [Bool.true_and, decide_eq_true_eq]
      exact Int.not_lt.mpr (Int.le_of_lt negative)
    have below : idle.inflight < handle.shortRoof := by
      simp only [idle]
      omega
    rw [effectiveTier, short, if_pos below] at competes
    simp only [if_neg busy] at competes
    exact different competes.symm
  · intro small load range
    constructor
    · rw [effectiveTier]
      cases handle.shortTier with
      | none => rfl
      | some tier => simp
    · intro tier short
      rw [effectiveTier, short]
      by_cases different : tier = handle.tier
      · simp [different]
      · simp [asI32_of_small (small tier short different)]

end BackendHandle

/-! ## The law -/

/-- The order is right whatever the settings are. -/
theorem BackendPool.backendsForClass_ordered (pool : BackendPool) (loads : Loads)
    (model : Option Str) (short : Bool) :
    (pool.backendsForClass loads model short).Pairwise (BackendHandle.MayPrecede loads short) := by
  have sorted := @List.pairwise_mergeSort BackendHandle
    (fun left right => (left.rank loads short).le (right.rank loads short))
    (fun _ _ _ first second => Rank.le_trans first second)
    (fun left right => Rank.le_total (left.rank loads short) (right.rank loads short))
    (pool.handlesOf model)
  exact sorted.imp BackendHandle.mayPrecede_of_rank

/-- The pool keeps its law exactly where no setting that bounds a counter is so large that it is
read as a negative number; a short roof counts only where the short tier is another one. -/
theorem BackendPool.orderingLaw_iff {pool : BackendPool}
    (typed : ∀ model, ∀ handle ∈ pool.handlesOf model, handle.IsU32) :
    pool.OrderingLaw ↔ ∀ model, ∀ handle ∈ pool.handlesOf model,
      handle.maxConcurrency < 2 ^ 31 ∧ handle.queueRoof < 2 ^ 31 ∧
        ∀ tier, handle.shortTier = some tier → tier ≠ handle.tier →
          handle.shortRoof < 2 ^ 31 := by
  constructor
  · intro law model handle member
    have roof := (BackendHandle.atRoof_iff_saturated (typed model handle member)).mp
      (law.at_roof model handle member)
    have tiers := (BackendHandle.effectiveTier_iff (typed model handle member)).mp
      (law.short_tier model handle member)
    exact ⟨roof.1, roof.2, tiers⟩
  · intro small
    refine ⟨fun loads _ model short => ?_, fun model handle member => ?_,
      fun model handle member => ?_⟩
    · exact ⟨pool.backendsForClass_perm loads model short,
        pool.backendsForClass_ordered loads model short⟩
    · exact (BackendHandle.effectiveTier_iff (typed model handle member)).mpr
        (small model handle member).2.2
    · exact (BackendHandle.atRoof_iff_saturated (typed model handle member)).mpr
        ⟨(small model handle member).1, (small model handle member).2.1⟩

/-- A roster of four backends for one model, the third one for short requests first of all. -/
def coders : BackendPool :=
  internBackends "http://a".str
    [("coder".str, ["http://a#max_concurrency=2".str, "http://b".str,
      "http://c#tier=1&short_tier=0&short_roof=4".str, "http://d".str])] 16 8 []

/-- The first backend has as many requests as it may have, and the second one failed. -/
def busy : Loads := fun url =>
  if url = "http://a".str then ⟨2, true, 0, 0⟩
  else if url = "http://b".str then ⟨0, false, 3, -1⟩
  else if url = "http://c".str then ⟨1, true, 0, 5⟩
  else ⟨3, true, 0, -1⟩

/-- The backends of the model, as they are listed. -/
def coderHandles : List BackendHandle :=
  [⟨"http://a".str, 2, 8, 0, none, 0⟩, ⟨"http://b".str, 16, 8, 0, none, 0⟩,
    ⟨"http://c".str, 16, 8, 1, some 0, 4⟩, ⟨"http://d".str, 16, 8, 0, none, 0⟩]

theorem coders_handles : coders.handlesOf (some "coder".str) = coderHandles := by decide +kernel

theorem coders_handle {model : Option Str} {handle : BackendHandle}
    (member : handle ∈ coders.handlesOf model) : handle ∈ coderHandles := by
  cases model with
  | none =>
    obtain rfl := List.mem_singleton.mp member
    exact List.mem_cons_self
  | some name =>
    by_cases coder : name = "coder".str
    · rw [coder, coders_handles] at member
      exact member
    · have keys : coders.byModel.keys = ["coder".str] := by decide +kernel
      have unknown : name ∉ coders.byModel := by
        rw [AList.mem_keys, keys]
        exact mt List.mem_singleton.mp coder
      have none : coders.handlesOf (some name) = [] := by
        rw [BackendPool.handlesOf, Option.bind_some, AList.lookup_eq_none.mpr unknown, keys]
        simp [unknown]
      rw [none] at member
      cases member

/-- The backends of the model are tried in the one order in which their ranks rise. -/
theorem coders_sorted {short : Bool} {sorted : List BackendHandle}
    (same : sorted.Perm coderHandles)
    (rising : sorted.Pairwise (fun left right =>
      (left.rank busy short).le (right.rank busy short) = true))
    (strict : ∀ left ∈ coderHandles, ∀ right ∈ coderHandles,
      (left.rank busy short).le (right.rank busy short) = true →
        (right.rank busy short).le (left.rank busy short) = true → left = right) :
    coders.backendsForClass busy (some "coder".str) short = sorted := by
  have ordered := @List.pairwise_mergeSort BackendHandle
    (fun left right => (left.rank busy short).le (right.rank busy short))
    (fun _ _ _ first second => Rank.le_trans first second)
    (fun left right => Rank.le_total (left.rank busy short) (right.rank busy short))
    coderHandles
  rw [BackendPool.backendsForClass, coders_handles]
  refine List.Perm.eq_of_pairwise (fun left right inLeft inRight => ?_) ordered rising
    ((List.mergeSort_perm _ _).trans same.symm)
  exact strict left ((List.mergeSort_perm _ _).mem_iff.mp inLeft) right (same.mem_iff.mp inRight)

/-- With small bounds the law holds: here a full backend comes before one that failed, and a
short request begins with the backend that is meant for it. -/
theorem coders_ordered : coders.OrderingLaw ∧
    (coders.backendsForClass busy (some "coder".str) false).map BackendHandle.url =
      ["http://d".str, "http://c".str, "http://a".str, "http://b".str] ∧
    (coders.backendsForClass busy (some "coder".str) true).map BackendHandle.url =
      ["http://c".str, "http://d".str, "http://a".str, "http://b".str] := by
  refine ⟨(BackendPool.orderingLaw_iff fun model handle member => ?_).mpr
    fun model handle member => ?_, ?_, ?_⟩
  · have small : ∀ handle ∈ coderHandles, handle.maxConcurrency < 2 ^ 32 ∧
      handle.queueRoof < 2 ^ 32 ∧ handle.shortRoof < 2 ^ 32 := by decide
    obtain ⟨concurrency, roof, shortRoof⟩ := small handle (coders_handle member)
    exact ⟨concurrency, roof, shortRoof⟩
  · have small : ∀ handle ∈ coderHandles, handle.maxConcurrency < 2 ^ 31 ∧
      handle.queueRoof < 2 ^ 31 ∧ handle.shortRoof < 2 ^ 31 := by decide
    obtain ⟨concurrency, roof, shortRoof⟩ := small handle (coders_handle member)
    exact ⟨concurrency, roof, fun _ _ _ => shortRoof⟩
  · have order : coders.backendsForClass busy (some "coder".str) false =
        [⟨"http://d".str, 16, 8, 0, none, 0⟩, ⟨"http://c".str, 16, 8, 1, some 0, 4⟩,
          ⟨"http://a".str, 2, 8, 0, none, 0⟩, ⟨"http://b".str, 16, 8, 0, none, 0⟩] :=
      coders_sorted (by decide) (by decide) (by decide)
    rw [order]
    rfl
  · have order : coders.backendsForClass busy (some "coder".str) true =
        [⟨"http://c".str, 16, 8, 1, some 0, 4⟩, ⟨"http://d".str, 16, 8, 0, none, 0⟩,
          ⟨"http://a".str, 2, 8, 0, none, 0⟩, ⟨"http://b".str, 16, 8, 0, none, 0⟩] :=
      coders_sorted (by decide) (by decide) (by decide)
    rw [order]
    rfl

/-- A pool with one backend for every request. -/
def onePool (maxConcurrency : Nat) : BackendPool :=
  internBackends "http://gpu".str [] maxConcurrency 0 []

theorem onePool_handle {maxConcurrency : Nat} {model : Option Str} {handle : BackendHandle}
    (member : handle ∈ (onePool maxConcurrency).handlesOf model) :
    handle = ⟨"http://gpu".str, maxConcurrency, 0, 0, none, 0⟩ := by
  cases model with
  | none => exact List.mem_singleton.mp member
  | some name => exact List.mem_singleton.mp member

/-- With a bound of 2147483648 requests an idle backend is at its roof. -/
theorem huge_bound_full :
    ¬∀ pool : BackendPool, (∀ model, ∀ handle ∈ pool.handlesOf model, handle.IsU32) →
      pool.OrderingLaw := by
  intro all
  have typed : ∀ model, ∀ handle ∈ (onePool (2 ^ 31)).handlesOf model, handle.IsU32 := by
    intro model handle member
    rw [onePool_handle member]
    exact ⟨by decide, by decide, by decide⟩
  have law := (all _ typed).at_roof none _ (List.mem_singleton.mpr rfl) BackendHandle.idle
    BackendHandle.idle_isI32
  exact BackendHandle.not_saturated_idle (law.mp (by decide))

end LumidPlatform.Llm
