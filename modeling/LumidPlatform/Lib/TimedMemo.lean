import LumidPlatform.Lib.Transitions
import Mathlib.Data.Nat.Basic
import Mathlib.Logic.Function.Basic

/-!
# A cache of loaded values that live for a while

A request is answered from a cache, under a key of the request, or a value is loaded for it and
put there. Loads take several steps, which look at the data as it is then, and go on at the same
time; any of them may fail, and the cache may forget an entry at any time. Some requests do not
ask the cache, and some values are not put there. What a load ensures of its value for its own
request holds of every answer, for some request with the same key.
-/

namespace TimedMemo

open Transitions

variable {K R V L D : Type*} [DecidableEq K]

/-- How a value is loaded for a request, which requests ask the cache, and which values are put
there. -/
structure Loader (R V L D : Type*) where
  start : R → L
  step : D → R → L → L ⊕ V
  looks : R → Bool
  stores : R → V → Bool

/-- A value with the moments when it was loaded and stored. -/
structure Entry (V : Type*) where
  value : V
  loaded : ℕ
  stored : ℕ
  deriving DecidableEq

/-- Where a call is. An answer goes with its moment. -/
inductive Stage (V L : Type*) where
  | asking
  | loading (progress : L)
  | storing (value : V) (loaded : ℕ)
  | answered (entry : Entry V) (moment : ℕ)
  | failed
  deriving DecidableEq

structure Call (R V L : Type*) where
  request : R
  stage : Stage V L
  deriving DecidableEq

structure World (K R V L D : Type*) where
  now : ℕ
  data : D
  cache : K → Option (Entry V)
  calls : List (Call R V L)

inductive Label (K R D : Type*) where
  | call (request : R)
  | go (place : ℕ)
  | fail (place : ℕ)
  | change (data : D)
  | pass (time : ℕ)
  | forget (key : K)

namespace World

/-- The requests that were made. -/
def requests (w : World K R V L D) : List R := w.calls.map Call.request

variable (ttl : ℕ) (w : World K R V L D)

/-- The entry of a key that has not expired. -/
def fresh (key : K) : Option (Entry V) :=
  (w.cache key).filter (fun entry => w.now < entry.stored + ttl)

variable (loader : Loader R V L D) (keyOf : R → K)

/-- The entry that answers a request, if there is one and it is asked for. -/
def found (request : R) : Option (Entry V) :=
  if loader.looks request then w.fresh ttl (keyOf request) else none

/-- The next step of a call, and the cache after it. -/
def next (call : Call R V L) : Option (Stage V L × (K → Option (Entry V))) :=
  match call.stage with
  | .asking =>
    match w.found ttl loader keyOf call.request with
    | some entry => some (.answered entry w.now, w.cache)
    | none => some (.loading (loader.start call.request), w.cache)
  | .loading progress =>
    match loader.step w.data call.request progress with
    | .inl more => some (.loading more, w.cache)
    | .inr value => some (.storing value w.now, w.cache)
  | .storing value loaded =>
    some (.answered ⟨value, loaded, w.now⟩ w.now,
      if loader.stores call.request value then
        Function.update w.cache (keyOf call.request) (some ⟨value, loaded, w.now⟩)
      else w.cache)
  | .answered _ _ | .failed => none

end World

variable (ttl : ℕ) (loader : Loader R V L D) (keyOf : R → K)

def step (w : World K R V L D) : Label K R D → Option (World K R V L D)
  | .call request => some { w with calls := w.calls ++ [⟨request, .asking⟩] }
  | .go place =>
    (w.calls[place]?).bind (fun call => (w.next ttl loader keyOf call).map (fun (stage, cache) =>
      { w with cache, calls := w.calls.set place { call with stage } }))
  | .fail place =>
    (w.calls[place]?).map (fun call =>
      { w with calls := w.calls.set place { call with stage := .failed } })
  | .change data => some { w with data }
  | .pass time => some { w with now := w.now + time }
  | .forget key => some { w with cache := Function.update w.cache key none }

/-- Nothing is cached yet. -/
def start (data : D) : World K R V L D := ⟨0, data, fun _ => none, []⟩

/-- The data was so at that moment of the run. -/
def Passed (data : D) (labels : List (Label K R D)) (moment : ℕ) (held : D) : Prop :=
  ∃ before w, before <+: labels ∧ run (step ttl loader keyOf) (start data) before = some w ∧
    w.now = moment ∧ w.data = held

/-! ## What answers are -/

variable (held : ℕ → D → Prop) (Loading : R → L → Prop) (Loaded : ℕ → R → V → Prop)

/-- A load keeps what it is to ensure, whatever of the data it meets. -/
structure Loader.Keeps : Prop where
  start : ∀ request, Loading request (loader.start request)
  more : ∀ moment data request progress later, held moment data → Loading request progress →
    loader.step data request progress = .inl later → Loading request later
  done : ∀ moment data request progress value, held moment data → Loading request progress →
    loader.step data request progress = .inr value → Loaded moment request value

/-- The entry was loaded and put there for some request of those with the key. -/
def Sourced (requests : List R) (key : K) (entry : Entry V) : Prop :=
  ∃ request ∈ requests, keyOf request = key ∧ loader.stores request entry.value = true ∧
    Loaded entry.loaded request entry.value

/-- An answer was loaded for the request itself, or is one of the cache that lives. -/
def Stage.Sound (requests : List R) (now : ℕ) (request : R) : Stage V L → Prop
  | .asking | .failed => True
  | .loading progress => Loading request progress
  | .storing value loaded => loaded ≤ now ∧ Loaded loaded request value
  | .answered entry moment =>
    entry.loaded ≤ entry.stored ∧ entry.stored ≤ moment ∧ moment ≤ now ∧
      (entry.stored = moment ∧ Loaded entry.loaded request entry.value ∨
        moment < entry.stored + ttl ∧ loader.looks request = true ∧
          Sourced loader keyOf Loaded requests (keyOf request) entry)

structure Sound (w : World K R V L D) : Prop where
  cached : ∀ key entry, w.cache key = some entry → entry.loaded ≤ entry.stored ∧
    entry.stored ≤ w.now ∧ Sourced loader keyOf Loaded w.requests key entry
  stages : ∀ call ∈ w.calls,
    call.stage.Sound ttl loader keyOf Loading Loaded w.requests w.now call.request

variable {ttl loader keyOf held Loading Loaded}

omit [DecidableEq K] in
theorem Sourced.mono {requests requests' : List R} {key : K} {entry : Entry V}
    (sourced : Sourced loader keyOf Loaded requests key entry) (more : requests ⊆ requests') :
    Sourced loader keyOf Loaded requests' key entry := by
  obtain ⟨request, asked, same, stores, loaded⟩ := sourced
  exact ⟨request, more asked, same, stores, loaded⟩

omit [DecidableEq K] in
theorem Stage.Sound.mono {requests requests' : List R} {now now' : ℕ} {request : R}
    {stage : Stage V L}
    (sound : stage.Sound ttl loader keyOf Loading Loaded requests now request)
    (more : requests ⊆ requests') (later : now ≤ now') :
    stage.Sound ttl loader keyOf Loading Loaded requests' now' request := by
  cases stage with
  | asking => trivial
  | loading progress => exact sound
  | storing value loaded => exact ⟨Nat.le_trans sound.1 later, sound.2⟩
  | answered entry moment =>
    obtain ⟨first, before, past, own | ⟨alive, looks, sourced⟩⟩ := sound
    · exact ⟨first, before, Nat.le_trans past later, Or.inl own⟩
    · exact ⟨first, before, Nat.le_trans past later, Or.inr ⟨alive, looks, sourced.mono more⟩⟩
  | failed => trivial

omit [DecidableEq K] in
theorem requests_set (w : World K R V L D) {place : ℕ} {call : Call R V L}
    (there : w.calls[place]? = some call) (stage : Stage V L) :
    (w.calls.set place { call with stage }).map Call.request = w.requests := by
  obtain ⟨inside, rfl⟩ := List.getElem?_eq_some_iff.mp there
  rw [World.requests, List.map_set]
  refine List.ext_getElem (by simp) (fun i _ _ => ?_)
  rw [List.getElem_set]
  split_ifs with same
  · subst same
    rw [List.getElem_map]
  · rfl

omit [DecidableEq K] in
theorem sound_start (data : D) :
    Sound ttl loader keyOf Loading Loaded (start data : World K R V L D) :=
  ⟨fun _ _ none => (nomatch none), fun _ none => nomatch none⟩

omit [DecidableEq K] in
theorem World.found_eq_some {w : World K R V L D} {request : R} {entry : Entry V} :
    w.found ttl loader keyOf request = some entry ↔ loader.looks request = true ∧
      w.cache (keyOf request) = some entry ∧ w.now < entry.stored + ttl := by
  rw [World.found]
  split_ifs with looks
  · rw [World.fresh, Option.filter_eq_some_iff, decide_eq_true_eq]
    exact (and_iff_right looks).symm
  · simp [looks]

/-- A call that goes on keeps the cache and its own stage sound. -/
theorem Sound.next {w : World K R V L D} (keeps : loader.Keeps held Loading Loaded)
    (now : held w.now w.data) (sound : Sound ttl loader keyOf Loading Loaded w)
    {call : Call R V L} (member : call ∈ w.calls) {stage : Stage V L}
    {cache : K → Option (Entry V)} (went : w.next ttl loader keyOf call = some (stage, cache)) :
    stage.Sound ttl loader keyOf Loading Loaded w.requests w.now call.request ∧
      ∀ key entry, cache key = some entry → entry.loaded ≤ entry.stored ∧
        entry.stored ≤ w.now ∧ Sourced loader keyOf Loaded w.requests key entry := by
  obtain ⟨request, current⟩ := call
  have own := sound.stages _ member
  have asked : request ∈ w.requests := List.mem_map_of_mem member
  cases current with
  | asking =>
    rw [World.next] at went
    cases found : w.found ttl loader keyOf request with
    | none =>
      simp only [found] at went
      obtain ⟨rfl, rfl⟩ := Prod.mk.inj (Option.some.inj went)
      exact ⟨keeps.start request, sound.cached⟩
    | some entry =>
      simp only [found] at went
      obtain ⟨rfl, rfl⟩ := Prod.mk.inj (Option.some.inj went)
      obtain ⟨looks, held, alive⟩ := World.found_eq_some.mp found
      obtain ⟨first, past, sourced⟩ := sound.cached _ _ held
      exact ⟨⟨first, past, le_rfl, Or.inr ⟨alive, looks, sourced⟩⟩, sound.cached⟩
  | loading progress =>
    rw [World.next] at went
    cases advanced : loader.step w.data request progress with
    | inl more =>
      simp only [advanced] at went
      obtain ⟨rfl, rfl⟩ := Prod.mk.inj (Option.some.inj went)
      exact ⟨keeps.more _ _ _ _ _ now own advanced, sound.cached⟩
    | inr value =>
      simp only [advanced] at went
      obtain ⟨rfl, rfl⟩ := Prod.mk.inj (Option.some.inj went)
      exact ⟨⟨le_rfl, keeps.done _ _ _ _ _ now own advanced⟩, sound.cached⟩
  | storing value loaded =>
    obtain ⟨past, loads⟩ := own
    obtain ⟨rfl, rfl⟩ := Prod.mk.inj (Option.some.inj went)
    refine ⟨⟨past, le_rfl, le_rfl, Or.inl ⟨rfl, loads⟩⟩, fun key other held => ?_⟩
    dsimp only at held
    split_ifs at held with stores
    · by_cases same : key = keyOf request
      · subst same
        rw [Function.update_self] at held
        obtain rfl := Option.some.inj held
        exact ⟨past, le_rfl, request, asked, rfl, stores, loads⟩
      · rw [Function.update_of_ne same] at held
        exact sound.cached key other held
    · exact sound.cached key other held
  | answered entry moment => cases went
  | failed => cases went

theorem Sound.step {w later : World K R V L D} {label : Label K R D}
    (keeps : loader.Keeps held Loading Loaded) (now : held w.now w.data)
    (sound : Sound ttl loader keyOf Loading Loaded w)
    (stepped : TimedMemo.step ttl loader keyOf w label = some later) :
    Sound ttl loader keyOf Loading Loaded later := by
  cases label with
  | call request =>
    obtain rfl := Option.some.inj stepped
    have more : w.requests ⊆ (w.calls ++ [(⟨request, .asking⟩ : Call R V L)]).map Call.request := by
      rw [List.map_append]
      exact List.subset_append_left _ _
    refine ⟨fun key entry held => ?_, fun call member => ?_⟩
    · obtain ⟨first, past, sourced⟩ := sound.cached key entry held
      exact ⟨first, past, sourced.mono more⟩
    · rcases List.mem_append.mp member with before | last
      · exact (sound.stages call before).mono more le_rfl
      · obtain rfl := List.mem_singleton.mp last
        trivial
  | go place =>
    obtain ⟨call, there, rest⟩ := Option.bind_eq_some_iff.mp stepped
    obtain ⟨⟨stage, cache⟩, went, rfl⟩ := Option.map_eq_some_iff.mp rest
    obtain ⟨own, cached⟩ := sound.next keeps now (List.mem_of_getElem? there) went
    have same := requests_set w there stage
    refine ⟨fun key entry held => ?_, fun other member => ?_⟩
    · rw [World.requests, same]
      exact cached key entry held
    · rw [World.requests, same]
      rcases List.mem_or_eq_of_mem_set member with before | rfl
      · exact sound.stages other before
      · exact own
  | fail place =>
    obtain ⟨call, there, rfl⟩ := Option.map_eq_some_iff.mp stepped
    have same := requests_set w there .failed
    refine ⟨fun key entry held => ?_, fun other member => ?_⟩
    · rw [World.requests, same]
      exact sound.cached key entry held
    · rw [World.requests, same]
      rcases List.mem_or_eq_of_mem_set member with before | rfl
      · exact sound.stages other before
      · trivial
  | change data =>
    obtain rfl := Option.some.inj stepped
    exact ⟨sound.cached, sound.stages⟩
  | pass time =>
    obtain rfl := Option.some.inj stepped
    refine ⟨fun key entry held => ?_, fun call member => ?_⟩
    · obtain ⟨first, past, sourced⟩ := sound.cached key entry held
      exact ⟨first, Nat.le_trans past (Nat.le_add_right _ _), sourced⟩
    · exact (sound.stages call member).mono (List.Subset.refl _) (Nat.le_add_right _ _)
  | forget key =>
    obtain rfl := Option.some.inj stepped
    refine ⟨fun other entry held => ?_, sound.stages⟩
    change Function.update w.cache key none other = some entry at held
    by_cases same : other = key
    · subst same
      rw [Function.update_self] at held
      cases held
    · rw [Function.update_of_ne same] at held
      exact sound.cached other entry held

/-- In every run, an answer is what a load ensures of its value with the data of some moment of
the run, for the request itself or for one with the same key, in which case it was stored no
longer ago than values live. -/
theorem sound_run {labels : List (Label K R D)} {data : D} {w : World K R V L D}
    (keeps : loader.Keeps (Passed ttl loader keyOf data labels) Loading Loaded)
    (ran : run (TimedMemo.step ttl loader keyOf) (start data) labels = some w) :
    Sound ttl loader keyOf Loading Loaded w := by
  refine run_invariant_prefix (fun before label inside state next reaches sound stepped => ?_)
    (sound_start data) ran
  exact sound.step keeps
    ⟨before, state, (List.prefix_append _ _).trans inside, reaches, rfl, rfl⟩ stepped

/-- Only what is called is requested. -/
theorem requests_run {labels : List (Label K R D)} {data : D} {w : World K R V L D}
    (ran : run (TimedMemo.step ttl loader keyOf) (start data) labels = some w) :
    ∀ request ∈ w.requests, .call request ∈ labels := by
  refine @run_invariant_mem _ _ _ (fun w : World K R V L D =>
    ∀ request ∈ w.requests, .call request ∈ labels) labels ?_ _ _
    (fun _ none => absurd none List.not_mem_nil) ran
  intro label member w later asked stepped
  cases label with
  | call request =>
    obtain rfl := Option.some.inj stepped
    intro other inside
    rw [World.requests, List.map_append] at inside
    rcases List.mem_append.mp inside with before | last
    · exact asked other before
    · obtain rfl := List.mem_singleton.mp last
      exact member
  | go place =>
    obtain ⟨call, there, rest⟩ := Option.bind_eq_some_iff.mp stepped
    obtain ⟨⟨stage, cache⟩, -, rfl⟩ := Option.map_eq_some_iff.mp rest
    rw [World.requests, requests_set w there stage]
    exact asked
  | fail place =>
    obtain ⟨call, there, rfl⟩ := Option.map_eq_some_iff.mp stepped
    rw [World.requests, requests_set w there .failed]
    exact asked
  | change data =>
    obtain rfl := Option.some.inj stepped
    exact asked
  | pass time =>
    obtain rfl := Option.some.inj stepped
    exact asked
  | forget key =>
    obtain rfl := Option.some.inj stepped
    exact asked

end TimedMemo
