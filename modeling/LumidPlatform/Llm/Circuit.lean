import LumidPlatform.Lib.Transitions
import LumidPlatform.Llm.Pool
import Mathlib.Algebra.Group.Int.Defs
import Mathlib.Data.List.Infix

/-!
# The circuit of a backend

Requests and probes tell a backend's handle how they fared, and hold a slot of it meanwhile.
What they tell takes two atomic steps: a success first clears the failures and then closes the
circuit, and a failure first counts itself and opens the circuit after, if it was the third in a
row or a later one. The steps of different calls mix, so a failure may open the circuit behind a
success. The next calls that do not mix set it right. The counters are machine words: the failures
that are counted start again at zero behind the last `u32`, and the slots wrap as an `i32`.
-/

namespace LumidPlatform.Llm.Circuit

open Transitions

/-- A call between its two steps. -/
inductive Pending where
  | closing
  /-- The count that `fetch_add` came to. -/
  | counted (n : Nat)
  deriving DecidableEq

/-- The handle of one backend, the guards that are alive, and the calls under way. The log has
the calls in the order in which they took their first steps. -/
structure World where
  load : Load := Load.initial
  guards : Nat := 0
  pending : List Pending := []
  log : List Bool := []

inductive Label where
  | acquire
  | drop
  /-- `on_connect_ok` or `on_connect_err` takes its first step. -/
  | tell (ok : Bool)
  | finish (place : Nat)

/-- The first step of a call. -/
def World.told (w : World) (ok : Bool) : World :=
  if ok then { w with
    load := { w.load with failures := 0 }
    pending := w.pending ++ [.closing]
    log := w.log ++ [true] }
  else { w with
    load := { w.load with failures := wrapU32 (w.load.failures + 1) }
    pending := w.pending ++ [.counted (wrapU32 (w.load.failures + 1))]
    log := w.log ++ [false] }

/-- The second step of a call: the circuit is set. -/
def Pending.finish (pending : Pending) (load : Load) : Load :=
  match pending with
  | closing => { load with healthy := true }
  | counted n => if circuitOpenAfter ≤ n then { load with healthy := false } else load

def step (w : World) : Label → Option World
  | .acquire => some { w with
      load := { w.load with inflight := wrapI32 (w.load.inflight + 1) }
      guards := w.guards + 1 }
  | .drop =>
    if 0 < w.guards then some { w with
      load := { w.load with inflight := wrapI32 (w.load.inflight - 1) }
      guards := w.guards - 1 }
    else none
  | .tell ok => some (w.told ok)
  | .finish place =>
    (w.pending[place]?).map (fun pending => { w with
      load := pending.finish w.load
      pending := w.pending.eraseIdx place })

/-! ## Failures in a row -/

/-- The failures since the last success. -/
def row (log : List Bool) : Nat := log.foldl (fun n ok => if ok then 0 else n + 1) 0

@[simp] theorem row_success (log : List Bool) : row (log ++ [true]) = 0 := by
  rw [row, List.foldl_append]
  rfl

@[simp] theorem row_failure (log : List Bool) : row (log ++ [false]) = row log + 1 := by
  rw [row, List.foldl_append, row]
  rfl

/-- As many failures in a row are the end of the log. -/
theorem row_suffix {log : List Bool} {n : Nat} (many : n ≤ row log) :
    List.replicate n false <:+ log := by
  induction log using List.reverseRecOn generalizing n with
  | nil =>
    obtain rfl := Nat.le_zero.mp many
    exact List.suffix_refl _
  | append_singleton log ok inductionHypothesis =>
    cases n with
    | zero => exact List.nil_suffix
    | succ n =>
      cases ok with
      | true =>
        rw [row_success] at many
        omega
      | false =>
        rw [row_failure] at many
        rw [List.replicate_succ']
        obtain ⟨before, rfl⟩ := inductionHypothesis (Nat.le_of_succ_le_succ many)
        exact ⟨before, by rw [List.append_assoc]⟩

/-- At some moment there were so many failures in a row. -/
def Reached (log : List Bool) (n : Nat) : Prop := ∃ before, before <+: log ∧ n ≤ row before

theorem Reached.append {log : List Bool} {n : Nat} (reached : Reached log n) (more : List Bool) :
    Reached (log ++ more) n := by
  obtain ⟨before, early, many⟩ := reached
  exact ⟨before, early.trans (List.prefix_append _ _), many⟩

/-! ## Runs -/

/-- One more slot than a wrapped count is one more, wrapped. -/
theorem wrapI32_add (n m : Int) : wrapI32 (wrapI32 n + m) = wrapI32 (n + m) :=
  Int.bmod_add_bmod

theorem wrapI32_sub (n m : Int) : wrapI32 (wrapI32 n - m) = wrapI32 (n - m) :=
  Int.bmod_sub_bmod

theorem wrapU32_succ (n : Nat) : wrapU32 (wrapU32 n + 1) = wrapU32 (n + 1) :=
  Nat.mod_add_mod n _ 1

/-- The slots are counted, and so are the failures; what a call has counted there was, and an
open circuit had three failures in a row. -/
structure Sound (w : World) : Prop where
  slots : w.load.inflight = wrapI32 w.guards
  failures : w.load.failures = wrapU32 (row w.log)
  counted : ∀ n, .counted n ∈ w.pending → Reached w.log n
  opened : w.load.healthy = false → Reached w.log circuitOpenAfter

theorem Sound.start : Sound {} :=
  ⟨rfl, rfl, fun _ none => absurd none List.not_mem_nil, fun opened => nomatch opened⟩

theorem Sound.told {w : World} (sound : Sound w) (ok : Bool) : Sound (w.told ok) := by
  cases ok with
  | true =>
    have cleared : 0 = wrapU32 (row (w.log ++ [true])) := by
      rw [row_success]
      rfl
    refine ⟨sound.slots, cleared, fun n member => ?_,
      fun opened => (sound.opened opened).append _⟩
    rcases List.mem_append.mp member with before | last
    · exact (sound.counted n before).append _
    · cases List.mem_singleton.mp last
  | false =>
    have counted : wrapU32 (w.load.failures + 1) = wrapU32 (row (w.log ++ [false])) := by
      rw [sound.failures, row_failure, wrapU32_succ]
    refine ⟨sound.slots, counted, fun n member => ?_,
      fun opened => (sound.opened opened).append _⟩
    rcases List.mem_append.mp member with before | last
    · exact (sound.counted n before).append _
    · obtain rfl := Pending.counted.inj (List.mem_singleton.mp last)
      exact ⟨_, List.prefix_refl _, counted.le.trans (Nat.mod_le _ _)⟩

theorem Sound.step {w next : World} {label : Label} (sound : Sound w)
    (stepped : Circuit.step w label = some next) : Sound next := by
  cases label with
  | acquire =>
    obtain rfl := Option.some.inj stepped
    refine ⟨?_, sound.failures, sound.counted, sound.opened⟩
    change wrapI32 (w.load.inflight + 1) = wrapI32 ((w.guards + 1 : Nat) : Int)
    rw [sound.slots, wrapI32_add]
    rfl
  | drop =>
    rw [Circuit.step] at stepped
    split_ifs at stepped with some
    obtain rfl := Option.some.inj stepped
    refine ⟨?_, sound.failures, sound.counted, sound.opened⟩
    change wrapI32 (w.load.inflight - 1) = wrapI32 ((w.guards - 1 : Nat) : Int)
    rw [sound.slots, wrapI32_sub, Nat.cast_pred some]
  | tell ok =>
    obtain rfl := Option.some.inj stepped
    exact sound.told ok
  | finish place =>
    obtain ⟨pending, there, rfl⟩ := Option.map_eq_some_iff.mp stepped
    have counted : ∀ n, .counted n ∈ w.pending.eraseIdx place → Reached w.log n :=
      fun n member => sound.counted n (List.mem_of_mem_eraseIdx member)
    cases pending with
    | closing => exact ⟨sound.slots, sound.failures, counted, fun opened => nomatch opened⟩
    | counted n =>
      have reached := sound.counted n (List.mem_of_getElem? there)
      simp only [Pending.finish]
      split_ifs with enough
      · obtain ⟨before, early, many⟩ := reached
        exact ⟨sound.slots, sound.failures, counted, fun _ => ⟨before, early, enough.trans many⟩⟩
      · exact ⟨sound.slots, sound.failures, counted, sound.opened⟩

/-! ## Calls that do not mix -/

/-- A call takes its steps while no other one is under way. -/
def alone (ok : Bool) : List Label := [.tell ok, .finish 0]

/-- A call that takes one step. -/
def told (url : Str) (loads : Loads) (ok : Bool) : Loads :=
  if ok then loads.onConnectOk url else loads.onConnectErr url

theorem told_self {url : Str} {loads : Loads} {load : Load} (here : loads url = load) (ok : Bool) :
    told url loads ok url =
      if ok then { load with failures := 0, healthy := true }
      else { load with
        failures := wrapU32 (load.failures + 1)
        healthy := load.healthy && wrapU32 (load.failures + 1) < circuitOpenAfter } := by
  subst here
  cases ok with
  | true => exact Function.update_self _ _ _
  | false => exact Function.update_self _ _ _

/-- Its two steps come to the one step. -/
theorem run_alone {w : World} (quiet : w.pending = []) (ok : Bool) :
    ∃ next, run step w (alone ok) = some next ∧ next.pending = [] ∧
      ∀ url (loads : Loads), loads url = w.load → told url loads ok url = next.load := by
  cases ok with
  | true =>
    refine ⟨{ w with
      load := { w.load with failures := 0, healthy := true }
      pending := []
      log := w.log ++ [true] }, ?_, rfl, fun url loads here => told_self here true⟩
    simp [alone, run, step, World.told, quiet, Pending.finish]
  | false =>
    refine ⟨{ w with
      load := Pending.finish (.counted (wrapU32 (w.load.failures + 1)))
        { w.load with failures := wrapU32 (w.load.failures + 1) }
      pending := []
      log := w.log ++ [false] }, ?_, rfl, fun url loads here => ?_⟩
    · simp [alone, run, step, World.told, quiet]
    · rw [told_self here, if_neg Bool.false_ne_true]
      dsimp only [Pending.finish]
      split_ifs with many
      · rw [decide_eq_false (Nat.not_lt.mpr many), Bool.and_false]
      · rw [decide_eq_true (Nat.not_le.mp many), Bool.and_true]

/-- Calls that do not mix come to what they would come to in one step each. -/
theorem run_calls (calls : List Bool) {w : World} (quiet : w.pending = []) :
    ∃ next, run step w (calls.flatMap alone) = some next ∧ next.pending = [] ∧
      ∀ url (loads : Loads), loads url = w.load →
        (calls.foldl (told url) loads) url = next.load := by
  induction calls generalizing w with
  | nil => exact ⟨w, rfl, quiet, fun _ _ here => here⟩
  | cons ok rest inductionHypothesis =>
    obtain ⟨middle, first, still, one⟩ := run_alone quiet ok
    obtain ⟨next, later, done, all⟩ := inductionHypothesis still
    refine ⟨next, ?_, done, fun url loads here => all url _ (one url loads here)⟩
    rw [List.flatMap_cons, run_append, first, Option.bind_some, later]

/-- Failures in a row that find some count come to one that opens the circuit: the third of them
at the latest, or the fourth where the first one wraps. -/
theorem opens_among {failures calls : Nat} (typed : failures < 2 ^ 32)
    (enough : 4 ≤ calls ∨ circuitOpenAfter ≤ calls ∧ failures ≠ 2 ^ 32 - 1) :
    ∃ n, 0 < n ∧ n ≤ calls ∧ circuitOpenAfter ≤ wrapU32 (failures + n) := by
  unfold circuitOpenAfter wrapU32 at *
  by_cases last : failures = 2 ^ 32 - 1
  · exact ⟨4, by omega, by omega, by omega⟩
  · by_cases many : 2 ≤ failures
    · exact ⟨1, by omega, by omega, by omega⟩
    · exact ⟨3 - failures, by omega, by omega, by omega⟩

/-- What calls of one step each leave: after a success they alone decide, and without one the
circuit is open where one of the counts opened it. -/
theorem foldl_told (url : Str) (loads : Loads) (calls : List Bool) :
    (true ∈ calls → ((calls.foldl (told url) loads) url).failures = wrapU32 (row calls) ∧
      ((calls.foldl (told url) loads) url).healthy = decide (row calls < circuitOpenAfter)) ∧
    (true ∉ calls → row calls = calls.length ∧
      wrapU32 ((calls.foldl (told url) loads) url).failures =
        wrapU32 ((loads url).failures + calls.length) ∧
      ∀ n, 0 < n → n ≤ calls.length → circuitOpenAfter ≤ wrapU32 ((loads url).failures + n) →
        ((calls.foldl (told url) loads) url).healthy = false) := by
  induction calls using List.reverseRecOn with
  | nil =>
    refine ⟨fun none => absurd none List.not_mem_nil, fun _ => ⟨rfl, rfl, fun n some none => ?_⟩⟩
    exact absurd (some.trans_le none) (lt_irrefl 0)
  | append_singleton calls ok inductionHypothesis =>
    obtain ⟨success, failures⟩ := inductionHypothesis
    rw [List.foldl_append, List.foldl_cons, List.foldl_nil, told_self rfl]
    cases ok with
    | true =>
      rw [row_success]
      exact ⟨fun _ => ⟨rfl, rfl⟩, fun none => absurd (by simp) none⟩
    | false =>
      rw [row_failure, List.length_append, List.length_singleton, if_neg Bool.false_ne_true]
      simp only [List.mem_append, List.mem_singleton, reduceCtorEq, or_false]
      refine ⟨fun some => ?_, fun none => ?_⟩
      · obtain ⟨count, circuit⟩ := success some
        rw [count, circuit, wrapU32_succ, ← Bool.decide_and]
        refine ⟨rfl, decide_eq_decide.mpr ?_⟩
        unfold wrapU32 circuitOpenAfter
        omega
      · obtain ⟨length, count, opened⟩ := failures none
        have next : wrapU32 (((calls.foldl (told url) loads) url).failures + 1) =
            wrapU32 ((loads url).failures + (calls.length + 1)) := by
          rw [← wrapU32_succ, count, wrapU32_succ, Nat.add_assoc]
        refine ⟨by rw [length], ?_, fun n positive early enough => ?_⟩
        · rw [next]
          exact Nat.mod_mod _ _
        · rcases Nat.lt_or_ge calls.length n with now | before
          · obtain rfl : n = calls.length + 1 := by omega
            rw [next, decide_eq_false (Nat.not_lt.mpr enough), Bool.and_false]
          · rw [opened n positive before enough, Bool.false_and]

/-- In every run the slots are those of the guards, as an `i32`, and an open circuit had three
failures in a row. Where no call is under way, the next calls that do not mix come to what they
would in one step each. After a success among them the circuit is open exactly where they end in
three failures; without one, after three calls, or after four where the count of failures stands
at the last `u32`. -/
theorem circuit_exact {labels : List Label} {w : World} (ran : run step {} labels = some w) :
    w.load.inflight = wrapI32 w.guards ∧
    (w.load.healthy = false →
      ∃ before after, w.log = before ++ List.replicate circuitOpenAfter false ++ after) ∧
    (w.pending = [] → ∀ calls, ∃ next, run step w (calls.flatMap alone) = some next ∧
      (∀ url (loads : Loads), loads url = w.load →
        (calls.foldl (told url) loads) url = next.load) ∧
      (true ∈ calls ∨ 4 ≤ calls.length ∨
          circuitOpenAfter ≤ calls.length ∧ w.load.failures ≠ 2 ^ 32 - 1 →
        next.load.healthy = decide (row calls < circuitOpenAfter))) := by
  have sound : Sound w := run_invariant (fun _ _ _ => Sound.step) Sound.start ran
  refine ⟨sound.slots, fun opened => ?_, fun quiet calls => ?_⟩
  · obtain ⟨early, ⟨later, whole⟩, many⟩ := sound.opened opened
    obtain ⟨before, cut⟩ := row_suffix many
    exact ⟨before, later, by rw [cut, whole]⟩
  · obtain ⟨next, goes, -, atomic⟩ := run_calls calls quiet
    refine ⟨next, goes, atomic, fun enough => ?_⟩
    have load := atomic [] (fun _ => w.load) rfl
    obtain ⟨success, failures⟩ := foldl_told [] (fun _ => w.load) calls
    rw [load] at success failures
    by_cases some : true ∈ calls
    · exact (success some).2
    · have many := enough.resolve_left some
      have typed : w.load.failures < 2 ^ 32 := by
        rw [sound.failures]
        exact Nat.mod_lt _ (by decide)
      obtain ⟨length, -, opened⟩ := failures some
      obtain ⟨n, positive, early, counted⟩ := opens_among typed many
      rw [opened n positive early counted, length]
      exact (decide_eq_false (Nat.not_lt.mpr (many.elim (Nat.le_of_succ_le ·) And.left))).symm

/-- The third failure opens the circuit behind a success that began later, while a slot is
held. -/
def overtaken : List Label :=
  [.acquire] ++ alone false ++ alone false ++ [.tell false, .tell true, .finish 1, .finish 0]

theorem overtaken_right : ∃ w next, run step {} overtaken = some w ∧ w.load.healthy = false ∧
    w.log = [false, false, false, true] ∧ w.load.inflight = wrapI32 w.guards ∧
    run step w (alone true) = some next ∧ next.load.healthy = true := by
  have shows : (run step {} overtaken).map (fun w => (w.load.healthy, w.log, w.pending)) =
      some (false, [false, false, false, true], []) := by decide
  obtain ⟨w, ran, same⟩ := Option.map_eq_some_iff.mp shows
  obtain ⟨healthy, log, quiet⟩ := Prod.mk.inj same |>.imp id Prod.mk.inj
  obtain ⟨slots, -, calls⟩ := circuit_exact ran
  obtain ⟨next, goes, -, closed⟩ := calls quiet [true]
  exact ⟨w, next, ran, healthy, log, slots, goes, closed (Or.inl (by simp))⟩

end LumidPlatform.Llm.Circuit
