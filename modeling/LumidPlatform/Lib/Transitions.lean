import Mathlib.Data.List.Induction

/-!
# Runs of a labelled transition system

A system is a partial step function: a label names what happens next, and `none` says
that it cannot happen in this state. A run is a list of labels, and a state is reached
when some run ends in it. A condition on single steps cuts the system down to the runs
all of whose steps meet it.
-/

namespace Transitions

variable {State Label : Type*}

/-- The state a run ends in, if each of its steps can be taken. -/
def run (step : State → Label → Option State) (start : State) (labels : List Label) :
    Option State :=
  labels.foldlM step start

/-- Some run from the start ends in the state. -/
def Reaches (step : State → Label → Option State) (start reached : State) : Prop :=
  ∃ labels, run step start labels = some reached

/-- The system with only the steps that meet a condition on the state before. -/
def guarded (allowed : State → Label → Bool) (step : State → Label → Option State)
    (state : State) (label : Label) : Option State :=
  if allowed state label then step state label else none

theorem run_cons (step : State → Label → Option State) (start : State) (label : Label)
    (labels : List Label) :
    run step start (label :: labels) = (step start label).bind (fun next => run step next labels) :=
  rfl

/-- A run of two parts ends where its second part ends. -/
theorem run_append (step : State → Label → Option State) (start : State)
    (before rest : List Label) :
    run step start (before ++ rest) =
      (run step start before).bind (fun middle => run step middle rest) :=
  List.foldlM_append

/-- What holds at the start and is kept by every step of a run holds at its end. -/
theorem run_invariant_mem {step : State → Label → Option State} {Inv : State → Prop}
    {labels : List Label}
    (kept : ∀ label ∈ labels, ∀ state next, Inv state → step state label = some next → Inv next)
    {start reached : State} (initially : Inv start)
    (ran : run step start labels = some reached) : Inv reached := by
  induction labels generalizing start with
  | nil =>
    obtain rfl : start = reached := Option.some.inj ran
    exact initially
  | cons label rest inductionHypothesis =>
    rw [run_cons] at ran
    obtain ⟨next, taken, onward⟩ := Option.bind_eq_some_iff.mp ran
    refine inductionHypothesis (fun later member => kept later (List.mem_cons_of_mem _ member))
      ?_ onward
    exact kept label List.mem_cons_self start next initially taken

/-- What holds at the start and is kept by every step of a run from where the run then is. -/
theorem run_invariant_prefix {step : State → Label → Option State} {Inv : State → Prop}
    {labels : List Label} {start reached : State}
    (kept : ∀ before label, before ++ [label] <+: labels → ∀ state next,
      run step start before = some state → Inv state → step state label = some next → Inv next)
    (initially : Inv start) (ran : run step start labels = some reached) : Inv reached := by
  induction labels using List.reverseRecOn generalizing reached with
  | nil =>
    obtain rfl : start = reached := Option.some.inj ran
    exact initially
  | append_singleton before label inductionHypothesis =>
    rw [run_append] at ran
    obtain ⟨middle, reaches, single⟩ := Option.bind_eq_some_iff.mp ran
    obtain ⟨next, taken, last⟩ := Option.bind_eq_some_iff.mp single
    obtain rfl : next = reached := Option.some.inj last
    refine kept before label (List.prefix_refl _) middle next reaches ?_ taken
    exact inductionHypothesis (fun earlier later inside =>
      kept earlier later (inside.trans (List.prefix_append _ _))) reaches

/-- What holds at the start and is kept by every step holds at the end of every run. -/
theorem run_invariant {step : State → Label → Option State} {Inv : State → Prop}
    (kept : ∀ state label next, Inv state → step state label = some next → Inv next)
    {labels : List Label} {start reached : State} (initially : Inv start)
    (ran : run step start labels = some reached) : Inv reached :=
  run_invariant_mem (fun label _ state next => kept state label next) initially ran

/-- The invariant rule. -/
theorem Reaches.invariant {step : State → Label → Option State} {Inv : State → Prop}
    {start reached : State} (reaches : Reaches step start reached) (initially : Inv start)
    (kept : ∀ state label next, Inv state → step state label = some next → Inv next) :
    Inv reached := by
  obtain ⟨labels, ran⟩ := reaches
  exact run_invariant kept initially ran

/-- A guarded step is a step that meets the condition. -/
theorem guarded_eq_some {allowed : State → Label → Bool} {step : State → Label → Option State}
    {state next : State} {label : Label} :
    guarded allowed step state label = some next ↔
      allowed state label = true ∧ step state label = some next := by
  rw [guarded]
  split_ifs with meets
  · simp [meets]
  · simp [meets]

/-- A run all of whose steps meet a condition is a run. -/
theorem run_of_guarded {allowed : State → Label → Bool} {step : State → Label → Option State}
    {start reached : State} {labels : List Label}
    (ran : run (guarded allowed step) start labels = some reached) :
    run step start labels = some reached := by
  induction labels generalizing start with
  | nil => exact ran
  | cons label rest inductionHypothesis =>
    rw [run_cons] at ran ⊢
    obtain ⟨next, taken, onward⟩ := Option.bind_eq_some_iff.mp ran
    rw [(guarded_eq_some.mp taken).2]
    exact inductionHypothesis onward

/-- The invariant rule for the runs all of whose steps meet a condition. -/
theorem Reaches.guarded_invariant {allowed : State → Label → Bool}
    {step : State → Label → Option State} {Inv : State → Prop} {start reached : State}
    (reaches : Reaches (guarded allowed step) start reached) (initially : Inv start)
    (kept : ∀ state label next, Inv state → allowed state label = true →
      step state label = some next → Inv next) : Inv reached := by
  apply reaches.invariant initially
  intro state label next holds taken
  obtain ⟨meets, stepped⟩ := guarded_eq_some.mp taken
  exact kept state label next holds meets stepped

/-- What is seen of a state says of each step exactly whether it met a condition, where the
condition keeps an invariant. Then it is seen throughout a run exactly if all of its steps meet
the condition. -/
theorem guarded_observed {allowed : State → Label → Bool}
    {step : State → Label → Option State} {Inv Seen : State → Prop} {start reached : State}
    {labels : List Label} (seen : ∀ state, Inv state → Seen state)
    (exact : ∀ state label next, Inv state → step state label = some next →
      (allowed state label = true → Inv next) ∧ (Seen next → allowed state label = true))
    (initially : Inv start) (ran : run step start labels = some reached) :
    (∀ before, before <+: labels → ∀ state, run step start before = some state → Seen state) ↔
      (run (guarded allowed step) start labels).isSome := by
  induction labels generalizing start with
  | nil =>
    refine iff_of_true (fun before inside state ends => ?_) rfl
    obtain rfl := List.prefix_nil.mp inside
    obtain rfl := Option.some.inj ends
    exact seen _ initially
  | cons label rest inductionHypothesis =>
    rw [run_cons] at ran
    obtain ⟨next, taken, onward⟩ := Option.bind_eq_some_iff.mp ran
    obtain ⟨keeps, tells⟩ := exact start label next initially taken
    have single : run step start [label] = some next := by
      rw [run_cons, taken]
      rfl
    have later (before : List Label) :
        run step start (label :: before) = run step next before := by
      rw [run_cons, taken]
      rfl
    rw [run_cons, guarded]
    by_cases meets : allowed start label = true
    · rw [if_pos meets, taken, Option.bind_some, ← inductionHypothesis (keeps meets) onward]
      constructor
      · intro all before inside state ends
        exact all (label :: before) ((List.cons_prefix_cons).mpr ⟨rfl, inside⟩) state
          (by rw [later, ends])
      · intro all before inside state ends
        cases before with
        | nil =>
          obtain rfl := Option.some.inj ends
          exact seen _ initially
        | cons other before =>
          obtain ⟨rfl, inRest⟩ := List.cons_prefix_cons.mp inside
          exact all before inRest state (by rw [← later, ends])
    · rw [if_neg meets]
      refine iff_of_false (fun all => meets (tells ?_)) (by simp)
      exact all [label] ((List.cons_prefix_cons).mpr ⟨rfl, List.nil_prefix⟩) next single

/-- Where a condition says of each step exactly whether it keeps a property, a run keeps the
property throughout exactly if all of its steps meet the condition. -/
theorem guarded_exact {allowed : State → Label → Bool} {step : State → Label → Option State}
    {Inv : State → Prop} {start reached : State} {labels : List Label}
    (exact : ∀ state label next, Inv state → step state label = some next →
      (allowed state label = true ↔ Inv next))
    (initially : Inv start) (ran : run step start labels = some reached) :
    (∀ before, before <+: labels → ∀ state, run step start before = some state → Inv state) ↔
      (run (guarded allowed step) start labels).isSome :=
  guarded_observed (fun _ holds => holds)
    (fun state label next holds taken =>
      ⟨(exact state label next holds taken).mp, (exact state label next holds taken).mpr⟩)
    initially ran

end Transitions
