import Mathlib.Init

/-!
# Actions that can stop

An action takes a state and ends in a value or in a reason to stop, with the state it leaves.
What follows an action is not done once it has stopped. An invariant that is kept by the parts
of an action is kept by the action, wherever it stops; and a view of the state that the parts
leave alone is left alone.
-/

namespace LumidPlatform

variable {S E T U V : Type}

/-- An action on a state `S`, with a value `T` or a reason `E` to stop. -/
structure Fallible (S E T : Type) where
  run : S → Except E T × S

namespace Fallible

instance : Monad (Fallible S E) where
  pure t := ⟨fun s => (.ok t, s)⟩
  bind m f := ⟨fun s =>
    match m.run s with
    | (.ok t, s) => (f t).run s
    | (.error e, s) => (.error e, s)⟩

/-- To end for a reason. -/
def stop (e : E) : Fallible S E T := ⟨fun s => (.error e, s)⟩

/-- To change the state. -/
def change (f : S → S) : Fallible S E Unit := ⟨fun s => (.ok (), f s)⟩

variable {m : Fallible S E T} {f : T → Fallible S E U} {s s' : S}

@[simp] theorem run_pure (t : T) : (pure t : Fallible S E T).run s = (.ok t, s) := rfl

@[simp] theorem run_stop (e : E) : (stop e : Fallible S E T).run s = (.error e, s) := rfl

@[simp] theorem run_change (f : S → S) : (change f : Fallible S E Unit).run s = (.ok (), f s) := rfl

theorem run_bind_ok {t : T} (first : m.run s = (.ok t, s')) :
    (m >>= f).run s = (f t).run s' := by
  show (match m.run s with
    | (.ok t, s) => (f t).run s
    | (.error e, s) => (.error e, s)) = _
  rw [first]

theorem run_bind_error {e : E} (first : m.run s = (.error e, s')) :
    (m >>= f).run s = (.error e, s') := by
  show (match m.run s with
    | (.ok t, s) => (f t).run s
    | (.error e, s) => (.error e, s)) = _
  rw [first]

/-- First parts that end alike are followed alike. -/
theorem run_bind_congr {m' : Fallible S E T} (same : m.run s = m'.run s') :
    (m >>= f).run s = (m' >>= f).run s' := by
  cases first : m'.run s' with
  | mk result between =>
    rw [first] at same
    cases result with
    | ok t => rw [run_bind_ok first, run_bind_ok same]
    | error e => rw [run_bind_error first, run_bind_error same]

/-- An action ends for a reason of its first part, or of what follows it. -/
theorem run_bind_eq_error {e : E} : ((m >>= f).run s).1 = .error e ↔ (m.run s).1 = .error e ∨
    ∃ t between, m.run s = (.ok t, between) ∧ ((f t).run between).1 = .error e := by
  cases first : m.run s with
  | mk result between =>
    cases result with
    | ok t =>
      rw [run_bind_ok first]
      constructor
      · exact fun next => Or.inr ⟨t, between, rfl, next⟩
      · rintro (impossible | ⟨_, _, same, next⟩)
        · cases impossible
        · obtain ⟨value, rfl⟩ := Prod.mk.inj same
          obtain rfl := Except.ok.inj value
          exact next
    | error reason =>
      rw [run_bind_error first]
      simp

/-! ## Invariants -/

/-- The action keeps an invariant, also where it stops. -/
def Keeps (I : S → Prop) (m : Fallible S E T) : Prop := ∀ s, I s → I (m.run s).2

variable {I : S → Prop}

theorem Keeps.pure (t : T) : Keeps I (Pure.pure t : Fallible S E T) := fun _ holds => holds

theorem Keeps.stop (e : E) : Keeps I (stop e : Fallible S E T) := fun _ holds => holds

theorem Keeps.bind (first : Keeps I m) (next : ∀ t, Keeps I (f t)) : Keeps I (m >>= f) := by
  intro s holds
  have kept := first s holds
  cases ended : m.run s with
  | mk result between =>
    rw [ended] at kept
    cases result with
    | ok t =>
      rw [run_bind_ok ended]
      exact next t between kept
    | error e =>
      rw [run_bind_error ended]
      exact kept

/-! ## Views -/

/-- The action leaves a view of the state as it is. -/
def Leaves (view : S → V) (m : Fallible S E T) : Prop := ∀ s, view (m.run s).2 = view s

variable {view : S → V}

theorem Leaves.pure (t : T) : Leaves view (Pure.pure t : Fallible S E T) := fun _ => rfl

theorem Leaves.stop (e : E) : Leaves view (stop e : Fallible S E T) := fun _ => rfl

theorem Leaves.bind (first : Leaves view m) (next : ∀ t, Leaves view (f t)) :
    Leaves view (m >>= f) := by
  intro s
  have same := first s
  cases ended : m.run s with
  | mk result between =>
    rw [ended] at same
    cases result with
    | ok t =>
      rw [run_bind_ok ended, next t between]
      exact same
    | error e =>
      rw [run_bind_error ended]
      exact same

end Fallible

end LumidPlatform
