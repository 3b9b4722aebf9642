import Mathlib.Data.List.Basic
import Mathlib.Data.List.Count
import Mathlib.Logic.Function.Basic

/-!
# Logs of switches

Each key has a switch that is on or off. A log records the keys that were switched, with the
position each was left in. It takes one assignment of positions to another when, key by key,
every entry changes the position the entry before it has left.
-/

namespace Switches

variable {Key : Type*}

/-- A switch in the first position goes through the positions listed, each the opposite of the
one before, and ends in the last. -/
def Toggles : Bool → List Bool → Bool → Prop
  | before, [], after => before = after
  | before, position :: rest, after => position = !before ∧ Toggles position rest after

theorem Toggles.append {first second : List Bool} {before middle after : Bool}
    (one : Toggles before first middle) (two : Toggles middle second after) :
    Toggles before (first ++ second) after := by
  induction first generalizing before with
  | nil =>
    obtain rfl : before = middle := one
    exact two
  | cons position rest inductionHypothesis =>
    exact ⟨one.1, inductionHypothesis one.2⟩

/-- The positions alternate, the first being the opposite of where the switch was. -/
theorem Toggles.alternate {positions : List Bool} {before after : Bool}
    (toggles : Toggles before positions after) (i : Nat) (inside : i < positions.length) :
    positions[i] = (before ^^ decide (i % 2 = 0)) := by
  induction positions generalizing before i with
  | nil => cases inside
  | cons position rest inductionHypothesis =>
    obtain ⟨rfl, onward⟩ := toggles
    cases i with
    | zero => simp
    | succ i =>
      have later := inductionHypothesis onward i (by simpa using inside)
      rw [List.getElem_cons_succ, later]
      have parity : (i + 1) % 2 = 0 ↔ ¬i % 2 = 0 := by omega
      simp only [parity, decide_not]
      cases before <;> simp

/-- The last position is where the switch is left. -/
theorem Toggles.last {positions : List Bool} {before after : Bool}
    (toggles : Toggles before positions after) : positions.getLast?.getD before = after := by
  induction positions generalizing before with
  | nil => exact toggles
  | cons position rest inductionHypothesis =>
    rw [List.getLast?_cons]
    exact inductionHypothesis toggles.2

variable [DecidableEq Key]

/-- The positions one switch was left in. -/
def moves (log : List (Key × Bool)) (key : Key) : List Bool :=
  (log.filter (fun entry => entry.1 = key)).map Prod.snd

@[simp]
theorem moves_nil (key : Key) : moves [] key = [] := rfl

@[simp]
theorem moves_append (first second : List (Key × Bool)) (key : Key) :
    moves (first ++ second) key = moves first key ++ moves second key := by
  simp [moves]

theorem moves_cons (entry : Key × Bool) (rest : List (Key × Bool)) (key : Key) :
    moves (entry :: rest) key =
      if entry.1 = key then entry.2 :: moves rest key else moves rest key := by
  rw [moves, List.filter_cons]
  split_ifs with same <;> simp_all [moves]

/-- A log that accounts for a change of the positions. -/
def Takes (before : Key → Bool) (log : List (Key × Bool)) (after : Key → Bool) : Prop :=
  ∀ key, Toggles (before key) (moves log key) (after key)

theorem Takes.refl (positions : Key → Bool) : Takes positions [] positions := fun _ => rfl

theorem Takes.append {before middle after : Key → Bool} {first second : List (Key × Bool)}
    (one : Takes before first middle) (two : Takes middle second after) :
    Takes before (first ++ second) after := by
  intro key
  rw [moves_append]
  exact (one key).append (two key)

/-- One switch is turned. -/
theorem Takes.single {before after : Key → Bool} {key : Key}
    (turned : after key = !before key) (others : ∀ other, other ≠ key → after other = before other) :
    Takes before [(key, after key)] after := by
  intro other
  rw [moves_cons]
  split_ifs with same
  · subst same
    exact ⟨turned, rfl⟩
  · exact (others other (Ne.symm same)).symm

end Switches
