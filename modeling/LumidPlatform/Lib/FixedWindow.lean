import Mathlib.Data.List.Basic
import Mathlib.Data.List.Count
import Mathlib.Data.List.Induction
import Mathlib.Order.Monotone.Basic
import Mathlib.Order.Lattice

/-!
# Counting in fixed windows

A counter belongs to one window at a time: in another window it begins anew, and in its own it
counts one more. When the windows come in order the counter holds how often the last one came, as
far as a machine number does. What is allowed is what finds the counter within a limit, so a
counter that starts over allows again what it has refused.
-/

namespace FixedWindow

/-- The window that a counter belongs to, and its count. -/
structure Entry where
  window : Nat
  count : Nat

/-- One more in a window. -/
def bump (modulus : Nat) (entry : Option Entry) (window : Nat) : Entry :=
  let kept := entry.getD ⟨window, 0⟩
  let current := if kept.window = window then kept else ⟨window, 0⟩
  { current with count := (current.count + 1) % modulus }

/-- The counter after a sequence of windows. -/
def after (modulus : Nat) (windows : List Nat) : Option Entry :=
  windows.foldl (fun entry window => some (bump modulus entry window)) none

theorem after_snoc (modulus : Nat) (windows : List Nat) (window : Nat) :
    after modulus (windows ++ [window]) = some (bump modulus (after modulus windows) window) := by
  rw [after, List.foldl_append]
  rfl

/-- Windows in order are counted. -/
theorem bump_after {modulus : Nat} {windows : List Nat} {window : Nat}
    (sorted : (windows ++ [window]).Pairwise (· ≤ ·)) :
    bump modulus (after modulus windows) window =
      ⟨window, (windows.count window + 1) % modulus⟩ := by
  induction windows using List.reverseRecOn generalizing window with
  | nil => simp [after, bump]
  | append_singleton windows last inductionHypothesis =>
    obtain ⟨before, -, upTo⟩ := List.pairwise_append.mp sorted
    rw [after_snoc, inductionHypothesis before, bump, Option.getD_some]
    dsimp only
    by_cases same : last = window
    · subst same
      rw [if_pos rfl, List.count_append, List.count_singleton_self, Nat.mod_add_mod]
    · -- A later window did not come before.
      have reached := (List.pairwise_append.mp before).2.2
      have fresh : window ∉ windows ++ [last] := by
        intro member
        have reached : window ≤ last := by
          obtain earlier | now := List.mem_append.mp member
          · exact reached window earlier last (List.mem_singleton_self _)
          · exact (List.mem_singleton.mp now).le
        have passed := upTo last (by simp) window (List.mem_singleton_self _)
        exact same (Nat.le_antisymm passed reached)
      rw [if_neg same, List.count_eq_zero.mpr fresh]

/-- How many of the first calls of a window are allowed. -/
def admitted (modulus limit : Nat) : Nat → Nat
  | 0 => 0
  | n + 1 => admitted modulus limit n + if (n + 1) % modulus ≤ limit then 1 else 0

variable {modulus limit : Nat}

theorem admitted_mono (modulus limit : Nat) : Monotone (admitted modulus limit) :=
  monotone_nat_of_le_succ fun _ => Nat.le_add_right _ _

/-- As long as the counter counts, the first calls are allowed. -/
theorem admitted_of_lt {n : Nat} (fits : n < modulus) :
    admitted modulus limit n = min n limit := by
  induction n with
  | zero => exact (Nat.zero_min _).symm
  | succ n inductionHypothesis =>
    rw [admitted, inductionHypothesis (Nat.lt_of_succ_lt fits), Nat.mod_eq_of_lt fits]
    split_ifs <;> omega

/-- The limit is kept as long as the counter counts. -/
theorem admitted_le_iff (below : limit < modulus) {n : Nat} :
    admitted modulus limit n ≤ limit ↔ n < modulus := by
  constructor
  · intro within
    by_contra passed
    obtain ⟨largest, rfl⟩ : ∃ largest, modulus = largest + 1 :=
      Nat.exists_eq_succ_of_ne_zero (Nat.ne_of_gt (Nat.zero_lt_of_lt below))
    -- The call that finds the largest number starts the counter over, and is allowed.
    have oneMore : admitted (largest + 1) limit (largest + 1) = limit + 1 := by
      rw [admitted, Nat.mod_self, if_pos (Nat.zero_le _), admitted_of_lt (Nat.lt_succ_self _),
        Nat.min_eq_right (Nat.le_of_lt_succ below)]
    have more := admitted_mono (largest + 1) limit (Nat.le_of_not_lt passed)
    omega
  · intro fits
    rw [admitted_of_lt fits]
    exact Nat.min_le_right _ _

end FixedWindow
