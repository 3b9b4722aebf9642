import Mathlib.Data.List.Basic
import Mathlib.Data.List.Perm.Basic

/-!
# In-order delivery of a log

The entries of a log are handed out one by one, each under its position, and arrive in any
order. A receiver that is handed the earliest of what is still out each time has heard a
prefix of the log, and when nothing is out it has heard all of it.
-/

namespace Delivery

variable {Entry : Type*}

/-- The receiver has heard the log up to some point, and what is out is the rest. -/
def Behind (log heard : List Entry) (outstanding : List (Entry × Nat)) : Prop :=
  ∃ rest, log = heard ++ rest ∧ outstanding.Perm (rest.zipIdx heard.length)

theorem Behind.start : Behind ([] : List Entry) [] [] := ⟨[], rfl, List.Perm.nil⟩

theorem Behind.perm {log heard : List Entry} {outstanding other : List (Entry × Nat)}
    (behind : Behind log heard outstanding) (same : other.Perm outstanding) :
    Behind log heard other := by
  obtain ⟨rest, split, accounts⟩ := behind
  exact ⟨rest, split, same.trans accounts⟩

/-- An entry that is logged is out. -/
theorem Behind.log {log heard : List Entry} {outstanding : List (Entry × Nat)}
    (behind : Behind log heard outstanding) (entry : Entry) :
    Behind (log ++ [entry]) heard ((entry, log.length) :: outstanding) := by
  obtain ⟨rest, rfl, accounts⟩ := behind
  refine ⟨rest ++ [entry], List.append_assoc _ _ _, ?_⟩
  rw [List.zipIdx_append, List.zipIdx_singleton, List.length_append]
  exact (accounts.cons _).trans (List.perm_append_singleton _ _).symm

/-- The earliest entry that is out arrives. -/
theorem Behind.hear {log heard : List Entry} {entry : Entry} {position : Nat}
    {outstanding : List (Entry × Nat)}
    (behind : Behind log heard ((entry, position) :: outstanding))
    (earliest : ∀ other ∈ outstanding, position ≤ other.2) :
    Behind log (heard ++ [entry]) outstanding := by
  obtain ⟨rest, rfl, accounts⟩ := behind
  cases rest with
  | nil => exact absurd accounts.length_eq (by simp)
  | cons first rest =>
    rw [List.zipIdx_cons] at accounts
    have member : (entry, position) ∈ (first, heard.length) :: rest.zipIdx (heard.length + 1) :=
      accounts.subset (List.mem_cons_self ..)
    have foremost : (first, heard.length) ∈ (entry, position) :: outstanding :=
      accounts.symm.subset (List.mem_cons_self ..)
    have head : (entry, position) = (first, heard.length) := by
      rcases List.mem_cons.mp member with same | later
      · exact same
      · rcases List.mem_cons.mp foremost with same | out
        · exact same.symm
        · have above : heard.length + 1 ≤ position := (List.mk_mem_zipIdx_iff_le_and_getElem?_sub.mp
            later).1
          have below := earliest _ out
          simp only at below
          omega
    obtain ⟨rfl, rfl⟩ := Prod.mk.inj head
    refine ⟨rest, by simp, ?_⟩
    rw [List.length_append]
    exact accounts.cons_inv

/-- Nothing is out any more. -/
theorem Behind.done {log heard : List Entry} (behind : Behind log heard []) : heard = log := by
  obtain ⟨rest, rfl, accounts⟩ := behind
  have none : rest = [] := by simpa using accounts.symm
  rw [none, List.append_nil]

end Delivery
