import Mathlib.Data.List.Nodup

/-!
# Lookups in lists of pairs

The first pair of a key is what a lookup finds. Where no key comes twice, finding a pair is
having it.
-/

namespace Assoc

variable {κ ι : Type*} [BEq κ] [LawfulBEq κ] {key first : κ} {value other : ι}
  {pairs : List (κ × ι)}

theorem lookup_of_ne (differs : key ≠ first) :
    List.lookup key ((first, other) :: pairs) = List.lookup key pairs := by
  rw [List.lookup_cons, beq_false_of_ne differs]

theorem mem_of_lookup (found : List.lookup key pairs = some value) : (key, value) ∈ pairs := by
  obtain ⟨before, after, rfl, -⟩ := List.lookup_eq_some_iff.mp found
  exact List.mem_append_right _ List.mem_cons_self

theorem lookup_of_mem (distinct : (pairs.map Prod.fst).Nodup) (member : (key, value) ∈ pairs) :
    List.lookup key pairs = some value := by
  induction pairs with
  | nil => cases member
  | cons pair rest inductionHypothesis =>
    obtain ⟨fresh, later⟩ := List.nodup_cons.mp distinct
    obtain rfl | inside := List.mem_cons.mp member
    · exact List.lookup_cons_self
    · obtain ⟨first, other⟩ := pair
      have differs : key ≠ first := by
        rintro rfl
        exact fresh (List.mem_map.mpr ⟨_, inside, rfl⟩)
      rw [lookup_of_ne differs]
      exact inductionHypothesis later inside

/-- Where no key comes twice, a lookup finds the pairs there are. -/
theorem lookup_eq_some_iff (distinct : (pairs.map Prod.fst).Nodup) :
    List.lookup key pairs = some value ↔ (key, value) ∈ pairs :=
  ⟨mem_of_lookup, lookup_of_mem distinct⟩

/-- A function that is tabulated. -/
theorem lookup_map (keys : List κ) (f : κ → ι) (key : κ) :
    List.lookup key (keys.map fun k => (k, f k)) = if key ∈ keys then some (f key) else none := by
  induction keys with
  | nil => rfl
  | cons first rest inductionHypothesis =>
    rw [List.map_cons]
    by_cases same : key = first
    · subst same
      rw [List.lookup_cons_self, if_pos List.mem_cons_self]
    · rw [lookup_of_ne same, inductionHypothesis]
      simp only [List.mem_cons, same, false_or]

end Assoc
