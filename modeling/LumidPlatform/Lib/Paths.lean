import Mathlib.Data.List.Basic

/-!
# Paths of segments

A path is a text cut into segments at a separator. It lies at or under another path exactly if
the segments of that one are its first.
-/

namespace Paths

variable {α : Type*} {separator : α}

/-- Segments put together, after which more follow. -/
theorem intercalate_append {segments more : List (List α)} (nonempty : segments ≠ [])
    (others : more ≠ []) :
    [separator].intercalate (segments ++ more) =
      [separator].intercalate segments ++ separator :: [separator].intercalate more := by
  induction segments with
  | nil => exact absurd rfl nonempty
  | cons first rest inductionHypothesis =>
    cases rest with
    | nil =>
      rw [List.singleton_append, List.intercalate_cons_of_ne_nil others,
        List.intercalate_singleton]
      simp
    | cons second rest =>
      have onward := inductionHypothesis (List.cons_ne_nil second rest)
      rw [List.cons_append] at onward
      rw [List.cons_append, List.cons_append, List.intercalate_cons_cons, onward,
        List.intercalate_cons_cons]
      simp

variable [DecidableEq α]

/-- A path at or under another begins with its segments. -/
theorem under_iff {path front : List α} :
    (path = front ∨ front ++ [separator] <+: path) ↔
      front.splitOn separator <+: path.splitOn separator := by
  constructor
  · rintro (rfl | ⟨rest, rfl⟩)
    · exact List.prefix_refl _
    · rw [List.append_assoc, List.singleton_append, List.splitOn_append_cons_self]
      exact List.prefix_append _ _
  · rintro ⟨more, split⟩
    have whole : [separator].intercalate (path.splitOn separator) = path :=
      List.intercalate_splitOn separator
    rw [← split] at whole
    by_cases others : more = []
    · left
      rw [others, List.append_nil, List.intercalate_splitOn] at whole
      exact whole.symm
    · right
      rw [intercalate_append (List.splitOn_ne_nil _ _) others, List.intercalate_splitOn] at whole
      exact ⟨[separator].intercalate more, by rw [← whole]; simp⟩

/-- The segments hold everything but the separators. -/
theorem flatten_splitOn (path : List α) :
    (path.splitOn separator).flatten = path.filter (· ≠ separator) := by
  induction path with
  | nil => simp
  | cons c rest inductionHypothesis =>
    rw [List.splitOn_cons_eq_if_modifyHead]
    by_cases same : c = separator
    · rw [if_pos (beq_iff_eq.mpr same)]
      simpa [same] using inductionHypothesis
    · rw [if_neg (by simpa using same)]
      obtain ⟨first, others, split⟩ := List.exists_cons_of_ne_nil
        (List.splitOn_ne_nil separator rest)
      rw [split] at inductionHypothesis ⊢
      simpa [same] using inductionHypothesis

/-- No segment holds a separator. -/
theorem separator_not_mem {path segment : List α} (member : segment ∈ path.splitOn separator) :
    separator ∉ segment := by
  intro inside
  have all : separator ∈ (path.splitOn separator).flatten :=
    List.mem_flatten.mpr ⟨segment, member, inside⟩
  rw [flatten_splitOn] at all
  simpa using (List.mem_filter.mp all).2

end Paths
