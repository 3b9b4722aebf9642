import Mathlib.Data.List.Sort

/-!
# Named parts joined into one text

A list of name and value pairs is written as `name=value` parts with a separator
between them, without any escaping. The text can be taken apart again where no name
holds the equals sign and no part holds the separator; nothing is said of other
texts, and two lists can then share one.
-/

namespace Joined

variable {α : Type*} {separator equals : α}

/-- One part. -/
def part (equals : α) (named : List α × List α) : List α := named.1 ++ equals :: named.2

/-- The parts with a separator between them. -/
def joined (separator equals : α) (parts : List (List α × List α)) : List α :=
  [separator].intercalate (parts.map (part equals))

/-- Parts that can be told apart: names without the equals sign, and neither names
nor values with the separator. -/
structure Separable (separator equals : α) (parts : List (List α × List α)) : Prop where
  name_equals : ∀ named ∈ parts, equals ∉ named.1
  name_separator : ∀ named ∈ parts, separator ∉ named.1
  value_separator : ∀ named ∈ parts, separator ∉ named.2

/-- The first equals sign ends the name. -/
theorem part_injective {named named' : List α × List α} (plain : equals ∉ named.1)
    (plain' : equals ∉ named'.1) (same : part equals named = part equals named') :
    named = named' := by
  rcases named with ⟨name, value⟩
  rcases named' with ⟨name', value'⟩
  simp only [part] at plain plain' same
  induction name generalizing name' with
  | nil =>
    cases name' with
    | nil => simpa using same
    | cons head tail =>
      have first : equals = head := by simpa using congrArg List.head? same
      exact absurd (first ▸ List.mem_cons_self) plain'
  | cons head tail inductionHypothesis =>
    cases name' with
    | nil =>
      have first : head = equals := by simpa using congrArg List.head? same
      exact absurd (first ▸ List.mem_cons_self) plain
    | cons head' tail' =>
      obtain ⟨rfl, rest⟩ : head = head' ∧ tail ++ equals :: value = tail' ++ equals :: value' := by
        simpa using same
      have pair := inductionHypothesis (fun member => plain (List.mem_cons_of_mem _ member)) tail'
        (fun member => plain' (List.mem_cons_of_mem _ member)) rest
      obtain ⟨rfl, rfl⟩ := Prod.mk.inj pair
      rfl

/-- A part of a separable list holds no separator. -/
theorem separator_not_mem_part (distinct : separator ≠ equals)
    {parts : List (List α × List α)} (separable : Separable separator equals parts) :
    ∀ text ∈ parts.map (part equals), separator ∉ text := by
  intro text member
  obtain ⟨named, inParts, rfl⟩ := List.mem_map.mp member
  simp only [part, List.mem_append, List.mem_cons, not_or]
  exact ⟨separable.name_separator named inParts, distinct,
    separable.value_separator named inParts⟩

/-- The joined text of no parts is the only empty one. -/
theorem joined_eq_nil_iff {parts : List (List α × List α)} :
    joined separator equals parts = [] ↔ parts = [] := by
  constructor
  · intro empty
    cases parts with
    | nil => rfl
    | cons named rest =>
      cases rest <;> simp [joined, part] at empty
  · rintro rfl
    rfl

/-- Separable lists are read off their joined text. -/
theorem joined_injective [DecidableEq α] (distinct : separator ≠ equals)
    {parts parts' : List (List α × List α)} (separable : Separable separator equals parts)
    (separable' : Separable separator equals parts')
    (same : joined separator equals parts = joined separator equals parts') : parts = parts' := by
  by_cases empty : parts = []
  · have empty' : parts' = [] := joined_eq_nil_iff.mp (same ▸ joined_eq_nil_iff.mpr empty)
    rw [empty, empty']
  · have empty' : parts' ≠ [] := fun none =>
      empty (joined_eq_nil_iff.mp (same ▸ joined_eq_nil_iff.mpr none))
    have texts : parts.map (part equals) = parts'.map (part equals) := by
      have split := List.splitOn_intercalate separator
        (separator_not_mem_part distinct separable) (by simpa using empty)
      have split' := List.splitOn_intercalate separator
        (separator_not_mem_part distinct separable') (by simpa using empty')
      rw [← split, ← split']
      exact congrArg (List.splitOn separator) same
    clear same empty empty'
    induction parts generalizing parts' with
    | nil => simpa [eq_comm] using texts
    | cons named rest inductionHypothesis =>
      cases parts' with
      | nil => simp at texts
      | cons named' rest' =>
        obtain ⟨head, tail⟩ := List.cons.inj texts
        have first := part_injective (separable.name_equals named List.mem_cons_self)
          (separable'.name_equals named' List.mem_cons_self) head
        have others := inductionHypothesis
          ⟨fun n m => separable.name_equals n (List.mem_cons_of_mem _ m),
            fun n m => separable.name_separator n (List.mem_cons_of_mem _ m),
            fun n m => separable.value_separator n (List.mem_cons_of_mem _ m)⟩
          ⟨fun n m => separable'.name_equals n (List.mem_cons_of_mem _ m),
            fun n m => separable'.name_separator n (List.mem_cons_of_mem _ m),
            fun n m => separable'.value_separator n (List.mem_cons_of_mem _ m)⟩ tail
        rw [first, others]

/-- Text appended to the last value is appended to the joined text. -/
theorem joined_append_value (front : List (List α × List α)) (name value suffix : List α) :
    joined separator equals (front ++ [(name, value ++ suffix)]) =
      joined separator equals (front ++ [(name, value)]) ++ suffix := by
  induction front with
  | nil => simp [joined, part]
  | cons named rest inductionHypothesis =>
    have split : ∀ last : List α × List α,
        joined separator equals (named :: rest ++ [last]) =
          part equals named ++ separator :: joined separator equals (rest ++ [last]) := by
      intro last
      cases rest <;> simp [joined, List.intercalate_cons_cons]
    rw [split, split, inductionHypothesis]
    simp

/-- Separability does not depend on the order of the parts. -/
theorem Separable.perm {parts parts' : List (List α × List α)} (order : parts.Perm parts')
    (separable : Separable separator equals parts) : Separable separator equals parts' :=
  ⟨fun named member => separable.name_equals named (order.mem_iff.mpr member),
    fun named member => separable.name_separator named (order.mem_iff.mpr member),
    fun named member => separable.value_separator named (order.mem_iff.mpr member)⟩

end Joined
