import Mathlib.Algebra.BigOperators.Group.List.Basic

/-!
# Keyed counters

A tally has an amount for each key that was ever counted. Amounts are added to it one entry at
a time; what it holds is told by the entries, each key's amounts summed, and neither their
order nor their grouping matters.
-/

namespace Tallies

variable {K M : Type*} [DecidableEq K] [AddCommMonoid M]

/-- The amounts of the keys that were counted. -/
abbrev Tally (K M : Type*) := K → Option M

/-- An amount is added to a key, which starts from nothing. -/
def Tally.add (tally : Tally K M) (key : K) (amount : M) : Tally K M :=
  Function.update tally key (some ((tally key).getD 0 + amount))

def Tally.record (tally : Tally K M) (entries : List (K × M)) : Tally K M :=
  entries.foldl (fun tally entry => tally.add entry.1 entry.2) tally

/-- The amounts of one key. -/
def total (entries : List (K × M)) (key : K) : M :=
  ((entries.filter (fun entry => entry.1 = key)).map Prod.snd).sum

/-- The tally of the entries alone. -/
def tallied (entries : List (K × M)) : Tally K M := fun key =>
  if key ∈ entries.map Prod.fst then some (total entries key) else none

/-- The entries of one tally are added to those of another. -/
def Tally.merge (left right : Tally K M) : Tally K M := fun key =>
  match right key with
  | none => left key
  | some amount => some ((left key).getD 0 + amount)

theorem total_cons (entry : K × M) (entries : List (K × M)) (key : K) :
    total (entry :: entries) key =
      (if entry.1 = key then entry.2 else 0) + total entries key := by
  rw [total, List.filter_cons]
  by_cases same : entry.1 = key
  · rw [if_pos (decide_eq_true same), if_pos same, List.map_cons, List.sum_cons, total]
  · rw [if_neg (by simpa using same), if_neg same, zero_add, total]

theorem total_append (before after : List (K × M)) (key : K) :
    total (before ++ after) key = total before key + total after key := by
  rw [total, List.filter_append, List.map_append, List.sum_append, total, total]

/-- A key that is not counted has nothing. -/
theorem total_of_absent {entries : List (K × M)} {key : K}
    (absent : key ∉ entries.map Prod.fst) : total entries key = 0 := by
  have none' : entries.filter (fun entry => decide (entry.1 = key)) = [] := by
    rw [List.filter_eq_nil_iff]
    intro entry member same
    apply absent
    rw [← of_decide_eq_true same]
    exact List.mem_map_of_mem member
  rw [total, none', List.map_nil, List.sum_nil]

/-- Entries are added to what is there already. -/
theorem record_apply (tally : Tally K M) (entries : List (K × M)) (key : K) :
    tally.record entries key =
      if key ∈ entries.map Prod.fst then some ((tally key).getD 0 + total entries key)
      else tally key := by
  induction entries generalizing tally with
  | nil => rfl
  | cons entry rest inductionHypothesis =>
    rw [Tally.record, List.foldl_cons, ← Tally.record, inductionHypothesis, total_cons]
    by_cases same : entry.1 = key
    · subst same
      have here : entry.1 ∈ (entry :: rest).map Prod.fst := List.mem_cons_self
      rw [Tally.add, Function.update_self, Option.getD_some, if_pos here, if_pos rfl, add_assoc]
      split_ifs with later
      · rfl
      · rw [total_of_absent later, add_zero]
    · have elsewhere : key ∈ (entry :: rest).map Prod.fst ↔ key ∈ rest.map Prod.fst := by
        rw [List.map_cons, List.mem_cons, or_iff_right (Ne.symm same)]
      rw [Tally.add, Function.update_of_ne (Ne.symm same), if_neg same, zero_add]
      simp only [elsewhere]

/-- What a tally that started empty holds. -/
theorem record_empty (entries : List (K × M)) :
    Tally.record (fun _ => none) entries = tallied entries := by
  funext key
  rw [record_apply, Option.getD_none, zero_add]
  rfl

/-- The order in which entries are counted does not matter. -/
theorem tallied_perm {entries others : List (K × M)} (same : entries.Perm others) :
    tallied entries = tallied others := by
  funext key
  have keys : key ∈ entries.map Prod.fst ↔ key ∈ others.map Prod.fst := (same.map _).mem_iff
  have amounts : total entries key = total others key :=
    ((same.filter _).map _).sum_eq
  rw [tallied, tallied, amounts]
  simp only [keys]

/-- Tallies that were kept apart make up that of all entries. -/
theorem merge_tallied (left right : List (K × M)) :
    (tallied left).merge (tallied right) = tallied (left ++ right) := by
  funext key
  rw [Tally.merge, tallied, tallied, tallied, List.map_append, total_append]
  by_cases inRight : key ∈ right.map Prod.fst
  · rw [if_pos inRight, if_pos (List.mem_append_right _ inRight)]
    split_ifs with inLeft
    · rfl
    · rw [total_of_absent inLeft]
      rfl
  · rw [if_neg inRight, total_of_absent inRight, add_zero]
    simp only [List.mem_append, inRight, or_false]

end Tallies
