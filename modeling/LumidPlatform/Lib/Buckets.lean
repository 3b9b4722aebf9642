import Mathlib.Algebra.BigOperators.Group.List.Basic
import Mathlib.Algebra.Order.Ring.Int

/-!
# Amounts in numbered buckets

Items have a place, the number of a bucket, and an amount. The newest buckets are read one by
one, back from the last; what a row of them holds together are the amounts of the items whose
place lies in a range.
-/

namespace Buckets

variable {A M : Type*} [AddCommMonoid M] (items : List A) (place : A → ℤ) (amount : A → M)

/-- The amounts of the items with one place. -/
def bucket (b : ℤ) : M := ((items.filter (fun item => place item = b)).map amount).sum

/-- The amounts of the items that lie after a place and not after another. -/
def within (after upTo : ℤ) : M :=
  ((items.filter (fun item => after < place item ∧ place item ≤ upTo)).map amount).sum

/-- The newest buckets, the last one first. -/
def newest (last : ℤ) (n : ℕ) : List M :=
  (List.range n).map (fun i : ℕ => bucket items place amount (last - i))

theorem bucket_cons (item : A) (b : ℤ) :
    bucket (item :: items) place amount b =
      (if place item = b then amount item else 0) + bucket items place amount b := by
  rw [bucket, List.filter_cons]
  by_cases here : place item = b
  · rw [if_pos (decide_eq_true here), if_pos here, List.map_cons, List.sum_cons, bucket]
  · rw [if_neg (by simpa using here), if_neg here, zero_add, bucket]

theorem within_cons (item : A) (after upTo : ℤ) :
    within (item :: items) place amount after upTo =
      (if after < place item ∧ place item ≤ upTo then amount item else 0) +
        within items place amount after upTo := by
  rw [within, List.filter_cons]
  by_cases here : after < place item ∧ place item ≤ upTo
  · rw [if_pos (decide_eq_true here), if_pos here, List.map_cons, List.sum_cons, within]
  · rw [if_neg (by simpa using here), if_neg here, zero_add, within]

theorem within_self (last : ℤ) : within items place amount last last = 0 := by
  induction items with
  | nil => rfl
  | cons item rest inductionHypothesis =>
    rw [within_cons, if_neg (fun both => absurd both.1 (not_lt.mpr both.2)), inductionHypothesis,
      zero_add]

/-- A range and the bucket before it. -/
theorem within_bucket {first last : ℤ} (ordered : first ≤ last) :
    within items place amount first last + bucket items place amount first =
      within items place amount (first - 1) last := by
  induction items with
  | nil => exact zero_add 0
  | cons item rest inductionHypothesis =>
    have split : (if first < place item ∧ place item ≤ last then amount item else 0) +
        (if place item = first then amount item else 0) =
        if first - 1 < place item ∧ place item ≤ last then amount item else 0 := by
      by_cases same : place item = first
      · rw [if_neg (by omega), if_pos same, if_pos (by omega), zero_add]
      · rw [if_neg same, add_zero]
        exact if_congr (by omega) rfl rfl
    rw [within_cons, bucket_cons, within_cons, ← inductionHypothesis, ← split]
    exact add_add_add_comm _ _ _ _

theorem newest_succ (last : ℤ) (n : ℕ) :
    newest items place amount last (n + 1) =
      newest items place amount last n ++ [bucket items place amount (last - n)] := by
  rw [newest, List.range_succ, List.map_append, List.map_singleton, newest]

theorem length_newest (last : ℤ) (n : ℕ) : (newest items place amount last n).length = n := by
  rw [newest, List.length_map, List.length_range]

/-- The newest buckets together are those of a range. -/
theorem sum_newest (last : ℤ) (n : ℕ) :
    (newest items place amount last n).sum = within items place amount (last - n) last := by
  induction n with
  | zero =>
    rw [Nat.cast_zero, sub_zero, within_self]
    rfl
  | succ n inductionHypothesis =>
    have before : last - ((n + 1 : ℕ) : ℤ) = last - n - 1 := by omega
    rw [newest_succ, List.sum_append, inductionHypothesis, List.sum_singleton, before,
      within_bucket items place amount (by omega)]

theorem drop_newest (last : ℤ) (n skipped : ℕ) :
    (newest items place amount last n).drop skipped =
      newest items place amount (last - skipped) (n - skipped) := by
  refine List.ext_getElem (by simp [newest]) (fun i _ _ => ?_)
  have same : last - (skipped + i : ℤ) = last - skipped - i := by omega
  simp [newest, same]

theorem take_newest (last : ℤ) (n taken : ℕ) :
    (newest items place amount last n).take taken =
      newest items place amount last (min taken n) := by
  refine List.ext_getElem (by simp [newest]) (fun i _ _ => ?_)
  simp [newest]

/-- A stretch of the newest buckets is a range too. -/
theorem sum_stretch (last : ℤ) (n skipped taken : ℕ) :
    (((newest items place amount last n).drop skipped).take taken).sum =
      within items place amount (last - skipped - (min taken (n - skipped) : ℕ))
        (last - skipped) := by
  rw [drop_newest, take_newest, sum_newest]

end Buckets
