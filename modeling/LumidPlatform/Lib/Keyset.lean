import Mathlib.Data.List.Sort
import Mathlib.Order.Defs.LinearOrder

/-!
# Keyset paging

Rows are read page by page in the order of a key: a page is the least rows of those that a
predicate selects, up to a size. What comes with a page is everything selected up to its
last row.
-/

namespace Keyset

variable {Row Key : Type*} [LinearOrder Key] {key : Row → Key} {size : Nat} {selected : List Row}

/-- `ORDER BY key LIMIT size`. -/
def page (key : Row → Key) (size : Nat) (selected : List Row) : List Row :=
  (selected.insertionSort (fun a b => key a ≤ key b)).take size

theorem mem_of_mem_page {row : Row} (member : row ∈ page key size selected) : row ∈ selected :=
  (List.mem_insertionSort _).mp (List.mem_of_mem_take member)

theorem page_eq_nil (room : 0 < size) : page key size selected = [] ↔ selected = [] := by
  constructor
  · intro empty
    rcases List.take_eq_nil_iff.mp empty with none_fits | none_left
    · omega
    · exact List.length_eq_zero_iff.mp (by
        rw [← List.length_insertionSort (fun a b => key a ≤ key b), none_left, List.length_nil])
  · rintro rfl
    simp [page]

/-- A page that is not full is everything. -/
theorem mem_page_of_small (key : Row → Key) {row : Row} (small : selected.length ≤ size)
    (member : row ∈ selected) : row ∈ page key size selected := by
  rw [page, List.take_of_length_le (by rwa [List.length_insertionSort])]
  exact (List.mem_insertionSort _).mpr member

theorem pairwise_page (key : Row → Key) (size : Nat) (selected : List Row) :
    (page key size selected).Pairwise (fun a b => key a ≤ key b) :=
  (List.pairwise_insertionSort (fun a b => key a ≤ key b) selected).sublist (List.take_sublist _ _)

/-- The last row of a page is the greatest. -/
theorem le_last {row last : Row} (isLast : (page key size selected).getLast? = some last)
    (member : row ∈ page key size selected) : key row ≤ key last := by
  obtain ⟨before, split⟩ := List.getLast?_eq_some_iff.mp isLast
  have sorted := pairwise_page key size selected
  rw [split, List.pairwise_append] at sorted
  rw [split] at member
  rcases List.mem_append.mp member with earlier | here
  · exact sorted.2.2 row earlier last (List.mem_singleton_self last)
  · rw [List.mem_singleton.mp here]

/-- Everything selected up to the last row of a page is on the page. -/
theorem mem_page_of_le {row last : Row} (isLast : (page key size selected).getLast? = some last)
    (unique : ∀ a ∈ selected, ∀ b ∈ selected, key a = key b → a = b) (member : row ∈ selected)
    (upTo : key row ≤ key last) : row ∈ page key size selected := by
  have lastIn : last ∈ page key size selected := List.mem_of_getLast? isLast
  have sorted : (selected.insertionSort (fun a b => key a ≤ key b)).Pairwise
      (fun a b => key a ≤ key b) :=
    List.pairwise_insertionSort _ _
  have inSorted : row ∈ selected.insertionSort (fun a b => key a ≤ key b) :=
    (List.mem_insertionSort _).mpr member
  rw [← List.take_append_drop size (selected.insertionSort _), List.pairwise_append] at sorted
  rw [← List.take_append_drop size (selected.insertionSort _), List.mem_append] at inSorted
  rcases inSorted with onPage | later
  · exact onPage
  · have ordered := sorted.2.2 last lastIn row later
    have same := unique row member last (mem_of_mem_page lastIn) (le_antisymm upTo ordered)
    rw [same]
    exact lastIn

/-! ## All pages -/

/-- `ORDER BY key`. -/
def listing (key : Row → Key) (selected : List Row) : List Row :=
  selected.insertionSort (fun a b => key a ≤ key b)

theorem page_eq_take : page key size selected = (listing key selected).take size := rfl

theorem mem_listing {row : Row} : row ∈ listing key selected ↔ row ∈ selected :=
  List.mem_insertionSort _

/-- Rows with different keys are listed in strict order. -/
theorem listing_ordered (distinct : selected.Nodup)
    (unique : ∀ a ∈ selected, ∀ b ∈ selected, key a = key b → a = b) :
    (listing key selected).Pairwise (fun a b => key a < key b) := by
  have sorted : (listing key selected).Pairwise (fun a b => key a ≤ key b) :=
    List.pairwise_insertionSort _ _
  have nodup : (listing key selected).Nodup := (List.perm_insertionSort _ _).nodup_iff.mpr distinct
  refine (sorted.and nodup).imp_of_mem (fun {a b} aIn bIn both => ?_)
  apply lt_of_le_of_ne both.1
  intro same
  exact both.2 (unique a (mem_listing.mp aIn) b (mem_listing.mp bIn) same)

/-- What comes after the last row of a page is the listing without the page. -/
theorem listing_after {last : Row} (distinct : selected.Nodup)
    (unique : ∀ a ∈ selected, ∀ b ∈ selected, key a = key b → a = b)
    (isLast : (page key size selected).getLast? = some last) :
    listing key (selected.filter (fun row => key last < key row)) =
      (listing key selected).drop size := by
  have ordered := listing_ordered distinct unique
  have rest : (listing key selected).filter (fun row => key last < key row) =
      (listing key selected).drop size := by
    have split := List.take_append_drop size (listing key selected)
    rw [← split, List.pairwise_append] at ordered
    have early : ((listing key selected).take size).filter (fun row => key last < key row) = [] := by
      rw [List.filter_eq_nil_iff]
      intro row member
      rw [decide_eq_true_eq, not_lt]
      exact le_last isLast member
    have late : ((listing key selected).drop size).filter (fun row => key last < key row) =
        (listing key selected).drop size := by
      rw [List.filter_eq_self]
      intro row member
      rw [decide_eq_true_eq]
      exact ordered.2.2 last (List.mem_of_getLast? isLast) row member
    conv_lhs => rw [← split]
    rw [List.filter_append, early, late, List.nil_append]
  rw [← rest]
  have strict (a b : Row) (ab : key a < key b) (ba : key b < key a) : a = b :=
    absurd (ab.trans ba) (lt_irrefl _)
  have reordered : (listing key (selected.filter (fun row => key last < key row))).Perm
      ((listing key selected).filter (fun row => key last < key row)) :=
    (List.perm_insertionSort _ _).trans ((List.perm_insertionSort _ _).filter _).symm
  refine reordered.eq_of_pairwise (fun a b _ _ => strict a b) ?_ ?_
  · refine listing_ordered (distinct.filter _) (fun a aIn b bIn same => ?_)
    exact unique a (List.mem_filter.mp aIn).1 b (List.mem_filter.mp bIn).1 same
  · exact (listing_ordered distinct unique).filter _

/-- A row at which a page ends: every `size`-th of the listing, and the last. -/
def PageEnd (size : Nat) (rows : List Row) (row : Row) : Prop :=
  ∃ k, rows[k]? = some row ∧ ((k + 1) % size = 0 ∨ k + 1 = rows.length)

/-- A page ends at the last row of the first page, or in what comes after that page. -/
theorem pageEnd_iff (room : 0 < size) {rows : List Row} {row : Row} :
    PageEnd size rows row ↔
      (rows.take size).getLast? = some row ∨ PageEnd size (rows.drop size) row := by
  have last : (rows.take size).getLast? = rows[min size rows.length - 1]? := by
    rw [List.getLast?_eq_getElem?, List.length_take, List.getElem?_take]
    split_ifs with inside
    · rfl
    · rw [eq_comm, List.getElem?_eq_none_iff]
      omega
  constructor
  · rintro ⟨k, there, ends⟩
    have bound := (List.getElem?_eq_some_iff.mp there).1
    by_cases early : k < size
    · left
      have full : k + 1 = size ∨ k + 1 = rows.length := by
        refine ends.imp_left (fun divides => ?_)
        have least := Nat.le_of_dvd (Nat.succ_pos k) (Nat.dvd_of_mod_eq_zero divides)
        omega
      have index : min size rows.length - 1 = k := by omega
      rw [last, index, there]
    · right
      refine ⟨k - size, ?_, ?_⟩
      · rw [List.getElem?_drop, Nat.add_sub_cancel' (Nat.le_of_not_lt early), there]
      · rw [List.length_drop]
        have shifted : k + 1 = (k - size + 1) + size := by omega
        rw [shifted, Nat.add_mod_right] at ends
        exact ends.imp_right (fun whole => by omega)
  · rintro (here | ⟨k, there, ends⟩)
    · rw [last] at here
      have bound := (List.getElem?_eq_some_iff.mp here).1
      refine ⟨min size rows.length - 1, here, ?_⟩
      by_cases full : size ≤ rows.length
      · left
        have whole : min size rows.length - 1 + 1 = size := by omega
        rw [whole, Nat.mod_self]
      · right
        omega
    · rw [List.getElem?_drop] at there
      refine ⟨size + k, there, ?_⟩
      rw [List.length_drop] at ends
      refine ends.imp (fun divides => ?_) (fun whole => ?_)
      · have shifted : size + k + 1 = (k + 1) + size := by omega
        rw [shifted, Nat.add_mod_right, divides]
      · have bound := (List.getElem?_eq_some_iff.mp there).1
        omega

end Keyset
