import Mathlib.Algebra.Order.Ring.Int
import Mathlib.Data.List.Sort
import Mathlib.Order.Defs.LinearOrder

/-!
# Paging by offset

Every page is cut out of an arrangement of the same rows, and each request may find another
one: only the order of a key is fixed. Pages that follow one another are all of the rows exactly
when no page ends within rows of one key that look different.
-/

namespace OffsetPages

variable {Row Key View : Type*} [LinearOrder Key] {key : Row → Key} {view : Row → View}
  {size : Nat} {rows : List Row}

/-- The rows in an order that a request may find them in. -/
structure Arranged (key : Row → Key) (rows arranged : List Row) : Prop where
  perm : arranged.Perm rows
  sorted : arranged.Pairwise (fun a b => key a ≤ key b)

/-- `LIMIT size OFFSET offset`. -/
def page (offset size : Nat) (arranged : List Row) : List Row := (arranged.drop offset).take size

/-- What the first pages show, each cut out of its own arrangement. -/
def collected (view : Row → View) (offset : Nat → Nat) (size : Nat) (free : Nat → List Row)
    (count : Nat) : List View :=
  (List.range count).flatMap fun k => (page (offset k) size (free k)).map view

/-- From some count on the pages show every row once, whatever they are cut out of. -/
def Whole (key : Row → Key) (view : Row → View) (offset : Nat → Nat) (size : Nat)
    (rows : List Row) : Prop :=
  ∃ enough, ∀ count, enough ≤ count → ∀ free : Nat → List Row,
    (∀ k, Arranged key rows (free k)) → (collected view offset size free count).Perm (rows.map view)

/-- A page ends within the rows at one place of the order. -/
def Straddled (key : Row → Key) (size : Nat) (rows : List Row) (place : Key) : Prop :=
  ∃ j, rows.countP (fun row => key row < place) < j * size ∧
    j * size < rows.countP (fun row => key row < place) + rows.countP (fun row => key row = place)

/-! ## Arrangements -/

/-- Ordered rows are those before a place, those at it, and those behind it. -/
theorem sorted_split {arranged : List Row}
    (sorted : arranged.Pairwise (fun a b => key a ≤ key b)) (place : Key) :
    arranged = arranged.filter (fun row => key row < place) ++
      (arranged.filter (fun row => key row = place) ++
        arranged.filter (fun row => place < key row)) := by
  induction arranged with
  | nil => rfl
  | cons row rest inductionHypothesis =>
    obtain ⟨least, sorted⟩ := List.pairwise_cons.mp sorted
    have split := inductionHypothesis sorted
    have none' {test : Row → Bool} (fails : ∀ other ∈ rest, test other = false) :
        rest.filter test = [] :=
      List.filter_eq_nil_iff.mpr fun other mem => by simp [fails other mem]
    rcases lt_trichotomy (key row) place with before | rfl | behind
    · simp only [List.filter_cons, before, before.ne, before.not_gt, decide_true, decide_false,
        if_true, Bool.false_eq_true, if_false, List.cons_append]
      rw [← split]
    · have early : rest.filter (fun other => key other < key row) = [] :=
        none' fun other mem => decide_eq_false (least other mem).not_gt
      rw [early, List.nil_append] at split
      simp only [List.filter_cons, lt_irrefl, decide_true, decide_false, if_true,
        Bool.false_eq_true, if_false, early, List.nil_append, List.cons_append]
      rw [← split]
    · have later : ∀ other ∈ rest, place < key other := fun other mem =>
        behind.trans_le (least other mem)
      have early : rest.filter (fun other => key other < place) = [] :=
        none' fun other mem => decide_eq_false (later other mem).not_gt
      have level : rest.filter (fun other => key other = place) = [] :=
        none' fun other mem => decide_eq_false (later other mem).ne'
      rw [early, level, List.nil_append, List.nil_append] at split
      simp only [List.filter_cons, behind, behind.ne', behind.not_gt, decide_true, decide_false,
        if_true, Bool.false_eq_true, if_false, early, level, List.nil_append]
      rw [← split]

namespace Arranged

variable {arranged other : List Row}

theorem length_eq (here : Arranged key rows arranged) : arranged.length = rows.length :=
  here.perm.length_eq

/-- Some order there is always. -/
theorem insertionSort (key : Row → Key) (rows : List Row) :
    Arranged key rows (rows.insertionSort fun a b => key a ≤ key b) :=
  ⟨List.perm_insertionSort _ rows, List.pairwise_insertionSort _ rows⟩

/-- Every arrangement has as many rows of a kind. -/
theorem length_filter (here : Arranged key rows arranged) (test : Row → Bool) :
    (arranged.filter test).length = rows.countP test := by
  rw [← List.countP_eq_length_filter]
  exact here.perm.countP_eq test

/-- The rows at a place may come in any order. -/
theorem regroup (here : Arranged key rows arranged) {place : Key} {level : List Row}
    (same : level.Perm (arranged.filter fun row => key row = place)) :
    Arranged key rows (arranged.filter (fun row => key row < place) ++
      (level ++ arranged.filter fun row => place < key row)) := by
  constructor
  · refine List.Perm.trans ?_ here.perm
    conv_rhs => rw [sorted_split here.sorted place]
    exact (same.append_right _).append_left _
  · have at' : ∀ row ∈ level, key row = place := fun row mem => by
      simpa using (List.mem_filter.mp (same.mem_iff.mp mem)).2
    rw [List.pairwise_append, List.pairwise_append]
    refine ⟨here.sorted.filter _, ⟨?_, here.sorted.filter _, ?_⟩, ?_⟩
    · exact List.pairwise_of_forall_mem_list fun a aMem b bMem =>
        ((at' a aMem).trans (at' b bMem).symm).le
    · intro a aMem b bMem
      rw [at' a aMem]
      simpa using (of_decide_eq_true (List.mem_filter.mp bMem).2).le
    · intro a aMem b bMem
      have early : key a < place := of_decide_eq_true (List.mem_filter.mp aMem).2
      rcases List.mem_append.mp bMem with level' | later
      · exact (at' b level').symm ▸ early.le
      · exact (early.trans (of_decide_eq_true (List.mem_filter.mp later).2)).le

/-- A cut has a row behind it, whose place begins at the cut or before. -/
theorem cut_place (here : Arranged key rows arranged) {cut : Nat} (within : cut < rows.length) :
    ∃ row ∈ rows, rows.countP (fun other => key other < key row) ≤ cut ∧
      cut < rows.countP (fun other => key other < key row) +
        rows.countP (fun other => key other = key row) := by
  rw [← here.length_eq] at within
  have behind := List.getElem?_eq_getElem within
  generalize arranged[cut] = row at behind
  refine ⟨row, here.perm.mem_iff.mp (List.mem_of_getElem? behind), ?_⟩
  rw [← here.length_filter, ← here.length_filter]
  rw [sorted_split here.sorted (key row)] at behind
  constructor
  · by_contra early
    rw [List.getElem?_append_left (Nat.not_le.mp early)] at behind
    have before := (List.mem_filter.mp (List.mem_of_getElem? behind)).2
    simp at before
  · by_contra late
    rw [List.getElem?_append_right (by omega), List.getElem?_append_right (by omega)] at behind
    have after := (List.mem_filter.mp (List.mem_of_getElem? behind)).2
    simp at after

/-- What comes before a cut at some place: all rows before the place, and some at it. -/
theorem take_eq (here : Arranged key rows arranged) {cut : Nat} {place : Key}
    (from' : rows.countP (fun row => key row < place) ≤ cut)
    (past : cut < rows.countP (fun row => key row < place) +
      rows.countP (fun row => key row = place)) :
    arranged.take cut = arranged.filter (fun row => key row < place) ++
      (arranged.filter (fun row => key row = place)).take
        (cut - rows.countP (fun row => key row < place)) := by
  rw [← here.length_filter, ← here.length_filter] at past
  rw [← here.length_filter] at from'
  conv_lhs => rw [sorted_split here.sorted place]
  rw [List.take_append, List.take_of_length_le from',
    List.take_append_of_le_length (by omega), here.length_filter]

/-- What comes before a cut is the same rows, or looks the same, in all arrangements, if the
rows at the place of the cut look alike. -/
theorem take_perm (here : Arranged key rows arranged) (there : Arranged key rows other) {cut : Nat}
    (alike : ∀ x ∈ rows, ∀ y ∈ rows, key x = key y →
      rows.countP (fun row => key row < key x) < cut →
      cut < rows.countP (fun row => key row < key x) + rows.countP (fun row => key row = key x) →
      view x = view y) :
    ((arranged.take cut).map view).Perm ((other.take cut).map view) := by
  by_cases whole : rows.length ≤ cut
  · rw [List.take_of_length_le (here.length_eq.trans_le whole),
      List.take_of_length_le (there.length_eq.trans_le whole)]
    exact (here.perm.trans there.perm.symm).map view
  · obtain ⟨row, mem, from', past⟩ := here.cut_place (Nat.not_le.mp whole)
    rw [here.take_eq from' past, there.take_eq from' past, List.map_append, List.map_append]
    have before : (arranged.filter (fun other => key other < key row)).Perm
        (other.filter fun other => key other < key row) :=
      (here.perm.trans there.perm.symm).filter _
    obtain level | inside := from'.eq_or_lt
    · rw [level, Nat.sub_self, List.take_zero, List.take_zero]
      exact (before.map view).append_right _
    · have shown {list : List Row} (found : Arranged key rows list) :
          ((list.filter (fun other => key other = key row)).take
            (cut - rows.countP fun other => key other < key row)).map view =
          List.replicate (cut - rows.countP fun other => key other < key row) (view row) := by
        rw [List.eq_replicate_iff]
        constructor
        · rw [List.length_map, List.length_take, found.length_filter]
          omega
        · intro line there
          obtain ⟨other, taken, rfl⟩ := List.mem_map.mp there
          obtain ⟨there, same⟩ := List.mem_filter.mp (List.mem_of_mem_take taken)
          exact (alike row mem other (found.perm.mem_iff.mp there) (of_decide_eq_true same).symm
            inside past).symm
      rw [shown here, shown there]
      exact (before.map view).append_right _

end Arranged

/-! ## Pages -/

/-- A page is what the next cut adds. -/
theorem take_succ (k size : Nat) (arranged : List Row) :
    arranged.take ((k + 1) * size) = arranged.take (k * size) ++ page (k * size) size arranged := by
  rw [page, Nat.succ_mul, List.take_add]

theorem collected_succ (offset : Nat → Nat) (free : Nat → List Row) (count : Nat) :
    collected view offset size free (count + 1) = collected view offset size free count ++
      (page (offset count) size (free count)).map view := by
  simp [collected, List.range_succ]

/-- Pages of different arrangements show what one arrangement has up to there, if rows at the
place of a cut look alike. -/
theorem collected_perm {free : Nat → List Row} (found : ∀ k, Arranged key rows (free k))
    {arranged : List Row} (here : Arranged key rows arranged)
    (alike : ∀ x ∈ rows, ∀ y ∈ rows, key x = key y → Straddled key size rows (key x) →
      view x = view y) (count : Nat) :
    (collected view (· * size) size free count).Perm ((arranged.take (count * size)).map view) := by
  have cuts (j : Nat) {other : List Row} (there : Arranged key rows other) :=
    there.take_perm here fun x xMem y yMem same from' past =>
      alike x xMem y yMem same ⟨j, from', past⟩
  induction count with
  | zero => simp [collected]
  | succ count inductionHypothesis =>
    rw [collected_succ]
    have step := (inductionHypothesis.trans (cuts count (found count)).symm).append_right
      ((page (count * size) size (free count)).map view)
    rw [← List.map_append, ← take_succ] at step
    exact step.trans (cuts (count + 1) (found count))

/-- One page alone may be cut out of another arrangement: it has to show the same. -/
theorem page_perm_of_whole {offset : Nat → Nat} (whole : Whole key view offset size rows)
    {arranged other : List Row} (here : Arranged key rows arranged)
    (there : Arranged key rows other) (k : Nat) :
    ((page (offset k) size other).map view).Perm ((page (offset k) size arranged).map view) := by
  obtain ⟨enough, whole⟩ := whole
  have member : k ∈ List.range (max enough (k + 1)) := List.mem_range.mpr (by omega)
  obtain ⟨before, after, split⟩ := List.append_of_mem member
  have distinct : (before ++ k :: after).Nodup := split ▸ List.nodup_range
  have same (free : Nat → List Row) (found : ∀ k, Arranged key rows (free k)) :=
    whole (max enough (k + 1)) (le_max_left _ _) free found
  have both := (same (Function.update (fun _ => arranged) k other) (fun j => by
    by_cases one : j = k
    · rw [one, Function.update_self]
      exact there
    · rw [Function.update_of_ne one]
      exact here)).trans (same (fun _ => arranged) fun _ => here).symm
  have others {list : List Nat} (absent : k ∉ list) :
      (list.flatMap fun j => (page (offset j) size
        (Function.update (fun _ => arranged) k other j)).map view) =
      list.flatMap fun j => (page (offset j) size arranged).map view := by
    apply List.flatMap_congr
    intro j mem
    have distinct' : j ≠ k := fun same => absent (same ▸ mem)
    rw [Function.update_of_ne distinct']
  have notBefore : k ∉ before := fun mem =>
    (List.nodup_append.mp distinct).2.2 k mem k List.mem_cons_self rfl
  have notAfter : k ∉ after := (List.nodup_cons.mp (List.nodup_append.mp distinct).2.1).1
  rw [collected, collected, split, List.flatMap_append, List.flatMap_append, List.flatMap_cons,
    List.flatMap_cons, others notBefore, others notAfter, Function.update_self,
    List.perm_append_left_iff, List.perm_append_right_iff] at both
  exact both

/-- Two rows of one place can change sides where a page ends. -/
theorem exists_swapped {x y : Row} (xMem : x ∈ rows) (yMem : y ∈ rows) (same : key x = key y)
    (different : x ≠ y) (straddled : Straddled key size rows (key x)) :
    ∃ k before after, before.length + 1 = (k + 1) * size ∧
      Arranged key rows (before ++ x :: after) ∧
      ∃ after', Arranged key rows (before ++ y :: after') := by
  classical
  obtain ⟨j, from', past⟩ := straddled
  have sorted := Arranged.insertionSort key rows
  generalize (rows.insertionSort fun a b => key a ≤ key b) = arranged at sorted
  let level := arranged.filter fun row => key row = key x
  have xLevel : x ∈ level := List.mem_filter.mpr ⟨sorted.perm.mem_iff.mpr xMem, by simp⟩
  have yLevel : y ∈ level.erase x := (List.mem_erase_of_ne different.symm).mpr
    (List.mem_filter.mpr ⟨sorted.perm.mem_iff.mpr yMem, by simp [same]⟩)
  have both : level.Perm (x :: y :: (level.erase x).erase y) :=
    (List.perm_cons_erase xLevel).trans ((List.perm_cons_erase yLevel).cons x)
  generalize (level.erase x).erase y = others at both
  have count : rows.countP (fun row => key row = key x) = others.length + 2 := by
    rw [← sorted.length_filter, both.length_eq]
    rfl
  have first := sorted.length_filter fun row => key row < key x
  have spread (few : Nat) (a b : Row) (swap : [a, b].Perm [x, y]) :
      (others.take few ++ a :: b :: others.drop few).Perm level := by
    refine List.Perm.trans ?_ both.symm
    have middle : (others.take few ++ ([a, b] ++ others.drop few)).Perm
        ([a, b] ++ (others.take few ++ others.drop few)) := by
      rw [← List.append_assoc, ← List.append_assoc]
      exact List.perm_append_comm.append_right _
    rw [List.take_append_drop] at middle
    exact middle.trans (swap.append_right others)
  have asc := fun few => sorted.regroup (spread few x y (List.Perm.refl _))
  have desc := fun few => sorted.regroup (spread few y x (List.Perm.swap x y []))
  generalize (arranged.filter fun row => key row < key x) = early at first asc desc
  -- so many of the others come before the two
  obtain ⟨few, fewLe, fills⟩ : ∃ few, few ≤ others.length ∧ early.length + few + 1 = j * size := by
    refine ⟨j * size - 1 - early.length, ?_, ?_⟩ <;> omega
  obtain ⟨k, rfl⟩ : ∃ k, j = k + 1 := Nat.exists_eq_succ_of_ne_zero (by
    rintro rfl
    omega)
  have joined := asc few
  have joined' := desc few
  rw [List.append_assoc, List.cons_append, List.cons_append, ← List.append_assoc] at joined joined'
  refine ⟨k, early ++ others.take few, _, ?_, joined, _, joined'⟩
  rw [List.length_append, List.length_take_of_le fewLe, fills]

/-- Pages that follow one another are whole exactly when rows of one place look alike wherever
a page ends within them. -/
theorem whole_iff (room : 0 < size) : Whole key view (· * size) size rows ↔
    ∀ x ∈ rows, ∀ y ∈ rows, key x = key y → Straddled key size rows (key x) →
      view x = view y := by
  constructor
  · intro whole x xMem y yMem same straddled
    by_cases identical : x = y
    · rw [identical]
    · obtain ⟨k, before, after, fills, here, after', there⟩ :=
        exists_swapped xMem yMem same identical straddled
      have pages := page_perm_of_whole whole here there k
      have cut {row : Row} {behind : List Row} :
          before ++ [row] = before.take (k * size) ++
            page (k * size) size (before ++ row :: behind) := by
        have whole' := take_succ k size (before ++ row :: behind)
        have short : k * size ≤ before.length := by
          rw [Nat.succ_mul] at fills
          omega
        rw [List.take_append_of_le_length short, ← fills, List.take_append,
          List.take_of_length_le (by omega), Nat.add_sub_cancel_left] at whole'
        exact whole'
      have joined := pages.append_left ((before.take (k * size)).map view)
      rw [← List.map_append, ← List.map_append, ← cut, ← cut, List.map_append, List.map_append,
        List.perm_append_left_iff] at joined
      exact (List.singleton_perm_singleton.mp joined).symm
  · intro alike
    refine ⟨rows.length, fun count enough free found => ?_⟩
    have shown := collected_perm found (Arranged.insertionSort key rows) alike count
    have all : (rows.insertionSort fun a b => key a ≤ key b).length ≤ count * size := by
      rw [List.length_insertionSort]
      exact enough.trans (Nat.le_mul_of_pos_right count room)
    rw [List.take_of_length_le all] at shown
    exact shown.trans ((List.perm_insertionSort _ rows).map view)

/-! ## Pages that do not follow one another -/

/-- Rows that fit on the first page are whole if no other page shows any. -/
theorem whole_of_fits {offset : Nat → Nat} (first : offset 0 = 0)
    (others : ∀ k, rows.length ≤ offset (k + 1)) (fits : rows.length ≤ size) :
    Whole key view offset size rows := by
  refine ⟨1, fun count enough free found => ?_⟩
  obtain ⟨count, rfl⟩ : ∃ more, count = more + 1 := ⟨count - 1, by omega⟩
  have empty (k : Nat) : page (offset (k + 1)) size (free (k + 1)) = [] := by
    rw [page, List.drop_eq_nil_of_le ((found _).length_eq.trans_le (others k)), List.take_nil]
  have all : page (offset 0) size (free 0) = free 0 := by
    rw [page, first, List.drop_zero, List.take_of_length_le ((found 0).length_eq.trans_le fits)]
  have none' : ((List.range count).flatMap fun k =>
      (page (offset (k + 1)) size (free (k + 1))).map view) = [] :=
    List.flatMap_eq_nil_iff.mpr fun k _ => by rw [empty, List.map_nil]
  rw [collected, List.range_succ_eq_map, List.flatMap_cons, List.flatMap_map, all, none',
    List.append_nil]
  exact (found 0).perm.map view

theorem length_collected_const (offset : Nat → Nat) (arranged : List Row) (count : Nat) :
    (collected view offset size (fun _ => arranged) count).length =
      ((List.range count).map fun k => (page (offset k) size arranged).length).sum := by
  simp [collected, List.length_flatMap]

theorem page_shift (k step : Nat) (arranged : List Row) :
    page ((k + 1) * step) size arranged = page (k * step) size (arranged.drop step) := by
  rw [page, page, List.drop_drop, Nat.succ_mul, Nat.add_comm]

/-- Pages apart from one another show no more than there is. -/
theorem sum_pages_le {step : Nat} (apart : size ≤ step) (count : Nat) (arranged : List Row) :
    ((List.range count).map fun k => (page (k * step) size arranged).length).sum ≤
      arranged.length := by
  induction count generalizing arranged with
  | zero => simp
  | succ count inductionHypothesis =>
    have rest := inductionHypothesis (arranged.drop step)
    simp only [List.range_succ_eq_map, List.map_cons, List.map_map, List.sum_cons,
      Function.comp_def, page_shift]
    rw [List.length_drop] at rest
    rw [page, Nat.zero_mul, List.drop_zero, List.length_take]
    omega

/-- Pages with a gap between them leave rows out. -/
theorem not_whole_of_gap {step : Nat} (gap : size < step) (more : size < rows.length) :
    ¬ Whole key view (· * step) size rows := by
  rintro ⟨enough, whole⟩
  have here := Arranged.insertionSort key rows
  generalize (rows.insertionSort fun a b => key a ≤ key b) = arranged at here
  have shown := (whole (enough + 1) (Nat.le_succ enough) (fun _ => arranged)
    fun _ => here).length_eq
  rw [length_collected_const, List.length_map, List.range_succ_eq_map, List.map_cons,
    List.map_map, List.sum_cons] at shown
  have rest := sum_pages_le gap.le enough (arranged.drop step)
  simp only [Function.comp_def, page_shift] at shown
  rw [List.length_drop, here.length_eq] at rest
  rw [page, Nat.zero_mul, List.drop_zero, List.length_take, here.length_eq] at shown
  omega

/-- Pages at one place show its rows over and over. -/
theorem not_whole_of_stuck {offset : Nat → Nat} (stuck : ∀ k, offset k = 0) (room : 0 < size)
    (some' : rows ≠ []) : ¬ Whole key view offset size rows := by
  rintro ⟨enough, whole⟩
  have here := Arranged.insertionSort key rows
  generalize (rows.insertionSort fun a b => key a ≤ key b) = arranged at here
  have shown := (whole (enough + rows.length + 1) (by omega) (fun _ => arranged)
    fun _ => here).length_eq
  have positive := List.length_pos_iff.mpr some'
  have same : ((List.range (enough + rows.length + 1)).map fun k =>
      (page (offset k) size arranged).length) =
      List.replicate (enough + rows.length + 1) (min size rows.length) := by
    simp [page, stuck, here.length_eq]
  rw [length_collected_const, same, List.sum_replicate_nat, List.length_map] at shown
  have least : 1 ≤ min size rows.length := by omega
  have grows := Nat.mul_le_mul_left (enough + rows.length + 1) least
  omega

/-- No page ends within rows that all fit on the first. -/
theorem not_straddled_of_fits (fits : rows.length ≤ size) (place : Key) :
    ¬ Straddled key size rows place := by
  rintro ⟨j, from', past⟩
  have here := Arranged.insertionSort key rows
  have parts := congrArg List.length (sorted_split here.sorted place)
  rw [List.length_append, List.length_append, here.length_eq, here.length_filter,
    here.length_filter] at parts
  obtain ⟨k, rfl⟩ : ∃ k, j = k + 1 := Nat.exists_eq_succ_of_ne_zero (by
    rintro rfl
    omega)
  have grows : size ≤ (k + 1) * size := Nat.le_mul_of_pos_left size (Nat.succ_pos k)
  omega

/-- No rows are shown by any pages. -/
theorem whole_nil (offset : Nat → Nat) : Whole key view offset size [] := by
  refine ⟨0, fun count _ free found => ?_⟩
  have empty : collected view offset size free count = [] :=
    List.flatMap_eq_nil_iff.mpr fun k _ => by
      rw [(found k).perm.eq_nil, page, List.drop_nil, List.take_nil, List.map_nil]
  rw [empty]
  exact List.Perm.refl _

end OffsetPages
