import Mathlib.Data.List.Basic
import Mathlib.Data.List.Count

/-!
# Insert or update

Rows are put into a table one after the other. A row without a key is always new. A row
whose key is taken replaces what the row of that key holds, unless it holds the same in
everything that is compared. By its keys a table is a map from keys to compared data, and
putting rows into it is overwriting that map.
-/

namespace Upsert

/-- How rows are told apart and written. -/
structure Rules (Row Key Data : Type*) where
  /-- Two rows conflict where both have the same key. -/
  key : Row → Option Key
  compared : Row → Data
  /-- An old row is updated from a new one. -/
  update : Row → Row → Row
  /-- The constraints of the table. -/
  accepts : List Row → Bool

/-- What became of a row. -/
inductive Outcome where
  | inserted
  | updated
  | kept
  deriving DecidableEq

/-- An update keeps the key, and what is compared is then that of the new row. -/
structure Lawful {Row Key Data : Type*} (rules : Rules Row Key Data) : Prop where
  key_update : ∀ {old new key}, rules.key old = some key → rules.key new = some key →
    rules.key (rules.update old new) = some key
  compared_update : ∀ old new, rules.compared (rules.update old new) = rules.compared new

section

variable {Row Key Data : Type*} [DecidableEq Key] (rules : Rules Row Key Data)

/-- The row has the key. -/
def holds (key : Key) (row : Row) : Bool := rules.key row = some key

/-- The row of a key. -/
def find (key : Key) (rows : List Row) : Option Row := rows.find? (holds rules key)

/-- A row of that key is updated. -/
def overwrite (key : Key) (new : Row) (rows : List Row) : List Row :=
  rows.map (fun row => if holds rules key row then rules.update row new else row)

/-- What a table holds at a key, as far as it is compared. -/
def look (rows : List Row) (key : Key) : Option Data := (find rules key rows).map rules.compared

/-- What is written at a key last. -/
def written (news : List Row) (key : Key) : Option Data := look rules news.reverse key

variable [DecidableEq Data]

/-- The rows after one is put among them, if the table accepts them. -/
def put (new : Row) (rows : List Row) : Option (List Row × Outcome) :=
  match rules.key new with
  | none => (some (rows ++ [new], Outcome.inserted)).filter
      (fun result => rules.accepts result.1)
  | some key =>
    match find rules key rows with
    | none => (some (rows ++ [new], Outcome.inserted)).filter
        (fun result => rules.accepts result.1)
    | some old =>
      if rules.compared old = rules.compared new then some (rows, .kept)
      else (some (overwrite rules key new rows, Outcome.updated)).filter
        (fun result => rules.accepts result.1)

/-- What the row of a key becomes when a new one comes. -/
def settle (old : Option Row) (new : Row) : Row :=
  match old with
  | none => new
  | some old => if rules.compared old = rules.compared new then old else rules.update old new

/-- Rows are put one after the other. -/
def putAll : List Row → List Row → Option (List Row × List Outcome)
  | [], rows => some (rows, [])
  | new :: rest, rows =>
    match put rules new rows with
    | none => none
    | some (rows, outcome) =>
      (putAll rest rows).map (fun result => (result.1, outcome :: result.2))

end

/-- What is compared is then that of the new row. -/
theorem compared_settle {Row Key Data : Type*} [DecidableEq Data] {rules : Rules Row Key Data}
    (lawful : Lawful rules) (old : Option Row) (new : Row) :
    rules.compared (settle rules old new) = rules.compared new := by
  cases old with
  | none => rfl
  | some old =>
    rw [settle]
    split_ifs with same
    · exact same
    · exact lawful.compared_update old new

section

variable {Row Key Data : Type*} [DecidableEq Key] {rules : Rules Row Key Data}
  {new : Row} {rows rows' : List Row} {outcome : Outcome}

theorem holds_iff {key : Key} {row : Row} : holds rules key row = true ↔ rules.key row = some key :=
  decide_eq_true_iff

theorem find_append (key : Key) (before after : List Row) :
    find rules key (before ++ after) = (find rules key before).or (find rules key after) :=
  List.find?_append

/-- Overwriting one key leaves the rows of the others alone. -/
theorem find_overwrite (lawful : Lawful rules) {key : Key} (keyed : rules.key new = some key)
    (other : Key) : find rules other (overwrite rules key new rows) =
      if other = key then (find rules key rows).map (fun old => rules.update old new)
      else find rules other rows := by
  have kept (row : Row) (here : holds rules key row = true) :
      rules.key (rules.update row new) = some key :=
    lawful.key_update (holds_iff.mp here) keyed
  induction rows with
  | nil =>
    split_ifs
    · rfl
    · rfl
  | cons row rest inductionHypothesis =>
    simp only [overwrite, find, List.map_cons] at inductionHypothesis ⊢
    by_cases here : holds rules key row = true
    · by_cases same : other = key
      · subst same
        rw [if_pos here, List.find?_cons_of_pos (holds_iff.mpr (kept row here)),
          List.find?_cons_of_pos here, if_pos rfl]
        rfl
      · have before : holds rules other row = false := by
          rw [← Bool.not_eq_true, holds_iff, holds_iff.mp here]
          exact fun equal => same (Option.some.inj equal).symm
        have after : holds rules other (rules.update row new) = false := by
          rw [← Bool.not_eq_true, holds_iff, kept row here]
          exact fun equal => same (Option.some.inj equal).symm
        rw [if_neg same] at inductionHypothesis ⊢
        rw [if_pos here, List.find?_cons_of_neg (by rw [after]; exact Bool.false_ne_true),
          List.find?_cons_of_neg (by rw [before]; exact Bool.false_ne_true), inductionHypothesis]
    · rw [if_neg here]
      by_cases found : holds rules other row = true
      · have different : other ≠ key := by
          rintro rfl
          exact here found
        rw [if_neg different, List.find?_cons_of_pos found, List.find?_cons_of_pos found]
      · rw [List.find?_cons_of_neg found, inductionHypothesis]
        split_ifs
        · rw [List.find?_cons_of_neg here]
        · rw [List.find?_cons_of_neg found]

theorem find_single (key : Key) (row : Row) :
    find rules key [row] = if rules.key row = some key then some row else none := by
  by_cases here : rules.key row = some key
  · rw [if_pos here, find, List.find?_cons_of_pos (holds_iff.mpr here)]
  · rw [if_neg here, find, List.find?_cons_of_neg (fun has => here (holds_iff.mp has))]
    rfl

/-- A row is found where no other has its key. -/
theorem find_of_nodup {key : Key} {row : Row} (different : (rows.filterMap rules.key).Nodup)
    (member : row ∈ rows) (keyed : rules.key row = some key) : find rules key rows = some row := by
  induction rows with
  | nil => cases member
  | cons first rest inductionHypothesis =>
    by_cases here : rules.key first = some key
    · rcases List.mem_cons.mp member with rfl | later
      · exact List.find?_cons_of_pos (holds_iff.mpr keyed)
      · rw [List.filterMap_cons_some here, List.nodup_cons] at different
        exact absurd (List.mem_filterMap.mpr ⟨row, later, keyed⟩) different.1
    · have within : row ∈ rest := by
        rcases List.mem_cons.mp member with rfl | later
        · exact absurd keyed here
        · exact later
      have others : (rest.filterMap rules.key).Nodup := by
        cases other : rules.key first with
        | none => rwa [List.filterMap_cons_none other] at different
        | some taken =>
          rw [List.filterMap_cons_some other, List.nodup_cons] at different
          exact different.2
      rw [find, List.find?_cons_of_neg (fun has => here (holds_iff.mp has))]
      exact inductionHypothesis others within

variable [DecidableEq Data]

/-- A row put into a table was inserted, has updated the row of its key, or found its own data
there. -/
theorem put_cases (placed : put rules new rows = some (rows', outcome)) :
    (outcome = .inserted ∧ rows' = rows ++ [new] ∧
        rules.accepts rows' = true ∧
        ∀ key, rules.key new = some key → find rules key rows = none) ∨
      (∃ key old, outcome = .updated ∧ rules.key new = some key ∧
        find rules key rows = some old ∧ rules.compared old ≠ rules.compared new ∧
        rows' = overwrite rules key new rows ∧ rules.accepts rows' = true) ∨
      (∃ key old, outcome = .kept ∧ rules.key new = some key ∧
        find rules key rows = some old ∧ rules.compared old = rules.compared new ∧
        rows' = rows) := by
  rw [put] at placed
  split at placed
  · rename_i keyless
    obtain ⟨same, accepted⟩ := Option.filter_eq_some_iff.mp placed
    obtain ⟨rfl, rfl⟩ := Prod.mk.inj (Option.some.inj same)
    refine Or.inl ⟨rfl, rfl, accepted, fun key keyed => ?_⟩
    rw [keyless] at keyed
    cases keyed
  · rename_i key keyed
    split at placed
    · rename_i vacant
      obtain ⟨same, accepted⟩ := Option.filter_eq_some_iff.mp placed
      obtain ⟨rfl, rfl⟩ := Prod.mk.inj (Option.some.inj same)
      refine Or.inl ⟨rfl, rfl, accepted, fun other also => ?_⟩
      obtain rfl : key = other := Option.some.inj (keyed.symm.trans also)
      exact vacant
    · rename_i old found
      split_ifs at placed with same
      · obtain ⟨rfl, rfl⟩ := Prod.mk.inj (Option.some.inj placed)
        exact Or.inr (Or.inr ⟨key, old, rfl, keyed, found, same, rfl⟩)
      · obtain ⟨whole, accepted⟩ := Option.filter_eq_some_iff.mp placed
        obtain ⟨rfl, rfl⟩ := Prod.mk.inj (Option.some.inj whole)
        exact Or.inr (Or.inl ⟨key, old, rfl, keyed, found, same, rfl, accepted⟩)

/-! ## A table as a map -/

/-- Putting a row into a table settles the row of its key and of no other. -/
theorem find_put (lawful : Lawful rules) (placed : put rules new rows = some (rows', outcome))
    (key : Key) : find rules key rows' =
      if rules.key new = some key then some (settle rules (find rules key rows) new)
      else find rules key rows := by
  rcases put_cases placed with
    ⟨-, rfl, -, vacant⟩ | ⟨taken, old, -, keyed, found, differ, rfl, -⟩ | ⟨taken, old, -, keyed,
      found, same, rfl⟩
  · rw [find_append, find_single]
    split_ifs with here
    · rw [vacant key here, Option.none_or, settle]
    · rw [Option.or_none]
  · rw [find_overwrite lawful keyed, keyed]
    by_cases here : key = taken
    · subst here
      rw [if_pos rfl, if_pos rfl, found, Option.map_some, settle, if_neg differ]
    · rw [if_neg here, if_neg (fun equal => here (Option.some.inj equal).symm)]
  · split_ifs with here
    · obtain rfl : taken = key := Option.some.inj (keyed.symm.trans here)
      rw [found, settle, if_pos same]
    · rfl

/-- Putting a row into a table overwrites the data of its key and of no other. -/
theorem look_put (lawful : Lawful rules) (placed : put rules new rows = some (rows', outcome))
    (key : Key) : look rules rows' key =
      if rules.key new = some key then some (rules.compared new) else look rules rows key := by
  rw [look, find_put lawful placed key]
  split_ifs
  · rw [Option.map_some, compared_settle lawful]
  · rfl

/-- What holds of the row of a key and stays when it is settled holds after a list of rows. -/
theorem find_putAll (lawful : Lawful rules) {news : List Row} {outcomes : List Outcome}
    (placed : putAll rules news rows = some (rows', outcomes)) (key : Key)
    {P : Option Row → Prop} (start : P (find rules key rows))
    (step : ∀ new ∈ news, rules.key new = some key → ∀ old, P old →
      P (some (settle rules old new))) : P (find rules key rows') := by
  induction news generalizing rows outcomes with
  | nil =>
    obtain ⟨rfl, -⟩ := Prod.mk.inj (Option.some.inj placed)
    exact start
  | cons first rest inductionHypothesis =>
    rw [putAll] at placed
    split at placed
    · cases placed
    · rename_i middle outcome one
      obtain ⟨result, others, same⟩ := Option.map_eq_some_iff.mp placed
      obtain ⟨rfl, rfl⟩ := Prod.mk.inj same
      refine inductionHypothesis others ?_
        (fun new later => step new (List.mem_cons_of_mem _ later))
      rw [find_put lawful one key]
      split_ifs with here
      · exact step first List.mem_cons_self here _ start
      · exact start

/-- A table after a whole list of rows: the last row of a key says what it holds. -/
theorem look_putAll (lawful : Lawful rules) {news : List Row} {outcomes : List Outcome}
    (placed : putAll rules news rows = some (rows', outcomes)) (key : Key) :
    look rules rows' key = (written rules news key).or (look rules rows key) := by
  induction news generalizing rows outcomes with
  | nil =>
    obtain ⟨rfl, -⟩ := Prod.mk.inj (Option.some.inj placed)
    rfl
  | cons first rest inductionHypothesis =>
    rw [putAll] at placed
    split at placed
    · cases placed
    · rename_i middle outcome one
      obtain ⟨result, others, same⟩ := Option.map_eq_some_iff.mp placed
      obtain ⟨rfl, rfl⟩ := Prod.mk.inj same
      rw [inductionHypothesis others, look_put lawful one key, written, written,
        List.reverse_cons]
      simp only [look, find_append, find_single]
      cases found : find rules key rest.reverse with
      | some last => simp
      | none =>
        split_ifs
        · simp
        · simp

/-! ## Putting again -/

/-- A row is kept exactly where its key holds its data already, and nothing changes then. -/
theorem put_kept_iff : put rules new rows = some (rows, .kept) ↔
    ∃ key, rules.key new = some key ∧ look rules rows key = some (rules.compared new) := by
  constructor
  · intro placed
    rcases put_cases placed with ⟨other, -⟩ | ⟨key, old, other, -⟩ | ⟨key, old, -, keyed, found,
        same, -⟩
    · cases other
    · cases other
    · refine ⟨key, keyed, ?_⟩
      rw [look, found, Option.map_some, same]
  · rintro ⟨key, keyed, held⟩
    obtain ⟨old, found, same⟩ := Option.map_eq_some_iff.mp held
    rw [put, keyed]
    dsimp only
    rw [found]
    dsimp only
    rw [if_pos same]

theorem put_kept (placed : put rules new rows = some (rows', .kept)) : rows' = rows := by
  rcases put_cases placed with ⟨other, -⟩ | ⟨key, old, other, -⟩ | ⟨key, old, -, -, -, -, same⟩
  · cases other
  · cases other
  · exact same

/-- A list of rows is kept as a whole exactly where every key holds the data of its row. -/
theorem putAll_kept_iff {news : List Row} :
    (∃ rows' outcomes, putAll rules news rows = some (rows', outcomes) ∧
        ∀ outcome ∈ outcomes, outcome = .kept) ↔
      ∀ new ∈ news, ∃ key, rules.key new = some key ∧
        look rules rows key = some (rules.compared new) := by
  induction news with
  | nil =>
    refine iff_of_true ⟨rows, [], rfl, ?_⟩ ?_
    · intro outcome member
      cases member
    · intro new member
      cases member
  | cons first rest inductionHypothesis =>
    rw [List.forall_mem_cons, ← inductionHypothesis, ← put_kept_iff]
    constructor
    · rintro ⟨rows', outcomes, placed, kept⟩
      rw [putAll] at placed
      split at placed
      · cases placed
      · rename_i middle outcome one
        obtain ⟨result, others, same⟩ := Option.map_eq_some_iff.mp placed
        obtain ⟨rfl, rfl⟩ := Prod.mk.inj same
        obtain rfl := kept outcome List.mem_cons_self
        obtain rfl := put_kept one
        exact ⟨one, result.1, result.2, others,
          fun outcome member => kept outcome (List.mem_cons_of_mem _ member)⟩
    · rintro ⟨one, rows', outcomes, placed, kept⟩
      refine ⟨rows', .kept :: outcomes, ?_, ?_⟩
      · rw [putAll, one]
        dsimp only
        rw [placed]
        rfl
      · intro outcome member
        rcases List.mem_cons.mp member with rfl | later
        · rfl
        · exact kept outcome later

/-- Where every row is kept, the table stays as it is. -/
theorem putAll_kept {news : List Row} {outcomes : List Outcome}
    (placed : putAll rules news rows = some (rows', outcomes))
    (kept : ∀ outcome ∈ outcomes, outcome = .kept) : rows' = rows := by
  induction news generalizing rows outcomes with
  | nil =>
    obtain ⟨rfl, -⟩ := Prod.mk.inj (Option.some.inj placed)
    rfl
  | cons first rest inductionHypothesis =>
    rw [putAll] at placed
    split at placed
    · cases placed
    · rename_i middle outcome one
      obtain ⟨result, others, same⟩ := Option.map_eq_some_iff.mp placed
      obtain ⟨rfl, rfl⟩ := Prod.mk.inj same
      obtain rfl := kept outcome List.mem_cons_self
      obtain rfl := put_kept one
      exact inductionHypothesis others
        (fun outcome member => kept outcome (List.mem_cons_of_mem _ member))

/-! ## What is written -/

/-- A row that has the key of none of the rows put into a table stays in it. -/
theorem mem_put (placed : put rules new rows = some (rows', outcome)) {row : Row}
    (member : row ∈ rows) (other : ∀ key, rules.key new = some key → rules.key row ≠ some key) :
    row ∈ rows' := by
  rcases put_cases placed with ⟨-, rfl, -⟩ | ⟨key, old, -, keyed, -, -, rfl, -⟩ |
      ⟨-, -, -, -, -, -, rfl⟩
  · exact List.mem_append_left _ member
  · have elsewhere : ¬holds rules key row = true := by
      rw [holds_iff]
      exact other key keyed
    refine List.mem_map.mpr ⟨row, member, ?_⟩
    rw [if_neg elsewhere]
  · exact member

theorem mem_putAll {news : List Row} {outcomes : List Outcome}
    (placed : putAll rules news rows = some (rows', outcomes)) {row : Row} (member : row ∈ rows)
    (other : ∀ new ∈ news, ∀ key, rules.key new = some key → rules.key row ≠ some key) :
    row ∈ rows' := by
  induction news generalizing rows outcomes with
  | nil =>
    obtain ⟨rfl, -⟩ := Prod.mk.inj (Option.some.inj placed)
    exact member
  | cons first rest inductionHypothesis =>
    rw [putAll] at placed
    split at placed
    · cases placed
    · rename_i middle outcome one
      obtain ⟨result, others, same⟩ := Option.map_eq_some_iff.mp placed
      obtain ⟨rfl, rfl⟩ := Prod.mk.inj same
      exact inductionHypothesis others (mem_put one member (other first List.mem_cons_self))
        (fun new later => other new (List.mem_cons_of_mem _ later))

/-- What is written for a row has a property: the row itself where its key is free, and every
row of its key as it is updated, unless it is kept. -/
def Writes (rules : Rules Row Key Data) (P : Row → Prop) (rows : List Row) (new : Row) : Prop :=
  match rules.key new with
  | none => P new
  | some key =>
    match find rules key rows with
    | none => P new
    | some old => rules.compared old = rules.compared new ∨
        ∀ row ∈ rows, rules.key row = some key → P (rules.update row new)

/-- A property of all rows is kept by putting a row exactly where it holds of what is
written. -/
theorem forall_put_iff {P : Row → Prop} (placed : put rules new rows = some (rows', outcome))
    (before : ∀ row ∈ rows, P row) : (∀ row ∈ rows', P row) ↔ Writes rules P rows new := by
  rw [Writes]
  rcases put_cases placed with ⟨-, rfl, -, vacant⟩ | ⟨key, old, -, keyed, found, differ, rfl, -⟩ |
      ⟨key, old, -, keyed, found, same, rfl⟩
  · have written : (∀ row ∈ rows ++ [new], P row) ↔ P new := by
      simp only [List.forall_mem_append, List.forall_mem_singleton]
      exact and_iff_right before
    rw [written]
    split
    · rfl
    · rename_i key keyed
      rw [vacant key keyed]
  · rw [keyed]
    dsimp only
    rw [found]
    dsimp only
    rw [or_iff_right differ]
    constructor
    · intro all row member here
      have updated := all _ (List.mem_map_of_mem member)
      rwa [if_pos (holds_iff.mpr here)] at updated
    · intro updates row member
      obtain ⟨row, within, rfl⟩ := List.mem_map.mp member
      split_ifs with here
      · exact updates row within (holds_iff.mp here)
      · exact before row within
  · rw [keyed]
    dsimp only
    rw [found]
    exact iff_of_true before (Or.inl same)

/-- What is written for a row does not depend on rows of other keys. -/
theorem writes_put (lawful : Lawful rules) {P : Row → Prop} {later : Row}
    (placed : put rules new rows = some (rows', outcome))
    (other : ∀ key, rules.key new = some key → rules.key later ≠ some key) :
    Writes rules P rows' later ↔ Writes rules P rows later := by
  rw [Writes, Writes]
  cases keyed : rules.key later with
  | none => rfl
  | some key =>
    dsimp only
    have free : rules.key new ≠ some key := fun here => other key here keyed
    rcases put_cases placed with ⟨-, rfl, -⟩ | ⟨taken, old, -, takes, -, -, rfl, -⟩ |
        ⟨-, -, -, -, -, -, rfl⟩
    · have same : find rules key (rows ++ [new]) = find rules key rows := by
        rw [find_append, find_single, if_neg free, Option.or_none]
      rw [same]
      cases find rules key rows with
      | none => rfl
      | some old =>
        apply or_congr_right
        simp only [List.forall_mem_append, List.forall_mem_singleton]
        exact and_iff_left (fun here => absurd here free)
    · have apart : key ≠ taken := by
        rintro rfl
        exact free takes
      rw [find_overwrite lawful takes, if_neg apart]
      cases find rules key rows with
      | none => rfl
      | some old =>
        apply or_congr_right
        constructor
        · intro all row member here
          have elsewhere : ¬holds rules taken row = true := by
            rw [holds_iff, here]
            exact fun equal => apart (Option.some.inj equal)
          refine all row (List.mem_map.mpr ⟨row, member, ?_⟩) here
          rw [if_neg elsewhere]
        · intro all row member here
          obtain ⟨row, within, rfl⟩ := List.mem_map.mp member
          split_ifs at here ⊢ with hit
          · rw [lawful.key_update (holds_iff.mp hit) takes] at here
            exact absurd (Option.some.inj here).symm apart
          · exact all row within here
    · rfl

/-- A property of all rows is kept by a list of rows with different keys exactly where it
holds of everything that is written. -/
theorem forall_putAll_iff (lawful : Lawful rules) {P : Row → Prop} {news : List Row}
    {outcomes : List Outcome} (placed : putAll rules news rows = some (rows', outcomes))
    (different : (news.filterMap rules.key).Nodup) (before : ∀ row ∈ rows, P row) :
    (∀ row ∈ rows', P row) ↔ ∀ new ∈ news, Writes rules P rows new := by
  induction news generalizing rows outcomes with
  | nil =>
    obtain ⟨rfl, -⟩ := Prod.mk.inj (Option.some.inj placed)
    exact iff_of_true before (fun new member => by cases member)
  | cons first rest inductionHypothesis =>
    rw [putAll] at placed
    split at placed
    · cases placed
    · rename_i middle outcome one
      obtain ⟨result, others, same⟩ := Option.map_eq_some_iff.mp placed
      obtain ⟨rfl, rfl⟩ := Prod.mk.inj same
      have apart : ∀ new ∈ rest, ∀ key, rules.key first = some key → rules.key new ≠ some key := by
        intro new member key keyed also
        rw [List.filterMap_cons_some keyed, List.nodup_cons] at different
        exact different.1 (List.mem_filterMap.mpr ⟨new, member, also⟩)
      have laterDifferent : (rest.filterMap rules.key).Nodup := by
        cases keyed : rules.key first with
        | none => rwa [List.filterMap_cons_none keyed] at different
        | some key =>
          rw [List.filterMap_cons_some keyed, List.nodup_cons] at different
          exact different.2
      have rest_iff : (∀ new ∈ rest, Writes rules P middle new) ↔
          ∀ new ∈ rest, Writes rules P rows new :=
        forall₂_congr (fun new member => writes_put lawful one (apart new member))
      rw [List.forall_mem_cons, ← forall_put_iff one before, ← rest_iff]
      by_cases kept : ∀ row ∈ middle, P row
      · rw [inductionHypothesis others laterDifferent kept]
        exact (and_iff_right kept).symm
      · -- what is wrong in the middle was written for the first row and stays
        refine iff_of_false (fun all => kept ?_) (fun both => kept both.1)
        intro row member
        by_cases old : row ∈ rows
        · exact before row old
        · apply all
          apply mem_putAll others member
          intro new later key keyed here
          rcases put_cases one with ⟨-, rfl, -⟩ | ⟨taken, found, -, takes, -, -, rfl, -⟩ |
              ⟨-, -, -, -, -, -, rfl⟩
          · rcases List.mem_append.mp member with within | new'
            · exact old within
            · obtain rfl := List.mem_singleton.mp new'
              exact apart new later key here keyed
          · obtain ⟨source, within, rfl⟩ := List.mem_map.mp member
            split_ifs at here old with hit
            · rw [lawful.key_update (holds_iff.mp hit) takes] at here
              exact apart new later key (takes.trans here) keyed
            · exact old within
          · exact old member

end

/-! ## Marked rows -/

section

variable {Row Key Data Mark : Type*} {rules : Rules Row Key Data}

/-- The same rules for rows that carry a mark; a written row has the mark of the new one. -/
def marked (rules : Rules Row Key Data) : Rules (Row × Mark) Key Data where
  key row := rules.key row.1
  compared row := rules.compared row.1
  update old new := (rules.update old.1 new.1, new.2)
  accepts rows := rules.accepts (rows.map Prod.fst)

theorem Lawful.marked (lawful : Lawful rules) :
    Lawful (Upsert.marked rules : Rules (Row × Mark) Key Data) where
  key_update := fun oldKey newKey => lawful.key_update oldKey newKey
  compared_update := fun old new => lawful.compared_update old.1 new.1

variable [DecidableEq Key]

theorem find_marked (key : Key) (rows : List (Row × Mark)) :
    (find (Upsert.marked rules) key rows).map Prod.fst = find rules key (rows.map Prod.fst) := by
  rw [find, find, List.find?_map]
  rfl

theorem overwrite_marked (key : Key) (new : Row × Mark) (rows : List (Row × Mark)) :
    (overwrite (Upsert.marked rules) key new rows).map Prod.fst =
      overwrite rules key new.1 (rows.map Prod.fst) := by
  rw [overwrite, overwrite, List.map_map, List.map_map]
  apply List.map_congr_left
  intro row member
  have same : holds (Upsert.marked rules) key row = holds rules key row.1 := rfl
  simp only [Function.comp_apply, same]
  split_ifs
  · rfl
  · rfl

variable [DecidableEq Data]

/-- Marks decide nothing. -/
theorem put_marked (new : Row × Mark) (rows : List (Row × Mark)) :
    (put (Upsert.marked rules) new rows).map (fun result => (result.1.map Prod.fst, result.2)) =
      put rules new.1 (rows.map Prod.fst) := by
  have accepted (rows : List (Row × Mark)) (outcome : Outcome) :
      ((some (rows, outcome)).filter
          (fun result => (Upsert.marked rules).accepts result.1)).map
        (fun result => (result.1.map Prod.fst, result.2)) =
      (some (rows.map Prod.fst, outcome)).filter (fun result => rules.accepts result.1) := by
    rw [Option.filter_some, Option.filter_some]
    change Option.map _ (if rules.accepts (rows.map Prod.fst) = true then _ else _) = _
    split_ifs
    · rfl
    · rfl
  have sameKey : (Upsert.marked rules).key new = rules.key new.1 := rfl
  rw [put, put, sameKey]
  cases rules.key new.1 with
  | none =>
    dsimp only
    rw [accepted, List.map_append]
    rfl
  | some key =>
    dsimp only
    rw [← find_marked key rows]
    cases find (Upsert.marked rules) key rows with
    | none =>
      simp only [Option.map_none]
      rw [accepted, List.map_append]
      rfl
    | some old =>
      simp only [Option.map_some]
      have compares : ((Upsert.marked rules).compared old = (Upsert.marked rules).compared new) ↔
          rules.compared old.1 = rules.compared new.1 := Iff.rfl
      by_cases same : rules.compared old.1 = rules.compared new.1
      · rw [if_pos (compares.mpr same), if_pos same]
        rfl
      · rw [if_neg (fun equal => same (compares.mp equal)), if_neg same, accepted,
          overwrite_marked]

theorem putAll_marked (news rows : List (Row × Mark)) :
    (putAll (Upsert.marked rules) news rows).map
        (fun result => (result.1.map Prod.fst, result.2)) =
      putAll rules (news.map Prod.fst) (rows.map Prod.fst) := by
  induction news generalizing rows with
  | nil => rfl
  | cons first rest inductionHypothesis =>
    rw [List.map_cons, putAll, putAll, ← put_marked]
    cases put (Upsert.marked rules) first rows with
    | none => rfl
    | some result =>
      simp only [Option.map_some]
      rw [← inductionHypothesis, Option.map_map, Option.map_map]
      rfl

end

end Upsert
