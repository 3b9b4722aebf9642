import LumidPlatform.Export.Handler
import LumidPlatform.Read.Placeholders

/-!
# When the pages of an export are the table

The loop that exports a table asks for its pages at multiples of the limit. A statement without
conditions has no order, so its pages are cut out of whatever order each request finds; with
conditions the order is that of two columns. On ClickHouse a statement with conditions has more
marks than binds. And a time that cannot be read is no condition, where it should be an error.
-/

namespace LumidPlatform.Export

open Read Read.Dialect Read.Placeholders Ingest

variable {Row Key : Type}

/-! ## What an export should do -/

/-- A caller who may export, and a table that is there. -/
structure Admitted (site : Site Row Key) where
  identity : Identity
  schema : Str
  table : Str
  schemaN : Str
  tableN : Str
  kind : BackendKind
  admin : requireAdmin identity = .ok ()
  schema_norm : normIdent site.crates.unicode schema = some schemaN
  table_norm : normIdent site.crates.unicode table = some tableN
  backend : site.backendOf schemaN tableN = .ok kind
  known : site.known kind schemaN tableN = .ok true

namespace Admitted

variable {site : Site Row Key}

def stored (admitted : Admitted site) : Table Row Key :=
  site.table admitted.kind admitted.schemaN admitted.tableN

/-- A request of the caller for the table. -/
def asks [LinearOrder Key] (admitted : Admitted site) (q : ExportQuery) (scan : List Row) :
    ApiResult Page :=
  getExport site admitted.identity admitted.schema admitted.table q scan

end Admitted

/-- The rows that a request asks for. -/
def Table.wanted (table : Table Row Key) (status : Option Str) (after : Option DateTime)
    (row : Row) : Bool :=
  status.all (table.statusIs row) && after.all (table.createdAfter row)

/-- What the pages are steps of. -/
def stepOf (limit : Option Int) : Int := limit.getD 10000

/-- The request for a page. -/
def pageQuery (limit : Option Int) (status after : Option Str) (k : Nat) : ExportQuery :=
  ⟨some (k * stepOf limit), limit, status, after⟩

/-- A mark for each placeholder, with a value; and the value is the one that the number of the
placeholder stands for. -/
structure BoundQuery.WellBound (q : BoundQuery) : Prop where
  marked : marks q.sent = q.select.placeholders.length
  bound : ∀ (k n : Nat), q.select.placeholders[k]? = some n →
    ∃ value, q.binds[k]? = some value ∧ numbered q.params n = some value

/-- From some page on all pages together have a line for every row that is asked for, whatever
order each of them finds the rows in. -/
def Collects [LinearOrder Key] {site : Site Row Key} (admitted : Admitted site)
    (limit : Option Int) (status after : Option Str) : Prop :=
  ∃ enough, ∀ count, enough ≤ count → ∀ scan : Nat → List Row,
    (∀ k, (scan k).Perm admitted.stored.rows) →
    ∃ pages : List Page, (List.range count).mapM
        (fun k => admitted.asks (pageQuery limit status after k) (scan k)) = .ok pages ∧
      (pages.flatMap Page.lines).Perm
        ((admitted.stored.rows.filter
          (admitted.stored.wanted status (after.bind site.parseAfter))).map
            (site.line admitted.stored))

/-- What is promised of exporting a table with some filters, page by page. -/
structure Promise [LinearOrder Key] (site : Site Row Key) (admitted : Admitted site)
    (limit : Option Int) (status after : Option Str) : Prop where
  /-- A time that cannot be read is the caller's mistake. -/
  refused : ∀ s, after = some s → site.parseAfter s = none → ∀ (k : Nat) (scan : List Row),
    scan.Perm admitted.stored.rows →
      ∃ error, admitted.asks (pageQuery limit status after k) scan = .error error ∧
        error.status < 500
  /-- Otherwise the pages are the rows. -/
  whole : (∀ s, after = some s → (site.parseAfter s).isSome = true) →
    Collects admitted limit status after
  bound : admitted.kind = .clickHouse → ∀ k, (site.boundQuery admitted.schemaN admitted.tableN
    (pageQuery limit status after k)).WellBound

/-! ## When it does -/

/-- Where a row stands in the order of a statement. Without an order all rows are at one place. -/
def Table.sortKey (table : Table Row Key) (filtered : Bool) (row : Row) : WithBot Key :=
  if filtered then table.place row else ⊥

/-- The columns that a request with filters needs. -/
def Table.Usable (table : Table Row Key) (status : Option Str) (after : Option DateTime) : Prop :=
  (status = none ∧ after = none) ∨
    (table.has "created_at".str = true ∧ table.has "msg_id".str = true ∧
      (status.isSome = true → table.has "status".str = true))

/-- The rows asked for come in pages that fit together: a limit within the bounds (or more than
all the rows), and no page that ends between two rows at one place with different lines. -/
def Pageable [LinearOrder Key] (limit : Option Int) (key : Row → WithBot Key) (line : Row → Bytes)
    (rows : List Row) : Prop :=
  rows = [] ∨ (1 ≤ stepOf limit ∧ (stepOf limit ≤ 100000 ∨ rows.length ≤ 100000) ∧
    ∀ x ∈ rows, ∀ y ∈ rows, key x = key y →
      OffsetPages.Straddled key (min (stepOf limit) 100000).toNat rows (key x) → line x = line y)

/-- The condition of the promise. -/
structure Exportable [LinearOrder Key] (site : Site Row Key) (admitted : Admitted site)
    (limit : Option Int) (status after : Option Str) : Prop where
  readable : ∀ s, after = some s → (site.parseAfter s).isSome = true
  plain : admitted.kind = .clickHouse → status = none ∧ after = none
  usable : admitted.stored.Usable status (after.bind site.parseAfter)
  pageable : Pageable limit
    (admitted.stored.sortKey (status.isSome || (after.bind site.parseAfter).isSome))
    (site.line admitted.stored)
    (admitted.stored.rows.filter (admitted.stored.wanted status (after.bind site.parseAfter)))

/-! ## The statement on ClickHouse -/

/-- Texts that the translation copies, and placeholders that a blank follows. -/
def Separate : List Fragment → Prop
  | [] => True
  | .text s :: rest =>
    (∀ c ∈ s, Text.isAscii c = true ∧ c ≠ '$' ∧ c ≠ '?') ∧ Separate rest
  | .placeholder _ :: rest =>
    (rest = [] ∨ ∃ s more, rest = .text (' ' :: s) :: more) ∧ Separate rest

/-- The translation writes a mark for each placeholder, and changes nothing else. -/
theorem translate_fragments {fragments : List Fragment} (separate : Separate fragments) :
    pgPlaceholdersToCh (fragments.flatMap (Fragment.written ('$' :: Text.showNat ·))) =
      fragments.flatMap (Fragment.written fun _ => ['?']) := by
  rw [pgPlaceholdersToCh]
  induction fragments with
  | nil => rfl
  | cons fragment rest inductionHypothesis =>
    rw [List.flatMap_cons, List.flatMap_cons]
    cases fragment with
    | text s =>
      have copied : s.flatMap Text.pushBytes = s := by
        have each : ∀ c ∈ s, Text.pushBytes c = [c] := fun c mem =>
          Text.pushBytes_ascii (separate.1 c mem).1
        rw [List.flatMap_congr each, List.flatMap_singleton']
      rw [Fragment.written, translate_append fun c mem => (separate.1 c mem).2.1, copied,
        inductionHypothesis separate.2]
      rfl
    | placeholder n =>
      generalize shown : rest.flatMap (Fragment.written ('$' :: Text.showNat ·)) = behind
      have stops : behind.head?.any Text.isAsciiDigit = false ∧ castLength behind = 0 := by
        obtain rfl | ⟨s, more, rfl⟩ := separate.1
        · rw [← shown]
          exact ⟨rfl, rfl⟩
        · rw [← shown]
          exact ⟨rfl, rfl⟩
      have length := length_written n (.text []) stops.1
      rw [show pgCast (.text []) = [] from rfl, List.nil_append, stops.2, Nat.add_zero] at length
      rw [Fragment.written, List.cons_append, translate_dollar, length]
      simp only [List.drop_left]
      rw [← shown, inductionHypothesis separate.2]
      rfl

/-- The marks are those of the placeholders. -/
theorem marks_fragments {fragments : List Fragment} (separate : Separate fragments) :
    marks (fragments.flatMap (Fragment.written fun _ => ['?'])) =
      (fragments.filterMap Fragment.number?).length := by
  induction fragments with
  | nil => rfl
  | cons fragment rest inductionHypothesis =>
    rw [List.flatMap_cons, marks, List.count_append]
    cases fragment with
    | text s =>
      have none' : s.count '?' = 0 :=
        List.count_eq_zero.mpr fun mem => (separate.1 '?' mem).2.2 rfl
      rw [Fragment.written, none', Nat.zero_add]
      exact inductionHypothesis separate.2
    | placeholder n =>
      rw [Fragment.written, List.filterMap_cons, Nat.add_comm]
      exact congrArg (· + 1) (inductionHypothesis separate.2)

/-- A normalised name is copied. -/
theorem plain_of_normIdent {unicode : Unicode} {s name : Str}
    (found : normIdent unicode s = some name) :
    ∀ c ∈ name, Text.isAscii c = true ∧ c ≠ '$' ∧ c ≠ '?' := by
  rw [normIdent] at found
  split_ifs at found with checked
  obtain rfl := Option.some.inj found
  simp only [Bool.and_eq_true, List.all_eq_true] at checked
  intro c mem
  have letter := checked.2 c mem
  refine ⟨(isIdentChar_plain letter).1, ?_, ?_⟩
  · rintro rfl
    exact absurd letter (by decide)
  · rintro rfl
    exact absurd letter (by decide)

/-- The statements of exports are copied up to their placeholders. -/
theorem separate_select {schemaN tableN : Str}
    (schemaPlain : ∀ c ∈ schemaN, Text.isAscii c = true ∧ c ≠ '$' ∧ c ≠ '?')
    (tablePlain : ∀ c ∈ tableN, Text.isAscii c = true ∧ c ≠ '$' ∧ c ≠ '?')
    (status : Option Str) (after : Option DateTime) :
    Separate (Select.fragments ⟨schemaN, tableN, conditionsOf status after⟩) := by
  have fixed {s : Str} (checked : s.all (fun c => Text.isAscii c && c != '$' && c != '?') = true) :
      ∀ c ∈ s, Text.isAscii c = true ∧ c ≠ '$' ∧ c ≠ '?' := by
    intro c mem
    simpa [and_assoc] using List.all_eq_true.mp checked c mem
  refine ⟨?_, ?_⟩
  · intro c mem
    simp only [List.mem_append] at mem
    obtain (((start | schema) | dot) | table) | stop := mem
    · exact fixed (by decide) c start
    · exact schemaPlain c schema
    · exact fixed (by decide) c dot
    · exact tablePlain c table
    · exact fixed (by decide) c stop
  · have bounds : Separate [.text " LIMIT ".str, .placeholder 1, .text " OFFSET ".str,
        .placeholder 2] :=
      ⟨fixed (by decide), Or.inr ⟨_, _, rfl⟩, fixed (by decide), Or.inl rfl, trivial⟩
    have order : Separate (.text " ORDER BY created_at, msg_id".str :: [.text " LIMIT ".str,
        .placeholder 1, .text " OFFSET ".str, .placeholder 2]) := ⟨fixed (by decide), bounds⟩
    cases status with
    | none =>
      cases after with
      | none => exact bounds
      | some t =>
        exact ⟨fixed (by decide), fixed (by decide), Or.inr ⟨_, _, rfl⟩, order⟩
    | some s =>
      cases after with
      | none => exact ⟨fixed (by decide), fixed (by decide), Or.inr ⟨_, _, rfl⟩, order⟩
      | some t =>
        exact ⟨fixed (by decide), fixed (by decide), Or.inr ⟨_, _, rfl⟩, fixed (by decide),
          fixed (by decide), Or.inr ⟨_, _, rfl⟩, order⟩

/-- There is a placeholder for each condition, for the limit and for the offset. -/
theorem placeholders_length (schemaN tableN : Str) (status : Option Str)
    (after : Option DateTime) :
    (Select.placeholders ⟨schemaN, tableN, conditionsOf status after⟩).length =
      (conditionsOf status after).length + 2 := by
  cases status <;> cases after <;> rfl

theorem conditionsOf_eq_nil {status : Option Str} {after : Option DateTime} :
    conditionsOf status after = [] ↔ status = none ∧ after = none := by
  cases status <;> cases after <;> simp [conditionsOf]

/-! ## What a statement answers -/

section
variable [LinearOrder Key] {table : Table Row Key} {schemaN tableN : Str} {status : Option Str}
  {after : Option DateTime} {limit offset : Int}

theorem count_some {values : Nat → Option BindValue} {n : Nat} {i : Int}
    (given : values n = some (.int i)) (positive : 0 ≤ i) : count values n = some i.toNat := by
  simp only [count, given, if_pos positive]

/-- Conditions that have their values select the rows that are asked for. -/
theorem answer_eq {values : Nat → Option BindValue} {tests : List (Row → Bool)} {scan : List Row}
    (first : values 1 = some (.int limit)) (second : values 2 = some (.int offset))
    (some' : 0 ≤ limit) (from' : 0 ≤ offset)
    (tested : (conditionsOf status after).mapM (table.test values) = some tests)
    (same : ∀ row, tests.all (· row) = table.wanted status after row)
    (sorts : table.sorts ⟨schemaN, tableN, conditionsOf status after⟩ = true) :
    table.answer ⟨schemaN, tableN, conditionsOf status after⟩ values scan =
      some (OffsetPages.page offset.toNat limit.toNat (table.arranged
        ⟨schemaN, tableN, conditionsOf status after⟩
        (scan.filter (table.wanted status after)))) := by
  have wanted : (fun row => tests.all (· row)) = table.wanted status after := funext same
  simp only [Table.answer, tested, sorts, count_some first some', count_some second from',
    guard_true, Option.pure_def, Option.bind_eq_bind, Option.bind_some, wanted]

/-- With the columns they need the parameters of an export select the rows asked for. -/
theorem answer_numbered (some' : 0 ≤ limit) (from' : 0 ≤ offset) (scan : List Row)
    (usable : table.Usable status after) :
    table.answer ⟨schemaN, tableN, conditionsOf status after⟩
        (numbered ([.int limit, .int offset] ++ status.toList.map .text ++
          after.toList.map .ts)) scan =
      some (OffsetPages.page offset.toNat limit.toNat (table.arranged
        ⟨schemaN, tableN, conditionsOf status after⟩
        (scan.filter (table.wanted status after)))) := by
  obtain ⟨rfl, rfl⟩ | ⟨created, message, state⟩ := usable
  · exact answer_eq rfl rfl some' from' rfl (fun row => rfl) rfl
  · have sorts : ∀ select : Select, table.sorts select = true := fun select => by
      simp [Table.sorts, created, message]
    cases status with
    | none =>
      cases after with
      | none => exact answer_eq rfl rfl some' from' rfl (fun row => rfl) (sorts _)
      | some t =>
        have tested : (conditionsOf none (some t)).mapM (table.test (numbered
            [.int limit, .int offset, .ts t])) = some [(table.createdAfter · t)] := by
          simp [conditionsOf, Table.test, numbered, created]
        refine answer_eq rfl rfl some' from' tested (fun row => ?_) (sorts _)
        simp [Table.wanted]
    | some s =>
      cases after with
      | none =>
        have tested : (conditionsOf (some s) none).mapM (table.test (numbered
            [.int limit, .int offset, .text s])) = some [(table.statusIs · s)] := by
          simp [conditionsOf, Table.test, numbered, state rfl]
        refine answer_eq rfl rfl some' from' tested (fun row => ?_) (sorts _)
        simp [Table.wanted]
      | some t =>
        have tested : (conditionsOf (some s) (some t)).mapM (table.test (numbered
            [.int limit, .int offset, .text s, .ts t])) =
            some [(table.statusIs · s), (table.createdAfter · t)] := by
          simp [conditionsOf, Table.test, numbered, created, state rfl]
        refine answer_eq rfl rfl some' from' tested (fun row => ?_) (sorts _)
        simp [Table.wanted]

/-- Without the columns it needs a statement answers nothing. -/
theorem answer_none {values : Nat → Option BindValue} (scan : List Row)
    (unusable : ¬ table.Usable status after) :
    table.answer ⟨schemaN, tableN, conditionsOf status after⟩ values scan = none := by
  rw [Table.Usable, not_or] at unusable
  have filtered : conditionsOf status after ≠ [] :=
    fun empty => unusable.1 (conditionsOf_eq_nil.mp empty)
  by_cases sorts : table.sorts ⟨schemaN, tableN, conditionsOf status after⟩ = true
  · have columns : table.has "created_at".str = true ∧ table.has "msg_id".str = true := by
      simpa [Table.sorts, Select.ordered, filtered] using sorts
    obtain ⟨needs, missing⟩ : status.isSome = true ∧ table.has "status".str ≠ true := by
      by_contra both
      exact unusable.2 ⟨columns.1, columns.2, fun needs => by
        by_contra missing
        exact both ⟨needs, missing⟩⟩
    obtain ⟨s, rfl⟩ := Option.isSome_iff_exists.mp needs
    have fails : (conditionsOf (some s) after).mapM (table.test values) = none := by
      cases after <;> simp [conditionsOf, Table.test, missing]
    rw [Table.answer, fails]
    rfl
  · rw [Table.answer, Bool.eq_false_iff.mpr sorts]
    cases (conditionsOf status after).mapM (table.test values) <;> rfl

end

/-! ## What a request answers -/

/-- The backend can run the statement of a request. -/
def Runs (kind : BackendKind) (table : Table Row Key) (status : Option Str)
    (after : Option DateTime) : Prop :=
  (kind = .clickHouse → status = none ∧ after = none) ∧ table.Usable status after

namespace Admitted

variable {site : Site Row Key} (admitted : Admitted site)

/-- The query that is sent for a request. -/
def query (q : ExportQuery) : BoundQuery := site.boundQuery admitted.schemaN admitted.tableN q

theorem separate (q : ExportQuery) : Separate (admitted.query q).select.fragments :=
  separate_select (plain_of_normIdent admitted.schema_norm) (plain_of_normIdent admitted.table_norm)
    _ _

/-- The statement that is sent has a mark for each condition, for the limit and the offset. -/
theorem marks_sent (q : ExportQuery) :
    marks (admitted.query q).sent = (admitted.query q).select.placeholders.length := by
  rw [BoundQuery.sent, Select.sql, translate_fragments (admitted.separate q),
    marks_fragments (admitted.separate q)]
  rfl

theorem limitOf_pos (q : ExportQuery) : 0 ≤ limitOf q := by
  rw [limitOf]
  omega

theorem offsetOf_nonneg (q : ExportQuery) : 0 ≤ offsetOf q := by
  rw [offsetOf]
  omega

variable [LinearOrder Key]

/-- The rows that a page is cut out of. -/
def listed (q : ExportQuery) (scan : List Row) : List Row :=
  admitted.stored.arranged (admitted.query q).select
    (scan.filter (admitted.stored.wanted q.status (q.after.bind site.parseAfter)))

theorem queryRows_ok {q : ExportQuery} (scan : List Row)
    (runs : Runs admitted.kind admitted.stored q.status (q.after.bind site.parseAfter)) :
    admitted.stored.queryRows admitted.kind (admitted.query q) scan =
      .ok (OffsetPages.page (offsetOf q).toNat (limitOf q).toNat (admitted.listed q scan)) := by
  cases kind : admitted.kind with
  | postgres =>
    have answered := @answer_numbered _ _ _ admitted.stored admitted.schemaN admitted.tableN
      q.status (q.after.bind site.parseAfter) _ _ (limitOf_pos q) (offsetOf_nonneg q) scan runs.2
    rw [Table.queryRows]
    simp only [query, Site.boundQuery, answered]
    rfl
  | clickHouse =>
    obtain ⟨noStatus, noAfter⟩ := runs.1 kind
    have two : marks (admitted.query q).sent = 2 := by
      rw [admitted.marks_sent, query, Site.boundQuery, placeholders_length,
        conditionsOf_eq_nil.mpr ⟨noStatus, noAfter⟩]
      rfl
    have answered := @answer_eq _ _ _ admitted.stored admitted.schemaN admitted.tableN none none
      (limitOf q) (offsetOf q) (inOrder [1, 2] [.int (limitOf q), .int (offsetOf q)]) [] scan
      rfl rfl (limitOf_pos q) (offsetOf_nonneg q) rfl (fun row => rfl) rfl
    rw [Table.queryRows, two]
    simp only [listed, query, Site.boundQuery, noStatus, noAfter, List.length_cons,
      List.length_nil, Nat.zero_add, if_true]
    rw [show Select.placeholders ⟨admitted.schemaN, admitted.tableN, conditionsOf none none⟩ =
      [1, 2] from rfl, answered]

theorem queryRows_error {q : ExportQuery} (scan : List Row)
    (stuck : ¬ Runs admitted.kind admitted.stored q.status (q.after.bind site.parseAfter)) :
    admitted.stored.queryRows admitted.kind (admitted.query q) scan =
      .error (.internal "query".str) := by
  by_cases usable : admitted.stored.Usable q.status (q.after.bind site.parseAfter)
  · obtain ⟨kind, filtered⟩ : admitted.kind = .clickHouse ∧
        conditionsOf q.status (q.after.bind site.parseAfter) ≠ [] := by
      by_contra both
      refine stuck ⟨fun kind => conditionsOf_eq_nil.mp ?_, usable⟩
      by_contra filtered
      exact both ⟨kind, filtered⟩
    have more : marks (admitted.query q).sent ≠ 2 := by
      rw [admitted.marks_sent, query, Site.boundQuery, placeholders_length]
      have some' := List.length_pos_iff.mpr filtered
      omega
    rw [kind, Table.queryRows]
    simp only [if_neg (show ¬ marks (admitted.query q).sent =
      (admitted.query q).binds.length from more)]
  · have nothing (values : Nat → Option BindValue) :
        admitted.stored.answer (admitted.query q).select values scan = none :=
      answer_none scan usable
    cases admitted.kind with
    | postgres => simp only [Table.queryRows, nothing]
    | clickHouse => simp only [Table.queryRows, nothing, ite_self]

/-- An admitted request answers with the rows of its query. -/
theorem asks_eq (q : ExportQuery) (scan : List Row) :
    admitted.asks q scan =
      (admitted.stored.queryRows admitted.kind (admitted.query q) scan).map
        fun rows => ⟨rows.map (site.line admitted.stored)⟩ := by
  simp only [asks, getExport, admitted.admin, admitted.schema_norm, admitted.table_norm]
  simp only [admitted.backend, bind, Except.bind]
  simp only [admitted.known]
  rfl

end Admitted

/-- The size of the pages. -/
def sizeOf (limit : Option Int) : Nat := (max 1 (min (stepOf limit) 100000)).toNat

/-- Where the pages begin. -/
def offsets (limit : Option Int) (k : Nat) : Nat := (max (k * stepOf limit) 0).toNat

/-! ## Orders that a request may find -/

section
variable [LinearOrder Key] {table : Table Row Key} {select : Select} {rows : List Row}

theorem arranged_of_perm (select : Select) {scan : List Row} (same : scan.Perm rows) :
    OffsetPages.Arranged (table.sortKey select.ordered) rows (table.arranged select scan) := by
  by_cases ordered : select.ordered = true
  · rw [Table.arranged, if_pos ordered, ordered]
    refine ⟨(List.perm_insertionSort _ scan).trans same, ?_⟩
    refine (List.pairwise_insertionSort (fun a b => table.place a ≤ table.place b) scan).imp ?_
    intro a b le
    exact WithBot.coe_le_coe.mpr le
  · rw [Table.arranged, if_neg ordered, Bool.eq_false_iff.mpr ordered]
    exact ⟨same, List.pairwise_of_forall fun a b => le_rfl⟩

theorem arranged_eq_self {arranged : List Row}
    (here : OffsetPages.Arranged (table.sortKey select.ordered) rows arranged) :
    table.arranged select arranged = arranged := by
  by_cases ordered : select.ordered = true
  · rw [Table.arranged, if_pos ordered]
    apply List.Pairwise.insertionSort_eq
    have sorted := here.sorted
    rw [ordered] at sorted
    exact sorted.imp fun le => WithBot.coe_le_coe.mp le
  · rw [Table.arranged, if_neg ordered]

end

namespace Admitted

variable {site : Site Row Key} (admitted : Admitted site) [LinearOrder Key]

/-- The rows that match a request. -/
def matching (q : ExportQuery) : List Row :=
  admitted.stored.rows.filter (admitted.stored.wanted q.status (q.after.bind site.parseAfter))

theorem listed_arranged (q : ExportQuery) {scan : List Row}
    (same : scan.Perm admitted.stored.rows) :
    OffsetPages.Arranged (admitted.stored.sortKey (admitted.query q).select.ordered)
      (admitted.matching q) (admitted.listed q scan) :=
  arranged_of_perm _ (same.filter _)

/-- Every arrangement of the matching rows is found by some request. -/
theorem exists_scan (q : ExportQuery) {arranged : List Row}
    (here : OffsetPages.Arranged (admitted.stored.sortKey (admitted.query q).select.ordered)
      (admitted.matching q) arranged) :
    ∃ scan, scan.Perm admitted.stored.rows ∧ admitted.listed q scan = arranged := by
  let wanted := admitted.stored.wanted q.status (q.after.bind site.parseAfter)
  refine ⟨arranged ++ admitted.stored.rows.filter (fun row => !wanted row), ?_, ?_⟩
  · exact (here.perm.append_right _).trans (List.filter_append_perm wanted _)
  · have all : arranged.filter wanted = arranged := List.filter_eq_self.mpr fun row mem =>
      (List.mem_filter.mp (here.perm.mem_iff.mp mem)).2
    have none' : (admitted.stored.rows.filter fun row => !wanted row).filter wanted = [] :=
      List.filter_eq_nil_iff.mpr fun row mem yes => by
        simp [yes] at mem
    rw [listed, List.filter_append, all, none', List.append_nil, arranged_eq_self here]

/-- The pages of a statement that runs. -/
theorem mapM_asks {limit : Option Int} {status after : Option Str}
    (runs : Runs admitted.kind admitted.stored status (after.bind site.parseAfter))
    (scan : Nat → List Row) (indices : List Nat) :
    indices.mapM (fun k => admitted.asks (pageQuery limit status after k) (scan k)) =
      .ok (indices.map fun k => ⟨(OffsetPages.page (offsets limit k) (sizeOf limit)
        (admitted.listed (pageQuery limit status after k) (scan k))).map
          (site.line admitted.stored)⟩) := by
  have each (k : Nat) : admitted.asks (pageQuery limit status after k) (scan k) =
      pure ⟨(OffsetPages.page (offsets limit k) (sizeOf limit)
        (admitted.listed (pageQuery limit status after k) (scan k))).map
          (site.line admitted.stored)⟩ := by
    rw [asks_eq, admitted.queryRows_ok _ runs]
    rfl
  simp only [each, List.mapM_pure]
  rfl

/-- The pages are those of the rows that match, as far as the backend runs the statement. -/
theorem collects_iff {limit : Option Int} {status after : Option Str} :
    Collects admitted limit status after ↔
      Runs admitted.kind admitted.stored status (after.bind site.parseAfter) ∧
        OffsetPages.Whole (admitted.stored.sortKey
            (Select.ordered ⟨[], [], conditionsOf status (after.bind site.parseAfter)⟩))
          (site.line admitted.stored) (offsets limit) (sizeOf limit)
          (admitted.stored.rows.filter
            (admitted.stored.wanted status (after.bind site.parseAfter))) := by
  constructor
  · rintro ⟨enough, collects⟩
    have runs : Runs admitted.kind admitted.stored status (after.bind site.parseAfter) := by
      by_contra stuck
      obtain ⟨pages, answered, -⟩ := collects (enough + 1) (Nat.le_succ enough)
        (fun _ => admitted.stored.rows) fun _ => List.Perm.refl _
      have error := admitted.asks_eq (pageQuery limit status after 0) admitted.stored.rows
      rw [admitted.queryRows_error _ stuck] at error
      rw [List.range_succ_eq_map, List.mapM_cons, error] at answered
      cases answered
    refine ⟨runs, enough, fun count le free found => ?_⟩
    have scans (k : Nat) := admitted.exists_scan (pageQuery limit status after k) (found k)
    choose scan same listed using scans
    obtain ⟨pages, answered, shown⟩ := collects count le scan same
    rw [admitted.mapM_asks runs] at answered
    obtain rfl := Except.ok.inj answered
    rw [List.flatMap_map] at shown
    simpa only [listed, OffsetPages.collected] using shown
  · rintro ⟨runs, enough, whole⟩
    refine ⟨enough, fun count le scan same => ⟨_, admitted.mapM_asks runs _ _, ?_⟩⟩
    rw [List.flatMap_map]
    exact whole count le (fun k => admitted.listed (pageQuery limit status after k) (scan k))
      fun k => admitted.listed_arranged (pageQuery limit status after k) (same k)

end Admitted

/-! ## Limits -/

section
variable [LinearOrder Key] {key : Row → WithBot Key} {line : Row → Bytes} {rows : List Row}

/-- The pages are whole for the limits, rows and lines of the condition. -/
theorem whole_iff_pageable (limit : Option Int) :
    OffsetPages.Whole key line (offsets limit) (sizeOf limit) rows ↔
      Pageable limit key line rows := by
  rw [Pageable]
  by_cases empty : rows = []
  · rw [empty]
    exact iff_of_true (OffsetPages.whole_nil _) (Or.inl rfl)
  · rw [or_iff_right empty]
    obtain low | high := le_or_gt (stepOf limit) 0
    · refine iff_of_false (OffsetPages.not_whole_of_stuck ?_ ?_ empty) (by omega)
      · intro k
        have negative := Int.mul_nonpos_of_nonneg_of_nonpos (Int.natCast_nonneg k) low
        rw [offsets]
        omega
      · rw [sizeOf]
        omega
    · obtain ⟨step, given⟩ := Int.eq_ofNat_of_zero_le high.le
      have begins : offsets limit = (· * step) := by
        funext k
        have product : (k : Int) * stepOf limit = ((k * step : Nat) : Int) := by
          rw [given, Int.natCast_mul]
        rw [offsets, product]
        omega
      have size : sizeOf limit = min step 100000 := by
        rw [sizeOf, given]
        omega
      have bounded : (min (stepOf limit) 100000).toNat = min step 100000 := by
        rw [given]
        omega
      rw [begins, size, bounded, given]
      obtain within | beyond := Nat.lt_or_ge 100000 step
      · obtain few | many := Nat.lt_or_ge 100000 rows.length
        · rw [Nat.min_eq_right within.le]
          refine iff_of_false (OffsetPages.not_whole_of_gap within few) ?_
          omega
        · rw [Nat.min_eq_right within.le]
          refine iff_of_true (OffsetPages.whole_of_fits (Nat.zero_mul step) (fun k => ?_) many)
            ⟨by omega, Or.inr many, fun x _ y _ _ straddled => ?_⟩
          · have grows : step ≤ (k + 1) * step := Nat.le_mul_of_pos_left step (Nat.succ_pos k)
            omega
          · exact absurd straddled (OffsetPages.not_straddled_of_fits many _)
      · rw [Nat.min_eq_left beyond, OffsetPages.whole_iff (by omega)]
        refine ⟨fun alike => ⟨by omega, Or.inl (by omega), alike⟩, fun all => all.2.2⟩

end

/-! ## The promise -/

namespace Admitted

variable {site : Site Row Key} (admitted : Admitted site)

/-- Two binds are all the values of a statement without conditions, and of no other. -/
theorem wellBound_iff (q : ExportQuery) : (admitted.query q).WellBound ↔
    conditionsOf q.status (q.after.bind site.parseAfter) = [] := by
  constructor
  · intro well
    by_contra filtered
    have some' := List.length_pos_iff.mpr filtered
    have length := placeholders_length admitted.schemaN admitted.tableN q.status
      (q.after.bind site.parseAfter)
    have third : 2 < (admitted.query q).select.placeholders.length := by
      rw [query, Site.boundQuery, length]
      omega
    obtain ⟨value, given, -⟩ := well.bound 2 _ (List.getElem?_eq_getElem third)
    cases given
  · intro plain
    refine ⟨admitted.marks_sent q, fun k n there => ?_⟩
    have two : (admitted.query q).select.placeholders = [1, 2] := by
      rw [query, Site.boundQuery, plain]
      rfl
    rw [two] at there
    match k with
    | 0 =>
      obtain rfl := Option.some.inj there
      exact ⟨.int (limitOf q), rfl, rfl⟩
    | 1 =>
      obtain rfl := Option.some.inj there
      exact ⟨.int (offsetOf q), rfl, rfl⟩
    | k + 2 => cases there

variable [LinearOrder Key]

/-- No admitted request is the caller's mistake. -/
theorem asks_not_refused (q : ExportQuery) (scan : List Row) {error : ApiError}
    (refused : admitted.asks q scan = .error error) : error.status = 500 := by
  rw [asks_eq] at refused
  by_cases runs : Runs admitted.kind admitted.stored q.status (q.after.bind site.parseAfter)
  · rw [admitted.queryRows_ok scan runs] at refused
    cases refused
  · rw [admitted.queryRows_error scan runs] at refused
    obtain rfl := Except.error.inj refused
    rfl

end Admitted

/-- The promise is kept exactly under the condition. -/
theorem promised_iff [LinearOrder Key] (site : Site Row Key) (admitted : Admitted site)
    (limit : Option Int) (status after : Option Str) :
    Promise site admitted limit status after ↔ Exportable site admitted limit status after := by
  have ordered : Select.ordered ⟨[], [], conditionsOf status (after.bind site.parseAfter)⟩ =
      (status.isSome || (after.bind site.parseAfter).isSome) := by
    cases status <;> cases after.bind site.parseAfter <;> rfl
  have conditions := @conditionsOf_eq_nil status (after.bind site.parseAfter)
  constructor
  · intro promise
    have readable : ∀ s, after = some s → (site.parseAfter s).isSome = true := by
      intro s given
      rw [Option.isSome_iff_ne_none]
      intro unread
      obtain ⟨error, refused, low⟩ := promise.refused s given unread 0 admitted.stored.rows
        (List.Perm.refl _)
      have high := admitted.asks_not_refused _ _ refused
      omega
    obtain ⟨runs, whole⟩ := admitted.collects_iff.mp (promise.whole readable)
    rw [ordered, whole_iff_pageable] at whole
    refine ⟨readable, fun kind => ?_, runs.2, whole⟩
    obtain ⟨noStatus, noTime⟩ := runs.1 kind
    refine ⟨noStatus, ?_⟩
    cases after with
    | none => rfl
    | some s =>
      rw [Option.bind_some] at noTime
      have read := readable s rfl
      rw [noTime] at read
      cases read
  · intro exportable
    have times (kind : admitted.kind = .clickHouse) :
        status = none ∧ after.bind site.parseAfter = none := by
      obtain ⟨noStatus, rfl⟩ := exportable.plain kind
      exact ⟨noStatus, rfl⟩
    constructor
    · intro s given unread
      have read := exportable.readable s given
      rw [unread] at read
      cases read
    · intro readable
      rw [admitted.collects_iff, ordered, whole_iff_pageable]
      exact ⟨⟨times, exportable.usable⟩, exportable.pageable⟩
    · intro kind k
      exact (admitted.wellBound_iff _).mpr (conditions.mpr (times kind))

/-- A table with the rows 0 and 1, with all the columns, on one of the engines. -/
def twoRows (kind : BackendKind) : Site Nat Nat where
  crates := Crates.plain
  parseDateTime := fun _ => none
  backendOf := fun _ _ => .ok kind
  known := fun _ _ _ => .ok true
  table := fun _ _ _ =>
    { has := fun _ => true
      rows := [0, 1]
      statusIs := fun _ _ => true
      createdAfter := fun _ _ => true
      place := id
      object := fun row => [("n".str, .ofNat row)] }

def localKey (kind : BackendKind) : Admitted (twoRows kind) where
  identity := { sub := "key".str, role := "local".str }
  schema := "obs".str
  table := "events".str
  schemaN := "obs".str
  tableN := "events".str
  kind := kind
  admin := rfl
  schema_norm := show normIdent Unicode.ascii "obs".str = some "obs".str by decide +kernel
  table_norm := show normIdent Unicode.ascii "events".str = some "events".str by decide +kernel
  backend := rfl
  known := rfl

/-- Pages of one row may both be the same row; a time that cannot be read exports everything;
and on ClickHouse a status is compared to the limit. -/
theorem exports_astray :
    ¬ Promise (twoRows .postgres) (localKey .postgres) (some 1) none none ∧
    ¬ Promise (twoRows .postgres) (localKey .postgres) none none (some "yesterday".str) ∧
    ¬ Promise (twoRows .clickHouse) (localKey .clickHouse) none (some "pending".str) none := by
  refine ⟨fun promise => ?_, fun promise => ?_, fun promise => ?_⟩
  · obtain ⟨-, whole⟩ := (localKey .postgres).collects_iff.mp (promise.whole nofun)
    obtain empty | ⟨-, -, alike⟩ := (whole_iff_pageable (some 1)).mp whole
    · exact absurd empty (by decide)
    · have same := alike 0 (by decide) 1 (by decide) rfl ⟨1, by decide, by decide⟩
      exact absurd same (by decide +kernel)
  · obtain ⟨error, refused, low⟩ := promise.refused "yesterday".str rfl rfl 0 [0, 1]
      (List.Perm.refl _)
    have high := (localKey .postgres).asks_not_refused _ _ refused
    omega
  · have plain := ((localKey .clickHouse).wellBound_iff _).mp (promise.bound rfl 0)
    cases plain

end LumidPlatform.Export
