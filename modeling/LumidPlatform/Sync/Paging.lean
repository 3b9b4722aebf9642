import LumidPlatform.Sync.Delivered

/-!
# The pages of a table

Where every page is delivered, the loop of `run_push` is only paging: a query, the cursor at
the last row of its page, the next query. Its pages are the rows after the cursor in the order
of watermark and place, each of them once; and the cursor survives its text exactly where the
watermark at the end of a page has a year of four digits.
-/

namespace LumidPlatform.Sync.Paging

open Delivered (cursorAt)

variable {producer : Producer} {surroundings : Surroundings} {source : SourceTable} {col : Str}
  {cursor : Cursor}

/-! ## The loop -/

/-- How the paging ends. -/
inductive Ending where
  | done
  | refused
  | panicked
  | unfinished
  deriving DecidableEq

/-- The pages of the loop over the pages, as long as every page is delivered. -/
def pagesFrom (producer : Producer) (source : SourceTable) (col : Str) :
    Nat → Cursor → List (List SourceRow) × Ending
  | 0, _ => ([], .unfinished)
  | fuel + 1, cursor =>
    if 2 ^ 63 ≤ producer.batchRows then ([], .refused)
    else
      let rows := queryPage producer source col cursor
      match rows.getLast? with
      | none => ([], .done)
      | some last =>
        match readWatermark producer source col last with
        | none => ([rows], .panicked)
        | some wm =>
          let (pages, ending) := pagesFrom producer source col fuel ⟨some wm, some last.ctid⟩
          (rows :: pages, ending)

/-- The pages that `run_push` reads. -/
def drainPages (producer : Producer) (surroundings : Surroundings) (source : SourceTable)
    (col : Str) : Nat → Nat → Progress → List (List SourceRow)
  | 0, _, _ => []
  | fuel + 1, page, p =>
    if !surroundings.reads page || decide (2 ^ 63 ≤ producer.batchRows) then []
    else
      let rows := queryPage producer source col p.cursor
      match rows.getLast? with
      | none => []
      | some last =>
        match readWatermark producer source col last with
        | none => [rows]
        | some wm =>
          if !allRead rows then [rows]
          else
            match groupRows producer [] rows with
            | .error _ => [rows]
            | .ok groups =>
              match sendGroups producer surroundings groups p with
              | (_, some _) => [rows]
              | (p, none) =>
                if surroundings.saves page then
                  rows :: drainPages producer surroundings source col fuel (page + 1)
                    (Progress.save { p with cursor := ⟨some wm, some last.ctid⟩ } producer.crates
                      "ok".str)
                else [rows]

/-- What `run_push` reads are the first pages of the loop, and all of them if it returns `ok`. -/
theorem drainPages_prefix (fuel page : Nat) (p : Progress) :
    drainPages producer surroundings source col fuel page p <+:
        (pagesFrom producer source col fuel p.cursor).1 ∧
      (Delivered.Outcome.isOk (drain producer surroundings source col fuel page p).2 = true →
        drainPages producer surroundings source col fuel page p =
          (pagesFrom producer source col fuel p.cursor).1 ∧
        (pagesFrom producer source col fuel p.cursor).2 = .done) := by
  induction fuel generalizing page p with
  | zero => simp [drainPages, drain, Delivered.Outcome.isOk]
  | succ fuel inductionHypothesis =>
    rw [drainPages, drain, pagesFrom]
    by_cases stops : (!surroundings.reads page || decide (2 ^ 63 ≤ producer.batchRows)) = true
    · rw [if_pos stops, if_pos stops]
      exact ⟨List.nil_prefix, fun impossible => by cases impossible⟩
    · rw [if_neg stops, if_neg stops]
      have small : ¬ 2 ^ 63 ≤ producer.batchRows := by
        simp only [Bool.or_eq_true, decide_eq_true_eq, not_or] at stops
        exact stops.2
      rw [if_neg small]
      dsimp only
      cases isLast : (queryPage producer source col p.cursor).getLast? with
      | none => exact ⟨List.nil_prefix, fun _ => ⟨rfl, rfl⟩⟩
      | some last =>
        dsimp only
        cases read : readWatermark producer source col last with
        | none => exact ⟨List.prefix_refl _, fun impossible => by cases impossible⟩
        | some wm =>
          dsimp only
          have one : [queryPage producer source col p.cursor] <+:
              queryPage producer source col p.cursor ::
                (pagesFrom producer source col fuel ⟨some wm, some last.ctid⟩).1 :=
            List.cons_prefix_cons.mpr ⟨rfl, List.nil_prefix⟩
          by_cases unread : (!allRead (queryPage producer source col p.cursor)) = true
          · rw [if_pos unread, if_pos unread]
            exact ⟨one, fun impossible => by cases impossible⟩
          rw [if_neg unread, if_neg unread]
          cases groupRows producer [] (queryPage producer source col p.cursor) with
          | error error => exact ⟨one, fun impossible => by cases impossible⟩
          | ok groups =>
            dsimp only
            generalize sendGroups producer surroundings groups p = result
            obtain ⟨p', stop⟩ := result
            cases stop with
            | some stop =>
              refine ⟨one, fun impossible => ?_⟩
              cases stop with
              | broken unbuilt => cases unbuilt <;> cases impossible
              | undelivered message =>
                dsimp only at impossible
                split at impossible
                · cases impossible
                · cases impossible
            | none =>
              dsimp only
              by_cases saved : surroundings.saves page = true
              · rw [if_pos saved, if_pos saved]
                obtain ⟨first, all⟩ := inductionHypothesis (page + 1) (Progress.save
                  { p' with cursor := ⟨some wm, some last.ctid⟩ } producer.crates "ok".str)
                refine ⟨List.cons_prefix_cons.mpr ⟨rfl, first⟩, fun ok => ?_⟩
                obtain ⟨same, done⟩ := all ok
                exact ⟨congrArg (_ :: ·) same, done⟩
              · rw [if_neg saved, if_neg saved]
                exact ⟨one, fun impossible => by cases impossible⟩

/-! ## The rows after a cursor -/

/-- A row lies strictly after a cursor. -/
def After (col : Str) (cursor : Cursor) (row : SourceRow) : Prop :=
  ∀ wm, cursor.wm = some wm → ∃ micros key, row.stamps col = some micros ∧ cursor.key = some key ∧
    toLex (toMicros wm, toLex key) < toLex (micros, toLex row.ctid)

/-- The condition of the query is to lie strictly after the cursor. -/
theorem selects_iff (keyed : cursor.wm = none ∨ cursor.key.isSome) {row : SourceRow}
    (stamped : (row.stamps col).isSome) : selects cursor col row = true ↔ After col cursor row := by
  obtain ⟨wm, key⟩ := cursor
  obtain ⟨micros, stamp⟩ := Option.isSome_iff_exists.mp stamped
  cases wm with
  | none => simp [selects, After]
  | some wm =>
    obtain ⟨key, rfl⟩ := Option.isSome_iff_exists.mp (keyed.resolve_left (by simp))
    simp only [selects, stamp, Option.any_some, Bool.or_eq_true, decide_eq_true_eq,
      Bool.and_eq_true, beq_iff_eq, Delivered.tidLt_iff, After, Option.some.injEq,
      Prod.Lex.toLex_lt_toLex]
    constructor
    · rintro either _ rfl
      exact ⟨micros, key, rfl, rfl, either.imp_right (fun both => ⟨both.1.symm, both.2⟩)⟩
    · intro later
      obtain ⟨_, _, rfl, rfl, either⟩ := later wm rfl
      exact either.imp_right (fun both => ⟨both.1.symm, both.2⟩)

/-- The rows the query selects, in its order. -/
def rowsAfter (source : SourceTable) (col : Str) (cursor : Cursor) : List SourceRow :=
  Keyset.listing (place col) (source.rows.filter (selects cursor col))

theorem selected_nodup (cursor : Cursor) : (source.rows.filter (selects cursor col)).Nodup :=
  (List.Nodup.of_map _ source.unique).filter _

theorem selected_unique (cursor : Cursor) : ∀ a ∈ source.rows.filter (selects cursor col),
    ∀ b ∈ source.rows.filter (selects cursor col), place col a = place col b → a = b :=
  fun _ aIn _ bIn => Delivered.place_injective (List.mem_filter.mp aIn).1 (List.mem_filter.mp bIn).1

/-- After a page, the rows that are left are those behind it. -/
theorem rowsAfter_next {last : SourceRow} {micros : Int}
    (stamped : ∀ row ∈ source.rows, (row.stamps col).isSome)
    (isLast : (queryPage producer source col cursor).getLast? = some last)
    (stamp : last.stamps col = some micros) :
    rowsAfter source col (cursorAt micros last) =
      (rowsAfter source col cursor).drop producer.batchRows := by
  have selected := (List.mem_filter.mp (Keyset.mem_of_mem_page (List.mem_of_getLast? isLast))).2
  have fewer : source.rows.filter (selects (cursorAt micros last) col) =
      (source.rows.filter (selects cursor col)).filter
        (fun row => place col last < place col row) := by
    rw [List.filter_filter]
    apply List.filter_congr
    intro row member
    obtain ⟨m, rowStamp⟩ := Option.isSome_iff_exists.mp (stamped row member)
    rw [Bool.eq_iff_iff, Bool.and_eq_true, decide_eq_true_eq,
      Delivered.selects_cursorAt stamp rowStamp]
    refine (and_iff_left_of_imp (fun later => ?_)).symm
    exact Delivered.selects_of_later stamp selected
      ((Delivered.selects_cursorAt stamp rowStamp).mpr later)
  rw [rowsAfter, fewer]
  exact Keyset.listing_after (selected_nodup cursor) (selected_unique cursor) isLast

/-! ## All pages -/

/-- A page is the beginning of the rows after the cursor. -/
theorem queryPage_eq_take : queryPage producer source col cursor =
    (rowsAfter source col cursor).take producer.batchRows :=
  Keyset.page_eq_take

/-- A page ends where the first one does, or in the rows behind it. -/
theorem pageEnd_first (room : 0 < producer.batchRows) (row : SourceRow) :
    Keyset.PageEnd producer.batchRows (rowsAfter source col cursor) row ↔
      (queryPage producer source col cursor).getLast? = some row ∨
        Keyset.PageEnd producer.batchRows
          ((rowsAfter source col cursor).drop producer.batchRows) row := by
  rw [queryPage_eq_take]
  exact Keyset.pageEnd_iff room

/-- An empty page comes only when no rows are left. -/
theorem rowsAfter_of_empty (room : 0 < producer.batchRows)
    (isLast : (queryPage producer source col cursor).getLast? = none) :
    rowsAfter source col cursor = [] := by
  rw [List.getLast?_eq_none_iff, queryPage_eq_take, List.take_eq_nil_iff] at isLast
  exact isLast.resolve_left (Nat.ne_of_gt room)

/-- After a page there are fewer rows left. -/
theorem length_drop_lt (room : 0 < producer.batchRows) {last : SourceRow}
    (isLast : (queryPage producer source col cursor).getLast? = some last) :
    ((rowsAfter source col cursor).drop producer.batchRows).length <
      (rowsAfter source col cursor).length := by
  have some_left : rowsAfter source col cursor ≠ [] := by
    intro empty
    rw [queryPage_eq_take, empty, List.take_nil] at isLast
    cases isLast
  have positive := List.length_pos_of_ne_nil some_left
  rw [List.length_drop]
  omega

/-- The loop lists the rows after the cursor and ends, if a watermark can be read wherever a
page ends; it comes to its end only then, and its pages end there. -/
theorem pagesFrom_spec (room : 0 < producer.batchRows) (small : producer.batchRows < 2 ^ 63)
    (stamped : ∀ row ∈ source.rows, (row.stamps col).isSome) (fuel : Nat) (cursor : Cursor)
    (enough : (rowsAfter source col cursor).length < fuel) :
    ((∀ row, Keyset.PageEnd producer.batchRows (rowsAfter source col cursor) row →
          (readWatermark producer source col row).isSome) →
        (pagesFrom producer source col fuel cursor).1.flatten = rowsAfter source col cursor ∧
          (pagesFrom producer source col fuel cursor).2 = .done) ∧
      ((pagesFrom producer source col fuel cursor).2 = .done → ∀ row,
        Keyset.PageEnd producer.batchRows (rowsAfter source col cursor) row →
          (readWatermark producer source col row).isSome ∧
          ∃ page ∈ (pagesFrom producer source col fuel cursor).1, page.getLast? = some row) ∧
      ∀ page ∈ (pagesFrom producer source col fuel cursor).1, ∀ row, page.getLast? = some row →
        Keyset.PageEnd producer.batchRows (rowsAfter source col cursor) row := by
  induction fuel generalizing cursor with
  | zero => omega
  | succ fuel inductionHypothesis =>
    rw [pagesFrom, if_neg (Nat.not_le.mpr small)]
    dsimp only
    cases isLast : (queryPage producer source col cursor).getLast? with
    | none =>
      rw [rowsAfter_of_empty room isLast]
      refine ⟨fun _ => ⟨rfl, rfl⟩, fun _ row pageEnd => ?_, fun page member => by cases member⟩
      obtain ⟨k, there, -⟩ := pageEnd
      cases there
    | some last =>
      have here : Keyset.PageEnd producer.batchRows (rowsAfter source col cursor) last :=
        (pageEnd_first room last).mpr (.inl isLast)
      dsimp only
      cases read : readWatermark producer source col last with
      | none =>
        refine ⟨fun readable => ?_, (fun impossible => by cases impossible), ?_⟩
        · have there := readable last here
          rw [read] at there
          cases there
        · intro page member row pageLast
          obtain rfl := List.mem_singleton.mp member
          exact (pageEnd_first room row).mpr (.inl (isLast.symm.trans pageLast ▸ isLast))
      | some wm =>
        obtain ⟨micros, stamp, rfl⟩ := Delivered.readWatermark_ok read
        have next := rowsAfter_next stamped isLast stamp
        have left : (rowsAfter source col (cursorAt micros last)).length < fuel := by
          have fewer := length_drop_lt room isLast
          rw [next]
          omega
        obtain ⟨listed, complete, sound⟩ := inductionHypothesis (cursorAt micros last) left
        rw [next] at listed complete sound
        dsimp only
        refine ⟨fun readable => ?_, fun done row pageEnd => ?_, fun page member row pageLast => ?_⟩
        · obtain ⟨whole, done⟩ :=
            listed (fun row pageEnd => readable row ((pageEnd_first room row).mpr (.inr pageEnd)))
          refine ⟨?_, done⟩
          calc (queryPage producer source col cursor ::
                (pagesFrom producer source col fuel (cursorAt micros last)).1).flatten
            _ = queryPage producer source col cursor ++
                (rowsAfter source col cursor).drop producer.batchRows := by
              rw [List.flatten_cons, whole]
            _ = rowsAfter source col cursor := by rw [queryPage_eq_take, List.take_append_drop]
        · rcases (pageEnd_first room row).mp pageEnd with now | later
          · obtain rfl : last = row := Option.some.inj (isLast.symm.trans now)
            exact ⟨by rw [read]; rfl, _, List.mem_cons_self, isLast⟩
          · obtain ⟨readable, page, member, pageLast⟩ := complete done row later
            exact ⟨readable, page, List.mem_cons_of_mem _ member, pageLast⟩
        · rcases List.mem_cons.mp member with rfl | later
          · exact (pageEnd_first room row).mpr (.inl pageLast)
          · exact (pageEnd_first room row).mpr (.inr (sound page later row pageLast))

/-- The years from 0 to 9999, in microseconds from the year 2000. -/
def InYears (micros : Int) : Prop := -63113904000000000 ≤ micros ∧ micros < 252455616000000000

/-- The pages of the loop are the rows after a cursor, in order and each once; the loop ends, and
the cursor after each page reads back from its text. -/
structure Exact (producer : Producer) (source : SourceTable) (col : Str) (cursor : Cursor) :
    Prop where
  listed : ∀ row, row ∈ (pagesFrom producer source col (source.rows.length + 1) cursor).1.flatten ↔
    row ∈ source.rows ∧ After col cursor row
  ordered : (pagesFrom producer source col (source.rows.length + 1) cursor).1.flatten.Pairwise
    (fun a b => place col a < place col b)
  ends : (pagesFrom producer source col (source.rows.length + 1) cursor).2 = .done
  saved : ∀ page ∈ (pagesFrom producer source col (source.rows.length + 1) cursor).1,
    ∀ last micros, page.getLast? = some last → last.stamps col = some micros →
      ∀ total result, loadCursor producer.crates
        (some ((cursorAt micros last).row producer.crates total result)) = .ok (cursorAt micros last)

/-- A saved cursor reads back exactly if the text of its watermark does. -/
theorem loadCursor_row {crates : Crates} {micros : Int} {last : SourceRow} {total : Nat}
    {result : Str} :
    loadCursor crates (some ((cursorAt micros last).row crates total result)) =
        .ok (cursorAt micros last) ↔
      crates.parseRfc3339 (crates.showRfc3339 (ofMicros micros)) = some (ofMicros micros) := by
  rw [loadCursor]
  dsimp only [Cursor.row, cursorAt]
  cases read : crates.parseRfc3339 (crates.showRfc3339 (ofMicros micros)) with
  | none => simp [read]
  | some instant => simp [read]

/-- The first instant after the years of four digits. -/
def afterYears : Int := 252455616000000000

instance : DecidablePred InYears := fun _ => instDecidableAnd

/-- An instant that some number stands for, in place of the texts of most instants. -/
def decodeInstant (s : Str) : Option DateTime :=
  (Text.parseDigits s).map (fun n =>
    ⟨Equiv.intEquivNat.symm (Nat.unpair n).1, (Nat.unpair n).2⟩)

theorem decodeInstant_plain (t : DateTime) :
    decodeInstant (Crates.plain.showRfc3339 t) = some t := by
  have digits : Crates.plain.showRfc3339 t =
      Text.showNat (Nat.pair (Equiv.intEquivNat t.seconds) t.nanos) := rfl
  rw [digits, decodeInstant, Text.parseDigits_showNat, Option.map_some, Nat.unpair_pair,
    Equiv.symm_apply_apply]

/-- No number has a plus sign or a hyphen in it. -/
theorem plain_ne {t : DateTime} {text : Str} (signed : ∃ c ∈ text, c.isDigit = false) :
    Crates.plain.showRfc3339 t ≠ text := by
  rintro rfl
  obtain ⟨c, member, sign⟩ := signed
  have digit := Text.isDigit_of_mem_showNat member
  rw [sign] at digit
  cases digit

/-- The text of the first instant of 2000, and of the first one after the years of four
digits, which does not read back. -/
def calendarCrates : Crates :=
  { Crates.plain with
    showRfc3339 := fun t =>
      if t = ofMicros 0 then "2000-01-01T00:00:00+00:00".str
      else if t = ofMicros afterYears then "+10000-01-01T00:00:00+00:00".str
      else Crates.plain.showRfc3339 t
    parseRfc3339 := fun s =>
      if s = "2000-01-01T00:00:00+00:00".str then some (ofMicros 0)
      else (decodeInstant s).filter (fun t => InYears (toMicros t))
    showRfc3339_injective := by
      have first (t : DateTime) :
          Crates.plain.showRfc3339 t ≠ "2000-01-01T00:00:00+00:00".str :=
        plain_ne ⟨'-', by decide, rfl⟩
      have later (t : DateTime) :
          Crates.plain.showRfc3339 t ≠ "+10000-01-01T00:00:00+00:00".str :=
        plain_ne ⟨'-', by decide, rfl⟩
      have apart : "2000-01-01T00:00:00+00:00".str ≠ "+10000-01-01T00:00:00+00:00".str := by decide
      intro t u same
      dsimp only at same
      split_ifs at same with t0 u0 u1 t1 u0 u1 u0 u1
      · exact t0.trans u0.symm
      · exact absurd same apart
      · exact absurd same.symm (first u)
      · exact absurd same.symm apart
      · exact t1.trans u1.symm
      · exact absurd same.symm (later u)
      · exact absurd same (first t)
      · exact absurd same (later t)
      · exact Crates.plain.showRfc3339_injective same }

theorem ofMicros_inj {a b : Int} : ofMicros a = ofMicros b ↔ a = b := by
  constructor
  · intro same
    rw [← toMicros_ofMicros a, same, toMicros_ofMicros]
  · exact congrArg ofMicros

/-- An instant reads back there if and only if its year has four digits. -/
theorem calendar_text (micros : Int) :
    calendarCrates.parseRfc3339 (calendarCrates.showRfc3339 (ofMicros micros)) =
      some (ofMicros micros) ↔ InYears micros := by
  have shows : calendarCrates.showRfc3339 (ofMicros micros) =
      if ofMicros micros = ofMicros 0 then "2000-01-01T00:00:00+00:00".str
      else if ofMicros micros = ofMicros afterYears then "+10000-01-01T00:00:00+00:00".str
      else Crates.plain.showRfc3339 (ofMicros micros) := rfl
  have parses (s : Str) : calendarCrates.parseRfc3339 s =
      if s = "2000-01-01T00:00:00+00:00".str then some (ofMicros 0)
      else (decodeInstant s).filter (fun t => InYears (toMicros t)) := rfl
  rw [shows, parses]
  by_cases zero : micros = 0
  · subst zero
    rw [if_pos rfl, if_pos rfl]
    exact iff_of_true rfl (by decide)
  · rw [if_neg (fun same => zero (ofMicros_inj.mp same))]
    by_cases late : micros = afterYears
    · subst late
      rw [if_pos rfl, if_neg (by decide)]
      have unread : decodeInstant "+10000-01-01T00:00:00+00:00".str = none := by decide
      rw [unread]
      exact iff_of_false (fun impossible => by cases impossible) (by decide)
    · rw [if_neg (fun same => late (ofMicros_inj.mp same)),
        if_neg (plain_ne ⟨'-', by decide, rfl⟩), decodeInstant_plain, Option.filter_some,
        toMicros_ofMicros]
      split_ifs with inYears
      · exact iff_of_true rfl (of_decide_eq_true inYears)
      · exact iff_of_false (fun impossible => by cases impossible)
          (fun years => inYears (decide_eq_true years))

/-- A producer on these texts. -/
def calendar : Producer := { Delivered.divs with crates := calendarCrates }

/-- A table of one row. -/
def oneRow (micros : Int) : SourceTable where
  types _ := some "timestamp with time zone".str
  rows := [Delivered.rowAt 1 (some micros)]
  unique := List.nodup_singleton _

theorem tied_places_nodup : [((0, 3) : Tid), (0, 1), (0, 2)].Nodup := by decide

/-- Three rows of one instant, which only their places tell apart. -/
def tiedRows : SourceTable where
  types _ := some "timestamp with time zone".str
  rows := [Delivered.rowAt 3 (some 0), Delivered.rowAt 1 (some 0), Delivered.rowAt 2 (some 0)]
  unique := tied_places_nodup

/-- Two of them are a page, which ends amid the instant. -/
def pairwise : Producer := { calendar with batchRows := 2 }

end LumidPlatform.Sync.Paging
