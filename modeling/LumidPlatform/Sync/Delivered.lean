import LumidPlatform.Lib.Transitions
import LumidPlatform.Sync.Push

/-!
# What a push has delivered

The cursor of a table stands for the rows that a target has accepted: all rows up to it, and
after a run that returned `ok` all rows of the table. A run advances the cursor over every
page the target acknowledged, and it never reads rows without watermark once the cursor is
set. So the cursor means what it should in the runs in which an acknowledgement is for
whole batches, and in which no such rows stay behind.
-/

namespace LumidPlatform.Sync.Delivered

open Transitions

variable {crates : Crates} {producer : Producer} {surroundings : Surroundings}
  {source : SourceTable} {col : Str} {p : Progress}

/-! ## Rows and cursors -/

/-- A row lies at or before a cursor. -/
def before (cursor : Cursor) (col : Str) (row : SourceRow) : Bool :=
  cursor.wm.isSome && (row.stamps col).isSome && !selects cursor col row

/-- No row comes before a cursor that was never set. -/
theorem before_unset (key : Option Tid) (row : SourceRow) : before ⟨none, key⟩ col row = false := rfl

/-- Tuple ids are ordered by block, and then by their place in it. -/
theorem tidLt_iff {a b : Tid} : tidLt a b = true ↔ toLex a < toLex b := by
  rw [tidLt, Prod.Lex.toLex_lt_toLex]
  simp

/-- The cursor at a row with a watermark. -/
def cursorAt (micros : Int) (row : SourceRow) : Cursor := ⟨some (ofMicros micros), some row.ctid⟩

/-- The page query selects, of the rows with a watermark, those after the cursor's row. -/
theorem selects_cursorAt {last row : SourceRow} {w m : Int} (lastStamp : last.stamps col = some w)
    (stamp : row.stamps col = some m) :
    selects (cursorAt w last) col row = true ↔ place col last < place col row := by
  simp only [selects, cursorAt, stamp, toMicros_ofMicros, Option.any_some, Bool.or_eq_true,
    decide_eq_true_eq, Bool.and_eq_true, beq_iff_eq, tidLt_iff, place, lastStamp,
    Prod.Lex.toLex_lt_toLex, lt_irrefl, false_or, true_and]
  constructor
  · rintro (less | ⟨rfl, less⟩)
    · exact Or.inl less
    · exact Or.inr ⟨rfl, less⟩
  · rintro (less | ⟨rfl, less⟩)
    · exact Or.inl less
    · exact Or.inr ⟨rfl, less⟩

/-- A row without watermark is never selected again. -/
theorem selects_null {row : SourceRow} {cursor : Cursor} (set : cursor.wm ≠ none)
    (null : row.stamps col = none) : selects cursor col row = false := by
  obtain ⟨wm, key⟩ := cursor
  cases wm with
  | none => exact absurd rfl set
  | some wm => simp [selects, null]

/-- A cursor that was never set selects every row. -/
theorem selects_unset (key : Option Tid) (row : SourceRow) : selects ⟨none, key⟩ col row = true := by
  simp [selects]

/-- Rows of a table have different places. -/
theorem place_injective {a b : SourceRow} (aIn : a ∈ source.rows) (bIn : b ∈ source.rows)
    (same : place col a = place col b) : a = b := by
  have ctids : a.ctid = b.ctid := by
    cases aStamp : a.stamps col <;> cases bStamp : b.stamps col <;>
      simp [place, aStamp, bStamp] at same
    · exact same
    · exact same.2
  exact List.inj_on_of_nodup_map source.unique aIn bIn ctids

/-! ## Delivering a group -/

/-- An acknowledgement is for the whole batch. -/
def honest (attempt : Attempt) : Bool :=
  match attempt.reply with
  | .acked _ => attempt.uptake == .allBut []
  | _ => true

/-- An acceptance of everything takes every version of a group. -/
theorem versions_all (group : List SourceRow) :
    (Uptake.allBut []).versions group = group.map SourceRow.version := by
  have all : group.zipIdx.filter (fun entry => (Uptake.allBut []).takes entry.2) = group.zipIdx :=
    List.filter_eq_self.mpr (fun _ _ => rfl)
  calc (Uptake.allBut []).versions group
      = group.zipIdx.map (SourceRow.version ∘ Prod.fst) := by rw [Uptake.versions, all]; rfl
    _ = (group.zipIdx.map Prod.fst).map SourceRow.version := (List.map_map ..).symm
    _ = group.map SourceRow.version := by rw [List.zipIdx_map_fst]

/-- A batch that is acknowledged is not sent again. -/
theorem postWithRetry_acked {left : Nat} {attempt : Attempt} {later : List Attempt} {body : Json}
    (acked : attempt.reply = .acked body) : postWithRetry left (attempt :: later) =
      (.ok (failedOf body), [attempt.uptake], later) := by
  rw [postWithRetry.eq_def]
  dsimp only
  rw [acked]

/-- A failure without attempts left is the outcome. -/
theorem postWithRetry_last {attempt : Attempt} {later : List Attempt} {text : Str}
    (failed : attempt.reply.failure = some text) :
    postWithRetry 0 (attempt :: later) = (.error text, [attempt.uptake], later) := by
  rw [postWithRetry.eq_def]
  dsimp only
  split
  · rename_i body acked
    simp [acked, Reply.failure] at failed
  · rw [failed]
    rfl

/-- With attempts left the batch is sent again. -/
theorem postWithRetry_again {left : Nat} {attempt : Attempt} {later : List Attempt} {text : Str}
    (failed : attempt.reply.failure = some text) : postWithRetry (left + 1) (attempt :: later) =
      ((postWithRetry left later).1, attempt.uptake :: (postWithRetry left later).2.1,
        (postWithRetry left later).2.2) := by
  rw [postWithRetry.eq_def]
  dsimp only
  split
  · rename_i body acked
    simp [acked, Reply.failure] at failed
  · rfl

/-- A reply that is no failure is an acknowledgement. -/
theorem acked_of_failure {reply : Reply} (none_failed : reply.failure = none) :
    ∃ body, reply = .acked body := by
  cases reply with
  | acked body => exact ⟨body, rfl⟩
  | refused code text => cases none_failed
  | unreachable text => cases none_failed

/-- A batch that is acknowledged by an honest target is taken whole. -/
theorem postWithRetry_ok {left : Nat} {attempts : List Attempt} {failed : Int}
    (allHonest : ∀ attempt ∈ attempts, honest attempt = true)
    (posted : (postWithRetry left attempts).1 = .ok failed) :
    Uptake.allBut [] ∈ (postWithRetry left attempts).2.1 := by
  induction attempts generalizing left with
  | nil => simp [postWithRetry] at posted
  | cons attempt later inductionHypothesis =>
    have first := allHonest attempt List.mem_cons_self
    have others := fun other member => allHonest other (List.mem_cons_of_mem attempt member)
    cases failure : attempt.reply.failure with
    | none =>
      obtain ⟨body, acked⟩ := acked_of_failure failure
      rw [honest, acked, beq_iff_eq] at first
      rw [postWithRetry_acked acked, first]
      exact List.mem_singleton_self _
    | some text =>
      cases left with
      | zero => simp [postWithRetry_last failure] at posted
      | succ left =>
        rw [postWithRetry_again failure] at posted ⊢
        exact List.mem_cons_of_mem _ (inductionHypothesis others posted)

/-- Sending uses up attempts from the front. -/
theorem postWithRetry_rest (left : Nat) (attempts : List Attempt) :
    (postWithRetry left attempts).2.2 <:+ attempts := by
  induction attempts generalizing left with
  | nil => simp [postWithRetry]
  | cons attempt later inductionHypothesis =>
    cases failure : attempt.reply.failure with
    | none =>
      obtain ⟨body, acked⟩ := acked_of_failure failure
      rw [postWithRetry_acked acked]
      exact List.suffix_cons _ _
    | some text =>
      cases left with
      | zero =>
        rw [postWithRetry_last failure]
        exact List.suffix_cons _ _
      | succ left =>
        rw [postWithRetry_again failure]
        exact (inductionHypothesis left).trans (List.suffix_cons _ _)

/-! ## Delivering a page -/

/-- Every row pushed into groups is in one of them, and nothing is lost. -/
theorem push_keeps (run : Str) (row : SourceRow) (groups : Groups) :
    (∃ g ∈ groups.push run row, row ∈ g.2) ∧
      ∀ g ∈ groups, ∃ g' ∈ groups.push run row, ∀ other ∈ g.2, other ∈ g'.2 := by
  induction groups with
  | nil => exact ⟨⟨(run, [row]), by simp [Groups.push]⟩, by simp⟩
  | cons head rest inductionHypothesis =>
    obtain ⟨name, rows⟩ := head
    rw [Groups.push]
    split_ifs
    · refine ⟨⟨(name, rows ++ [row]), by simp⟩, fun g member => ?_⟩
      rcases List.mem_cons.mp member with rfl | later
      · exact ⟨(name, rows ++ [row]), by simp, fun other inside => List.mem_append_left _ inside⟩
      · exact ⟨g, List.mem_cons_of_mem _ later, fun _ inside => inside⟩
    · refine ⟨⟨(run, [row]), by simp⟩, fun g member => ?_⟩
      exact ⟨g, List.mem_cons_of_mem _ member, fun _ inside => inside⟩
    · obtain ⟨⟨g, inRest, here⟩, kept⟩ := inductionHypothesis
      refine ⟨⟨g, List.mem_cons_of_mem _ inRest, here⟩, fun g member => ?_⟩
      rcases List.mem_cons.mp member with rfl | later
      · exact ⟨(name, rows), List.mem_cons_self, fun _ inside => inside⟩
      · obtain ⟨g', inPushed, kept⟩ := kept g later
        exact ⟨g', List.mem_cons_of_mem _ inPushed, kept⟩

/-- The groups of a page hold all of its rows. -/
theorem groupRows_ok {rows : List SourceRow} {groups groups' : Groups}
    (grouped : groupRows producer groups rows = .ok groups') :
    (∀ row ∈ rows, ∃ g ∈ groups', row ∈ g.2) ∧
      ∀ g ∈ groups, ∃ g' ∈ groups', ∀ other ∈ g.2, other ∈ g'.2 := by
  induction rows generalizing groups with
  | nil =>
    obtain rfl := Except.ok.inj grouped
    exact ⟨by simp, fun g member => ⟨g, member, fun _ inside => inside⟩⟩
  | cons row rest inductionHypothesis =>
    rw [groupRows] at grouped
    split at grouped
    · cases grouped
    · rename_i run named
      obtain ⟨later, kept⟩ := inductionHypothesis grouped
      obtain ⟨⟨g, pushed, here⟩, keptFirst⟩ := push_keeps run row groups
      refine ⟨fun other member => ?_, fun g member => ?_⟩
      · rcases List.mem_cons.mp member with rfl | inRest
        · obtain ⟨g', inAll, contains⟩ := kept g pushed
          exact ⟨g', inAll, contains _ here⟩
        · exact later other inRest
      · obtain ⟨g', inPushed, first⟩ := keptFirst g member
        obtain ⟨g'', inAll, second⟩ := kept g' inPushed
        exact ⟨g'', inAll, fun other inside => second other (first other inside)⟩

/-- What sending groups leaves as it was, and what it adds. -/
structure Sends (p p' : Progress) : Prop where
  cursor : p'.cursor = p.cursor
  saved : p'.saved = p.saved
  savedAt : p'.savedAt = p.savedAt
  attempts : p'.attempts <:+ p.attempts
  accepted : p.accepted <+: p'.accepted

/-- To send nothing is to go on sending. -/
theorem Sends.refl (p : Progress) : Sends p p :=
  ⟨rfl, rfl, rfl, List.suffix_refl _, List.prefix_refl _⟩

/-- What is sent in two parts is sent. -/
theorem Sends.trans {p p' p'' : Progress} (first : Sends p p') (second : Sends p' p'') :
    Sends p p'' :=
  ⟨second.cursor.trans first.cursor, second.saved.trans first.saved,
    second.savedAt.trans first.savedAt, second.attempts.trans first.attempts,
    first.accepted.trans second.accepted⟩

/-- Sending groups of a page. If all were sent to an honest target, all their rows are
accepted. -/
theorem sendGroups_sends (producer : Producer) (surroundings : Surroundings) (groups : Groups)
    (p : Progress)
    (allHonest : ∀ attempt ∈ p.attempts, honest attempt = true) :
    Sends p (sendGroups producer surroundings groups p).1 ∧
      ((sendGroups producer surroundings groups p).2 = none → ∀ g ∈ groups, ∀ row ∈ g.2,
        row.version ∈ (sendGroups producer surroundings groups p).1.accepted) := by
  induction groups generalizing p with
  | nil => exact ⟨.refl p, by simp⟩
  | cons head rest inductionHypothesis =>
    obtain ⟨run, group⟩ := head
    rw [sendGroups]
    cases made : groupBody producer surroundings run group with
    | error error => exact ⟨.refl p, by simp⟩
    | ok body =>
      dsimp only
      have taken (failed : Int) :
          (postWithRetry (max producer.maxAttempts 1 - 1) p.attempts).1 = .ok failed →
            Uptake.allBut [] ∈ (postWithRetry (max producer.maxAttempts 1 - 1) p.attempts).2.1 :=
        postWithRetry_ok allHonest
      have fewer := postWithRetry_rest (max producer.maxAttempts 1 - 1) p.attempts
      generalize postWithRetry (max producer.maxAttempts 1 - 1) p.attempts = posted at taken fewer ⊢
      obtain ⟨result, uptakes, attempts⟩ := posted
      cases result with
      | error message => exact ⟨⟨rfl, rfl, rfl, fewer, List.prefix_append _ _⟩, by simp⟩
      | ok failed =>
        dsimp only
        have first : Sends p { p with
            attempts
            sent := p.sent ++ [body]
            accepted := p.accepted ++ uptakes.flatMap (fun uptake => uptake.versions group)
            total := p.total + group.length
            batches := p.batches + 1 } :=
          ⟨rfl, rfl, rfl, fewer, List.prefix_append _ _⟩
        obtain ⟨sends, all⟩ := inductionHypothesis _
          (fun attempt member => allHonest attempt (first.attempts.subset member))
        refine ⟨first.trans sends, fun sent g member row inside => ?_⟩
        rcases List.mem_cons.mp member with rfl | later
        · apply sends.accepted.subset
          apply List.mem_append_right
          refine List.mem_flatMap.mpr ⟨.allBut [], taken failed rfl, ?_⟩
          rw [versions_all]
          exact List.mem_map_of_mem inside
        · exact all sent g later row inside

/-! ## A run -/

/-- What holds between two pages: the rows up to the cursor, and up to the saved one, are
accepted, and an honest target is still honest. -/
structure Safe (source : SourceTable) (col : Str) (p : Progress) : Prop where
  cursor : ∀ row ∈ source.rows, before p.cursor col row = true → row.version ∈ p.accepted
  saved : ∀ row ∈ source.rows, before p.savedAt col row = true → row.version ∈ p.accepted
  honest : ∀ attempt ∈ p.attempts, honest attempt = true

/-- The saved row was made from the cursor that is noted beside it. -/
def Linked (crates : Crates) (saved : Option CursorRow) (savedAt : Cursor) : Prop :=
  match saved with
  | none => savedAt.wm = none
  | some row => row.watermark = savedAt.wm.map crates.showRfc3339 ∧ row.watermarkKey = savedAt.key

/-- Rows without watermark are accepted already, or the next page ends in one of them. -/
def NullsDone (producer : Producer) (source : SourceTable) (col : Str) (p : Progress) : Prop :=
  (∀ row ∈ source.rows, row.stamps col = none → row.version ∈ p.accepted) ∨
    (p.cursor.wm = none ∧
      source.rows.countP (fun row => (row.stamps col).isSome) < producer.batchRows)

/-- Sending more keeps the cursor safe. -/
theorem Safe.sends {p' : Progress} (safe : Safe source col p) (sends : Sends p p') :
    Safe source col p' where
  cursor row member here :=
    sends.accepted.subset (safe.cursor row member (by rwa [sends.cursor] at here))
  saved row member here :=
    sends.accepted.subset (safe.saved row member (by rwa [sends.savedAt] at here))
  honest attempt member := safe.honest attempt (sends.attempts.subset member)

/-- Saving the cursor keeps it safe. -/
theorem Safe.save (safe : Safe source col p) (crates : Crates) (result : Str) :
    Safe source col (p.save crates result) :=
  ⟨safe.cursor, safe.cursor, safe.honest⟩

/-- What is saved is the cursor that the next push reads. -/
theorem linked_save (p : Progress) (crates : Crates) (result : Str) :
    Linked crates (p.save crates result).saved (p.save crates result).savedAt :=
  ⟨rfl, rfl⟩

/-- The watermark is that of the last row of the page, in microseconds. -/
theorem readWatermark_ok {last : SourceRow} {wm : DateTime}
    (read : readWatermark producer source col last = some wm) :
    ∃ micros, last.stamps col = some micros ∧ wm = ofMicros micros := by
  rw [readWatermark] at read
  split_ifs at read
  split at read
  · rename_i micros stamp
    split_ifs at read
    exact ⟨micros, stamp, (Option.some.inj read).symm⟩
  · cases read

/-- A row up to the last row of a page was on the page, or it lay before the cursor. -/
theorem before_page {cursor : Cursor} {last row : SourceRow} {micros : Int}
    (isLast : (queryPage producer source col cursor).getLast? = some last)
    (stamp : last.stamps col = some micros) (member : row ∈ source.rows)
    (here : before (cursorAt micros last) col row = true) :
    row ∈ queryPage producer source col cursor ∨ before cursor col row = true := by
  simp only [before, cursorAt, Option.isSome_some, Bool.true_and, Bool.and_eq_true,
    Bool.not_eq_true'] at here
  obtain ⟨stamped, passed⟩ := here
  obtain ⟨m, rowStamp⟩ := Option.isSome_iff_exists.mp stamped
  have upTo : place col row ≤ place col last := by
    rw [← not_lt, ← selects_cursorAt stamp rowStamp]
    exact Bool.eq_false_iff.mp passed
  by_cases selected : selects cursor col row = true
  · left
    exact Keyset.mem_page_of_le isLast
      (fun a aIn b bIn same => place_injective (List.mem_of_mem_filter aIn)
        (List.mem_of_mem_filter bIn) same)
      (List.mem_filter.mpr ⟨member, selected⟩) upTo
  · right
    obtain ⟨wm, key⟩ := cursor
    cases wm with
    | none => exact absurd (selects_unset key row) selected
    | some wm => simp [before, rowStamp, Bool.eq_false_iff.mpr selected]

/-- With room for a row beyond those with a watermark, the page from the start ends in a row
without. -/
theorem last_null {key : Option Tid} {last row : SourceRow}
    (isLast : (queryPage producer source col ⟨none, key⟩).getLast? = some last)
    (room : source.rows.countP (fun row => (row.stamps col).isSome) < producer.batchRows)
    (member : row ∈ source.rows) (null : row.stamps col = none) : last.stamps col = none := by
  by_contra stamped
  obtain ⟨m, lastStamp⟩ := Option.ne_none_iff_exists'.mp stamped
  have all : source.rows.filter (selects ⟨none, key⟩ col) = source.rows :=
    List.filter_eq_self.mpr (fun other _ => selects_unset key other)
  rw [queryPage, all] at isLast
  have greatest : ∀ other ∈ Keyset.page (place col) producer.batchRows source.rows,
      (other.stamps col).isSome = true := by
    intro other onPage
    have upTo := Keyset.le_last isLast onPage
    cases stamp : other.stamps col with
    | some micros => rfl
    | none => simp [place, stamp, lastStamp, Prod.Lex.toLex_le_toLex] at upTo
  have small : source.rows.length ≤ producer.batchRows := by
    by_contra large
    have full : (Keyset.page (place col) producer.batchRows source.rows).length =
        producer.batchRows := by
      rw [Keyset.page, List.length_take, List.length_insertionSort]
      omega
    have counted : (Keyset.page (place col) producer.batchRows source.rows).length ≤
        source.rows.countP (fun row => (row.stamps col).isSome) := by
      rw [← List.countP_eq_length.mpr greatest,
        ← (List.perm_insertionSort (fun a b => place col a ≤ place col b) source.rows).countP_eq]
      exact (List.take_sublist _ _).countP_le
    omega
  have onPage := Keyset.mem_page_of_small (place col) small member
  exact absurd (greatest row onPage) (by simp [null])

/-- What a loop over pages leaves: safety, and all rows where it returns `ok`. -/
structure Drained (crates : Crates) (source : SourceTable) (col : Str)
    (result : Progress × Outcome) : Prop where
  safe : Safe source col result.1
  linked : Linked crates result.1.saved result.1.savedAt
  done : ∀ summary, result.2 = .summary summary → summary.status = .ok →
    ∀ row ∈ source.rows, row.version ∈ result.1.accepted

/-- A run that stops otherwise than with `ok`. -/
theorem Drained.of_stop {outcome : Outcome} (safe : Safe source col p)
    (linked : Linked crates p.saved p.savedAt)
    (stopped : ∀ summary, outcome = .summary summary → summary.status = .failed) :
    Drained crates source col (p, outcome) :=
  ⟨safe, linked, fun summary same ok => by rw [stopped summary same] at ok; cases ok⟩

/-- An empty page is the end of the table. -/
theorem done_of_empty (room : 0 < producer.batchRows) (safe : Safe source col p)
    (nulls : NullsDone producer source col p)
    (empty : queryPage producer source col p.cursor = []) :
    ∀ row ∈ source.rows, row.version ∈ p.accepted := by
  intro row member
  have unselected : selects p.cursor col row = false := by
    rw [queryPage, Keyset.page_eq_nil room, List.filter_eq_nil_iff] at empty
    exact Bool.eq_false_iff.mpr (empty row member)
  have set : p.cursor.wm ≠ none := by
    intro unset
    obtain ⟨⟨wm, key⟩, batches, total, saved, savedAt, attempts, sent, accepted⟩ := p
    obtain rfl : wm = none := unset
    rw [selects_unset] at unselected
    cases unselected
  cases stamp : row.stamps col with
  | some micros =>
    apply safe.cursor row member
    rw [before, stamp, unselected, Option.isSome_iff_ne_none.mpr set]
    rfl
  | none =>
    rcases nulls with done | ⟨unset, -⟩
    · exact done row member stamp
    · exact absurd unset set

/-- The loop over the pages keeps what holds between two pages. -/
theorem drain_drained (producer : Producer) (room : 0 < producer.batchRows) (fuel page : Nat)
    (p : Progress)
    (safe : Safe source col p) (nulls : NullsDone producer source col p)
    (linked : Linked producer.crates p.saved p.savedAt) :
    Drained producer.crates source col (drain producer surroundings source col fuel page p) := by
  induction fuel generalizing page p with
  | zero => exact .of_stop safe linked (fun _ impossible => by cases impossible)
  | succ fuel inductionHypothesis =>
    rw [drain]
    split
    · exact .of_stop safe linked (fun _ impossible => by cases impossible)
    dsimp only
    split
    · rename_i empty
      have all := done_of_empty room safe nulls (List.getLast?_eq_none_iff.mp empty)
      exact ⟨safe, linked, fun _ _ _ => all⟩
    · rename_i last isLast
      split
      · exact .of_stop safe linked (fun _ impossible => by cases impossible)
      · rename_i wm read
        obtain ⟨micros, stamp, rfl⟩ := readWatermark_ok read
        split
        · exact .of_stop safe linked (fun _ impossible => by cases impossible)
        split
        · exact .of_stop safe linked (fun _ impossible => by cases impossible)
        · rename_i groups grouped
          obtain ⟨sends, all⟩ := sendGroups_sends producer surroundings groups p safe.honest
          generalize sendGroups producer surroundings groups p = result at sends all ⊢
          obtain ⟨p', stop⟩ := result
          dsimp only at sends all
          have safe' := safe.sends sends
          have linked' : Linked producer.crates p'.saved p'.savedAt := by
            rw [sends.saved, sends.savedAt]
            exact linked
          cases stop with
          | some reason =>
            cases reason with
            | broken unbuilt =>
              refine .of_stop safe' linked' (fun _ impossible => ?_)
              cases unbuilt <;> cases impossible
            | undelivered message =>
              dsimp only
              split_ifs
              · refine .of_stop (safe'.save _ _) (linked_save _ _ _) (fun summary same => ?_)
                obtain rfl := Outcome.summary.inj same
                rfl
              · exact .of_stop safe' linked' (fun _ impossible => by cases impossible)
          | none =>
            dsimp only
            split_ifs
            · have advanced : Safe source col { p' with cursor := cursorAt micros last } := by
                refine ⟨fun row member here => ?_, safe'.saved, safe'.honest⟩
                rcases before_page isLast stamp member here with onPage | earlier
                · obtain ⟨g, inGroups, inside⟩ := (groupRows_ok grouped).1 row onPage
                  exact all rfl g inGroups row inside
                · exact sends.accepted.subset (safe.cursor row member earlier)
              apply inductionHypothesis _ _ (advanced.save _ _)
              · left
                intro row member null
                rcases nulls with done | ⟨unset, small⟩
                · exact sends.accepted.subset (done row member null)
                · have cursor : p.cursor = ⟨none, p.cursor.key⟩ := by rw [← unset]
                  rw [cursor] at isLast
                  rw [last_null isLast small member null] at stamp
                  cases stamp
              · exact linked_save _ _ _
            · exact .of_stop safe' linked' (fun _ impossible => by cases impossible)

/-! ## A run ends -/

/-- How many rows the page query still selects. -/
def remaining (source : SourceTable) (col : Str) (cursor : Cursor) : Nat :=
  (source.rows.filter (selects cursor col)).length

/-- What is after the last row of a page was after the cursor. -/
theorem selects_of_later {cursor : Cursor} {last row : SourceRow} {micros : Int}
    (stamp : last.stamps col = some micros) (selected : selects cursor col last = true)
    (later : selects (cursorAt micros last) col row = true) : selects cursor col row = true := by
  obtain ⟨wm, key⟩ := cursor
  cases wm with
  | none => exact selects_unset key row
  | some wm =>
    cases rowStamp : row.stamps col with
    | none => simp [selects, cursorAt, rowStamp] at later
    | some m =>
      simp only [selects, cursorAt, stamp, rowStamp, toMicros_ofMicros, Option.any_some,
        Bool.or_eq_true, decide_eq_true_eq, Bool.and_eq_true, beq_iff_eq] at selected later ⊢
      rcases selected with first | ⟨rfl, first⟩
      · rcases later with second | ⟨rfl, -⟩
        · exact Or.inl (first.trans second)
        · exact Or.inl first
      · rcases later with second | ⟨rfl, second⟩
        · exact Or.inl second
        · refine Or.inr ⟨rfl, ?_⟩
          cases key with
          | none => cases first
          | some key =>
            rw [Option.any_some, tidLt_iff] at first ⊢
            exact first.trans (tidLt_iff.mp second)

/-- A page that moves the cursor leaves fewer rows behind it, so that the loop comes to an end. -/
theorem remaining_lt {cursor : Cursor} {last : SourceRow} {micros : Int}
    (isLast : (queryPage producer source col cursor).getLast? = some last)
    (stamp : last.stamps col = some micros) :
    remaining source col (cursorAt micros last) < remaining source col cursor := by
  have onPage := Keyset.mem_of_mem_page (List.mem_of_getLast? isLast)
  have selected := (List.mem_filter.mp onPage).2
  have fewer : source.rows.filter (selects (cursorAt micros last) col) =
      (source.rows.filter (selects cursor col)).filter (selects (cursorAt micros last) col) := by
    rw [List.filter_filter]
    apply List.filter_congr
    intro row _
    cases later : selects (cursorAt micros last) col row with
    | false => rfl
    | true => simp [selects_of_later stamp selected later]
  rw [remaining, remaining, fewer, List.length_filter_lt_length_iff_exists]
  refine ⟨last, onPage, fun again => ?_⟩
  exact lt_irrefl _ ((selects_cursorAt stamp stamp).mp again)

/-- A run never comes to the end of its fuel. -/
theorem drain_fuel (fuel page : Nat) (p : Progress) (enough : remaining source col p.cursor < fuel) :
    drain producer surroundings source col (fuel + 1) page p =
      drain producer surroundings source col fuel page p := by
  induction fuel generalizing page p with
  | zero => omega
  | succ fuel inductionHypothesis =>
    rw [drain, drain.eq_2]
    split
    · rfl
    dsimp only
    split
    · rfl
    rename_i last isLast
    split
    · rfl
    rename_i wm read
    obtain ⟨micros, stamp, rfl⟩ := readWatermark_ok read
    have less := remaining_lt isLast stamp
    split
    · rfl
    split
    · rfl
    split
    · rfl
    · rfl
    split
    · apply inductionHypothesis
      have advanced : remaining source col (cursorAt micros last) < fuel := by omega
      exact advanced
    · rfl

/-! ## Many runs -/

/-- One `run_push`, and the table as it is then. -/
structure Call where
  source : SourceTable
  col : Str
  surroundings : Surroundings
  batchRows : Nat
  maxAttempts : Nat
  room : 0 < batchRows

/-- The saved cursor and the accepted rows, with the rows the last run drained, its
watermark column and whether it returned `ok`. -/
structure State where
  saved : Option CursorRow
  savedAt : Cursor
  accepted : List Version
  rows : List SourceRow
  col : Str
  done : Bool

/-- Nothing was pushed yet. -/
def start : State := ⟨none, ⟨none, none⟩, [], [], [], false⟩

/-- The outcome of a push whose status is ok. -/
def Outcome.isOk : Outcome → Bool
  | .summary summary => summary.status = .ok
  | _ => false

/-- The producer with the settings of a call. -/
def Call.settings (call : Call) (producer : Producer) : Producer :=
  { producer with batchRows := call.batchRows, maxAttempts := call.maxAttempts }

/-- A push from the saved cursor. -/
def pushes (producer : Producer) (s : State) (call : Call) : Progress × Outcome :=
  runPush (call.settings producer) call.surroundings call.source call.col s.saved s.savedAt
    s.accepted

/-- One push, after which the table may have changed in any way. -/
def step (producer : Producer) (s : State) (call : Call) : Option State :=
  let run := pushes producer s call
  some ⟨run.1.saved, run.1.savedAt, run.1.accepted, call.source.rows, call.col, Outcome.isOk run.2⟩

/-- What the cursor and the status promise. -/
structure Accounted (s : State) : Prop where
  upToCursor : ∀ row ∈ s.rows, before s.savedAt s.col row = true → row.version ∈ s.accepted
  all : s.done = true → ∀ row ∈ s.rows, row.version ∈ s.accepted

/-- No row comes to lie before the saved cursor, acknowledgements are for whole batches, and
rows without watermark are accepted already or make the first page end. -/
def clean (s : State) (call : Call) : Bool :=
  call.source.rows.all (fun row => !before s.savedAt call.col row ||
    s.rows.any (fun old => old.version == row.version && before s.savedAt s.col old)) &&
  call.surroundings.attempts.all honest &&
  (call.source.rows.all (fun row =>
      (row.stamps call.col).isSome || s.accepted.contains row.version) ||
    (s.savedAt.wm.isNone &&
      decide (call.source.rows.countP (fun row => (row.stamps call.col).isSome) < call.batchRows)))

/-- What is loaded is what was saved. -/
theorem loadCursor_ok {saved : Option CursorRow} {savedAt cursor : Cursor}
    (restores : ∀ t u, crates.parseRfc3339 (crates.showRfc3339 t) = some u → u = t)
    (linked : Linked crates saved savedAt) (loaded : loadCursor crates saved = .ok cursor) :
    (cursor = ⟨none, none⟩ ∧ savedAt.wm = none) ∨ cursor = savedAt := by
  cases saved with
  | none =>
    obtain rfl := Except.ok.inj loaded
    exact Or.inl ⟨rfl, linked⟩
  | some row =>
    obtain ⟨watermark, key⟩ := linked
    obtain ⟨wm, at_key⟩ := savedAt
    cases wm with
    | none =>
      rw [loadCursor, watermark] at loaded
      obtain rfl := Except.ok.inj loaded
      exact Or.inl ⟨rfl, rfl⟩
    | some instant =>
      rw [loadCursor, watermark] at loaded
      dsimp only [Option.map_some] at loaded
      split at loaded
      · rename_i parsed read
        obtain rfl := Except.ok.inj loaded
        rw [restores instant parsed read, key]
        exact Or.inr rfl
      · cases loaded

/-- A push that is not cut short has drained the table. -/
theorem runPush_drained {s : State} {call : Call}
    (restores : ∀ t u, producer.crates.parseRfc3339 (producer.crates.showRfc3339 t) = some u →
      u = t)
    (accounted : Accounted s) (linked : Linked producer.crates s.saved s.savedAt)
    (allowed : clean s call = true) :
    Drained producer.crates call.source call.col (pushes producer s call) := by
  simp only [clean, Bool.and_eq_true, Bool.or_eq_true, List.all_eq_true, Bool.not_eq_true',
    List.any_eq_true, beq_iff_eq, List.contains_iff_mem, Option.isNone_iff_eq_none,
    decide_eq_true_eq] at allowed
  obtain ⟨⟨placed, allHonest⟩, nulls⟩ := allowed
  have old : ∀ row ∈ call.source.rows, before s.savedAt call.col row = true →
      row.version ∈ s.accepted := by
    intro row member here
    rcases placed row member with elsewhere | ⟨was, wasIn, same, wasHere⟩
    · rw [here] at elsewhere
      cases elsewhere
    · rw [← same]
      exact accounted.upToCursor was wasIn wasHere
  have fresh : Safe call.source call.col ⟨⟨none, none⟩, 0, 0, s.saved, s.savedAt,
      call.surroundings.attempts, [], s.accepted⟩ :=
    ⟨fun row _ impossible => by simp [before_unset] at impossible, old, allHonest⟩
  rw [pushes, runPush]
  dsimp only
  split
  · exact .of_stop fresh linked (fun _ impossible => by cases impossible)
  · split
    · exact .of_stop fresh linked (fun _ impossible => by cases impossible)
    · rename_i cursor loaded
      apply drain_drained (call.settings producer) call.room
      · refine ⟨fun row member here => ?_, old, allHonest⟩
        rcases loadCursor_ok restores linked loaded with ⟨rfl, -⟩ | rfl
        · cases here
        · exact old row member here
      · rcases nulls with accepted | ⟨unset, small⟩
        · left
          intro row member null
          rcases accepted row member with stamped | done
          · rw [null] at stamped
            cases stamped
          · exact done
        · right
          refine ⟨?_, small⟩
          rcases loadCursor_ok restores linked loaded with ⟨rfl, -⟩ | rfl
          · rfl
          · exact unset
      · exact linked

/-- A producer on plain texts, for whom every run id is a UUID. -/
def divs : Producer where
  crates := Crates.plain
  parseUuid := some
  readable _ := true
  targetUrl := "https://hub".str
  peerId := []
  maxAttempts := 5
  batchRows := 1000
  schema := "market".str
  table := "divs".str

/-- A row of one run, with a watermark if it has one. -/
def rowAt (offset : Nat) (stamp : Option Int) : SourceRow where
  xmin := 1
  ctid := (0, offset)
  stamps _ := stamp
  toJsonb := some <| .object [("source".str, .string "fmp".str),
    ("source_endpoint".str, .string "x".str),
    ("source_run_id".str, .string "r".str), ("v".str, .ofNat offset)]

/-- The two rows of the example have different places. -/
theorem places_nodup : [((0, 1) : Tid), (0, 2)].Nodup := by decide

/-- A table of two rows; the second one may have no watermark. -/
def twoRows (second : Option Int) : SourceTable where
  types _ := some "timestamp with time zone".str
  rows := [rowAt 1 (some 0), rowAt 2 second]
  unique := places_nodup

/-- The target answers once, with a count of rejected records. -/
def answering (failed : Nat) (uptake : Uptake) : Surroundings where
  preamble _ := .ok {}
  attempts := [⟨.acked (.object [("failed".str, .ofNat failed)]), uptake⟩]
  reads _ := true
  saves _ := true

/-- A call for the default watermark column. -/
def calls (second : Option Int) (surroundings : Surroundings) (batchRows : Nat)
    (room : 0 < batchRows) : Call :=
  ⟨twoRows second, "ingest_ts".str, surroundings, batchRows, 5, room⟩

/-- What is seen of a run: its status, the place it saved, its rows and the accepted ones. -/
structure Seen where
  done : Bool
  key : Option Tid
  rows : List Version
  accepted : List Version
  deriving DecidableEq

/-- What can be seen of a state from outside. -/
def seen (s : State) : Seen :=
  ⟨s.done, s.saved.bind CursorRow.watermarkKey, s.rows.map SourceRow.version, s.accepted⟩

/-- A run that returned `ok` without a row. -/
theorem not_accounted {s : State} {key : Option Tid} {rows accepted : List Version}
    {version : Version} (observed : seen s = ⟨true, key, rows, accepted⟩)
    (inTable : version ∈ rows) (left : version ∉ accepted) : ¬Accounted s := by
  intro accounted
  simp only [seen, Seen.mk.injEq] at observed
  obtain ⟨done, -, rfl, rfl⟩ := observed
  obtain ⟨row, member, rfl⟩ := List.mem_map.mp inTable
  exact left (accounted.all done row member)

/-- A row without watermark is not on the first page, and on no later one. -/
theorem null_row_left : ∃ s, Reaches (step divs) start s ∧
    seen s = ⟨true, some (0, 1), [(1, 0, 1), (1, 0, 2)], [(1, 0, 1)]⟩ ∧ ¬Accounted s := by
  have ran : (run (step divs) start
      [calls none (answering 0 (.allBut [])) 1 (by decide)]).map seen =
      some ⟨true, some (0, 1), [(1, 0, 1), (1, 0, 2)], [(1, 0, 1)]⟩ := by decide +kernel
  obtain ⟨s, reached, observed⟩ := Option.map_eq_some_iff.mp ran
  exact ⟨s, ⟨_, reached⟩, observed, not_accounted observed (List.mem_cons_of_mem _ List.mem_cons_self)
    (by decide)⟩

end LumidPlatform.Sync.Delivered
