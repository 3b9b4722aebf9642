import LumidPlatform.Lib.Assoc
import LumidPlatform.Sync.Delivered

/-!
# What a posted batch says of its rows

A page is cut into groups by run, and the envelope of a group is taken from its first row.
Every batch that is posted is kept here with the page and the group it was made from; the
envelope is right for all rows of a batch exactly if the rows of one run on a page have one
source and one endpoint.
-/

namespace LumidPlatform.Sync.Posted

variable {producer : Producer} {surroundings : Surroundings} {source : SourceTable} {col : Str}

/-! ## The batches of a run -/

/-- A batch that was posted: its page, its run, its rows and its body. -/
structure Post where
  page : List SourceRow
  run : Str
  group : List SourceRow
  body : SyncApplyBody

/-- The batches posted for the groups of a page. -/
def posts (producer : Producer) (surroundings : Surroundings) (page : List SourceRow) :
    Groups → List Attempt → List Post
  | [], _ => []
  | (run, group) :: rest, attempts =>
    match groupBody producer surroundings run group with
    | .error _ => []
    | .ok body =>
      match postWithRetry (max producer.maxAttempts 1 - 1) attempts with
      | (.error _, _, _) => [⟨page, run, group, body⟩]
      | (.ok _, _, attempts) =>
        ⟨page, run, group, body⟩ :: posts producer surroundings page rest attempts

/-- The batches posted by the loop over the pages. -/
def drainPosts (producer : Producer) (surroundings : Surroundings) (source : SourceTable)
    (col : Str) : Nat → Nat → Progress → List Post
  | 0, _, _ => []
  | fuel + 1, page, p =>
    if !surroundings.reads page || decide (2 ^ 63 ≤ producer.batchRows) then []
    else
      let rows := queryPage producer source col p.cursor
      match rows.getLast? with
      | none => []
      | some last =>
        match readWatermark producer source col last with
        | none => []
        | some wm =>
          if !allRead rows then []
          else
            match groupRows producer [] rows with
            | .error _ => []
            | .ok groups =>
              posts producer surroundings rows groups p.attempts ++
                match sendGroups producer surroundings groups p with
                | (_, some _) => []
                | (p, none) =>
                  if surroundings.saves page then
                    drainPosts producer surroundings source col fuel (page + 1)
                      (Progress.save { p with cursor := ⟨some wm, some last.ctid⟩ } producer.crates
                        "ok".str)
                  else []

/-- The batches posted by `run_push`. -/
def runPosts (producer : Producer) (surroundings : Surroundings) (source : SourceTable) (col : Str)
    (saved : Option CursorRow) (savedAt : Cursor) (accepted : List Version) : List Post :=
  match pushError producer source col with
  | some _ => []
  | none =>
    match loadCursor producer.crates saved with
    | .error _ => []
    | .ok cursor =>
      drainPosts producer surroundings source col (source.rows.length + 1) 0
        ⟨cursor, 0, 0, saved, savedAt, surroundings.attempts, [], accepted⟩

theorem sendGroups_sent (page : List SourceRow) (groups : Groups) (p : Progress) :
    (sendGroups producer surroundings groups p).1.sent =
      p.sent ++ (posts producer surroundings page groups p.attempts).map Post.body := by
  induction groups generalizing p with
  | nil => simp [sendGroups, posts]
  | cons head rest inductionHypothesis =>
    obtain ⟨run, group⟩ := head
    rw [sendGroups, posts]
    cases made : groupBody producer surroundings run group with
    | error error => simp
    | ok body =>
      dsimp only
      generalize postWithRetry (max producer.maxAttempts 1 - 1) p.attempts = posted
      obtain ⟨result, uptakes, attempts⟩ := posted
      cases result with
      | error message => rfl
      | ok failed =>
        dsimp only
        rw [inductionHypothesis]
        simp

theorem drain_sent (fuel page : Nat) (p : Progress) :
    (drain producer surroundings source col fuel page p).1.sent =
      p.sent ++ (drainPosts producer surroundings source col fuel page p).map Post.body := by
  induction fuel generalizing page p with
  | zero => simp [drain, drainPosts]
  | succ fuel inductionHypothesis =>
    rw [drain, drainPosts]
    split
    · simp
    dsimp only
    cases isLast : (queryPage producer source col p.cursor).getLast? with
    | none => simp
    | some last =>
      dsimp only
      cases read : readWatermark producer source col last with
      | none => simp
      | some wm =>
        dsimp only
        split
        · simp
        cases grouped : groupRows producer [] (queryPage producer source col p.cursor) with
        | error error => simp
        | ok groups =>
          dsimp only
          have sent : (sendGroups producer surroundings groups p).1.sent = p.sent ++ _ :=
            sendGroups_sent (queryPage producer source col p.cursor) groups p
          generalize sendGroups producer surroundings groups p = result at sent ⊢
          obtain ⟨p', stop⟩ := result
          cases stop with
          | none =>
            dsimp only at sent ⊢
            split
            · rw [inductionHypothesis, List.map_append, ← List.append_assoc, ← sent]
              rfl
            · rw [sent, List.append_nil]
          | some stop =>
            cases stop with
            | broken error => rw [List.append_nil]; exact sent
            | undelivered message =>
              rw [List.append_nil, ← sent]
              dsimp only
              split
              · rfl
              · rfl

/-- The batches are those that `run_push` posts. -/
theorem runPush_sent (saved : Option CursorRow) (savedAt : Cursor) (accepted : List Version) :
    (runPush producer surroundings source col saved savedAt accepted).1.sent =
      (runPosts producer surroundings source col saved savedAt accepted).map Post.body := by
  rw [runPush, runPosts]
  cases pushError producer source col with
  | some error => rfl
  | none =>
    cases loadCursor producer.crates saved with
    | error error => rfl
    | ok cursor => exact drain_sent _ 0 _

/-! ## The groups of a page -/

/-- The run of a row, as its text. -/
def runOf (row : SourceRow) : Option Str := (field row.json "source_run_id".str).bind Json.asStr?

/-- The runs stand in order. -/
def Ordered (groups : Groups) : Prop := groups.Pairwise (fun a b => a.1 < b.1)

theorem mem_push {run name : Str} {row : SourceRow} {groups : Groups}
    (member : name ∈ (groups.push run row).map Prod.fst) :
    name = run ∨ name ∈ groups.map Prod.fst := by
  induction groups with
  | nil => simpa [Groups.push] using member
  | cons head rest inductionHypothesis =>
    obtain ⟨first, rows⟩ := head
    rw [Groups.push] at member
    split_ifs at member with same before
    · exact .inr member
    · exact (List.mem_cons.mp member)
    · rcases List.mem_cons.mp member with here | later
      · exact .inr (List.mem_cons.mpr (.inl here))
      · exact (inductionHypothesis later).imp_right (List.mem_cons_of_mem _)

theorem Ordered.push {groups : Groups} (ordered : Ordered groups) (run : Str) (row : SourceRow) :
    Ordered (groups.push run row) := by
  induction groups with
  | nil => simp [Groups.push, Ordered]
  | cons head rest inductionHypothesis =>
    obtain ⟨first, rows⟩ := head
    obtain ⟨least, later⟩ := List.pairwise_cons.mp ordered
    rw [Groups.push]
    split_ifs with same before
    · exact List.pairwise_cons.mpr ⟨least, later⟩
    · have below : run < first :=
        lt_of_le_of_ne (of_decide_eq_true before) (fun equal => same equal.symm)
      refine List.pairwise_cons.mpr ⟨fun other member => ?_, ordered⟩
      rcases List.mem_cons.mp member with rfl | inRest
      · exact below
      · exact below.trans (least other inRest)
    · have above : first < run := lt_of_not_ge (fun other => before (decide_eq_true other))
      refine List.pairwise_cons.mpr ⟨fun other member => ?_, inductionHypothesis later⟩
      rcases mem_push (List.mem_map_of_mem member) with named | old
      · rw [named]
        exact above
      · obtain ⟨g, inRest, named⟩ := List.mem_map.mp old
        rw [← named]
        exact least g inRest

/-- A run before all others has no group. -/
theorem lookup_before {run : Str} {groups : Groups} (before : ∀ g ∈ groups, run < g.1) :
    List.lookup run groups = none := by
  rw [List.lookup_eq_none_iff]
  intro g member
  exact bne_iff_ne.mpr (before g member).ne

/-- A row goes to the group of its run. -/
theorem lookup_push {groups : Groups} (ordered : Ordered groups) (run other : Str)
    (row : SourceRow) : (List.lookup other (groups.push run row)).getD [] =
      (List.lookup other groups).getD [] ++ (if other = run then [row] else []) := by
  induction groups with
  | nil =>
    rw [Groups.push]
    split_ifs with same
    · rw [same, List.lookup_cons_self]
      rfl
    · rw [Assoc.lookup_of_ne same]
      rfl
  | cons head rest inductionHypothesis =>
    obtain ⟨first, rows⟩ := head
    obtain ⟨least, later⟩ := List.pairwise_cons.mp ordered
    rw [Groups.push]
    by_cases here : first = run
    · rw [if_pos here]
      split_ifs with same
      · rw [same, ← here, List.lookup_cons_self, List.lookup_cons_self]
        rfl
      · have differs : other ≠ first := fun equal => same (equal.trans here)
        rw [Assoc.lookup_of_ne differs, Assoc.lookup_of_ne differs, List.append_nil]
    · rw [if_neg here]
      by_cases before : Text.le run first = true
      · rw [if_pos before]
        split_ifs with same
        · have below : run < first :=
            lt_of_le_of_ne (of_decide_eq_true before) (fun equal => here equal.symm)
          have fresh : List.lookup run ((first, rows) :: rest) = none := by
            apply lookup_before
            intro g member
            rcases List.mem_cons.mp member with rfl | inRest
            · exact below
            · exact below.trans (least g inRest)
          rw [same, List.lookup_cons_self, fresh]
          rfl
        · rw [Assoc.lookup_of_ne same, List.append_nil]
      · rw [if_neg before]
        by_cases asked : other = first
        · have differs : other ≠ run := fun equal => here (asked.symm.trans equal)
          rw [if_neg differs, asked, List.lookup_cons_self, List.lookup_cons_self, List.append_nil]
        · rw [Assoc.lookup_of_ne asked, Assoc.lookup_of_ne asked, inductionHypothesis later]

/-- The group of a run has the rows of the run. -/
theorem groupRows_lookup {rows : List SourceRow} {groups groups' : Groups}
    (ordered : Ordered groups) (grouped : groupRows producer groups rows = .ok groups') :
    Ordered groups' ∧ ∀ run, (List.lookup run groups').getD [] =
      (List.lookup run groups).getD [] ++ rows.filter (fun row => runOf row = some run) := by
  induction rows generalizing groups with
  | nil =>
    obtain rfl := Except.ok.inj grouped
    exact ⟨ordered, by simp⟩
  | cons row rest inductionHypothesis =>
    rw [groupRows] at grouped
    split at grouped
    · cases grouped
    · rename_i named found
      obtain ⟨ordered', all⟩ := inductionHypothesis (ordered.push named row) grouped
      refine ⟨ordered', fun run => ?_⟩
      rw [all run, lookup_push ordered, List.append_assoc, List.filter_cons]
      have known : runOf row = some named := found
      by_cases same : run = named
      · simp [known, same]
      · have differs : ¬ named = run := fun equal => same equal.symm
        simp [known, same, differs]

/-- A group of a page has exactly the rows of its run. -/
theorem mem_group {rows : List SourceRow} {groups : Groups}
    (grouped : groupRows producer [] rows = .ok groups) {run : Str} {group : List SourceRow}
    (member : (run, group) ∈ groups) :
    group = rows.filter (fun row => runOf row = some run) := by
  obtain ⟨ordered, all⟩ := groupRows_lookup List.Pairwise.nil grouped
  have found : List.lookup run groups = some group := by
    clear all grouped
    induction groups with
    | nil => cases member
    | cons head rest inductionHypothesis =>
      obtain ⟨first, rows⟩ := head
      obtain ⟨least, later⟩ := List.pairwise_cons.mp ordered
      rcases List.mem_cons.mp member with here | inRest
      · obtain ⟨rfl, rfl⟩ := Prod.mk.inj here
        exact List.lookup_cons_self
      · rw [Assoc.lookup_of_ne (least (run, group) inRest).ne', inductionHypothesis inRest later]
  have whole := all run
  rw [found] at whole
  exact whole

/-! ## The envelope -/

/-- The texts that an envelope takes from a row. -/
def textOf (row : SourceRow) (key : Str) : Option Str := (field row.json key).bind Json.asStr?

/-- A body has the lineage of a row. -/
def Carries (producer : Producer) (body : SyncApplyBody) (row : SourceRow) : Prop :=
  textOf row "source".str = some body.source ∧
    textOf row "source_endpoint".str = some body.sourceEndpoint ∧
    (runOf row).bind producer.parseUuid = some body.sourceRunId

/-- Two rows have one source and one endpoint. -/
def Alike (a b : SourceRow) : Prop :=
  textOf a "source".str = textOf b "source".str ∧
    textOf a "source_endpoint".str = textOf b "source_endpoint".str

theorem lineageOf_ok {row : SourceRow} {src endpoint run : Str}
    (found : lineageOf producer row.json = .ok (src, endpoint, run)) :
    textOf row "source".str = some src ∧ textOf row "source_endpoint".str = some endpoint ∧
      (runOf row).bind producer.parseUuid = some run := by
  have given {text : Option Str} (nonempty : (text.getD []).isEmpty = false) :
      text = some (text.getD []) := by
    cases text with
    | none => cases nonempty
    | some text => rfl
  rw [lineageOf] at found
  dsimp only at found
  split at found
  · cases found
  · rename_i parsed known
    split_ifs at found with missing
    simp only [Bool.or_eq_true, not_or, Bool.not_eq_true] at missing
    simp only [Except.ok.injEq, Prod.mk.injEq] at found
    obtain ⟨rfl, rfl, rfl⟩ := found
    exact ⟨given missing.1, given missing.2, known⟩

/-- The body of a group has the lineage of its first row. -/
theorem groupBody_ok {run : Str} {group : List SourceRow} {body : SyncApplyBody}
    (made : groupBody producer surroundings run group = .ok body) :
    body.records = group.map (fun row => stripServerSideCols row.json) ∧
      ∃ first ∈ group, Carries producer body first := by
  cases group with
  | nil => cases made
  | cons first rest =>
    rw [groupBody] at made
    split at made
    · cases made
    · rename_i lineage
      split at made
      · cases made
      · obtain rfl := Except.ok.inj made
        exact ⟨rfl, first, List.mem_cons_self, lineageOf_ok lineage⟩

/-- What is posted for a page is the body of one of its groups. -/
theorem mem_posts {page : List SourceRow} {groups : Groups} {attempts : List Attempt} {post : Post}
    (member : post ∈ posts producer surroundings page groups attempts) :
    post.page = page ∧ (post.run, post.group) ∈ groups ∧
      groupBody producer surroundings post.run post.group = .ok post.body := by
  induction groups generalizing attempts with
  | nil => cases member
  | cons head rest inductionHypothesis =>
    obtain ⟨run, group⟩ := head
    rw [posts] at member
    split at member
    · cases member
    · rename_i body made
      split at member
      · obtain rfl := List.mem_singleton.mp member
        exact ⟨rfl, List.mem_cons_self, made⟩
      · rcases List.mem_cons.mp member with rfl | later
        · exact ⟨rfl, List.mem_cons_self, made⟩
        · obtain ⟨samePage, inRest, made'⟩ := inductionHypothesis later
          exact ⟨samePage, List.mem_cons_of_mem _ inRest, made'⟩

/-- A posted batch has the rows of one run on its page, and the lineage of one of them. -/
structure Made (producer : Producer) (post : Post) : Prop where
  group : post.group = post.page.filter (fun row => runOf row = some post.run)
  records : post.body.records = post.group.map (fun row => stripServerSideCols row.json)
  first : ∃ first ∈ post.group, Carries producer post.body first

theorem mem_drainPosts {fuel page : Nat} {p : Progress} {post : Post}
    (member : post ∈ drainPosts producer surroundings source col fuel page p) :
    Made producer post := by
  induction fuel generalizing page p with
  | zero => cases member
  | succ fuel inductionHypothesis =>
    rw [drainPosts] at member
    split at member
    · cases member
    dsimp only at member
    split at member
    · cases member
    split at member
    · cases member
    split at member
    · cases member
    split at member
    · cases member
    rename_i groups grouped
    rcases List.mem_append.mp member with here | later
    · obtain ⟨samePage, inGroups, made⟩ := mem_posts here
      obtain ⟨records, first⟩ := groupBody_ok made
      rw [← samePage] at grouped
      exact ⟨mem_group grouped inGroups, records, first⟩
    · split at later
      · cases later
      · split at later
        · exact inductionHypothesis later
        · cases later

theorem mem_runPosts {saved : Option CursorRow} {savedAt : Cursor} {accepted : List Version}
    {post : Post}
    (member : post ∈ runPosts producer surroundings source col saved savedAt accepted) :
    Made producer post := by
  rw [runPosts] at member
  split at member
  · cases member
  · split at member
    · cases member
    · exact mem_drainPosts member

/-- The envelope is right for the rows of a batch exactly if they are alike. -/
theorem Made.carries_iff {post : Post} (made : Made producer post) :
    (∀ row ∈ post.group, Carries producer post.body row) ↔
      ∀ a ∈ post.page, ∀ b ∈ post.page, runOf a = some post.run → runOf b = some post.run →
        Alike a b := by
  have inGroup {row : SourceRow} :
      row ∈ post.group ↔ row ∈ post.page ∧ runOf row = some post.run := by
    rw [made.group, List.mem_filter, decide_eq_true_eq]
  constructor
  · intro all a aIn b bIn aRun bRun
    obtain ⟨aSource, aEndpoint, -⟩ := all a (inGroup.mpr ⟨aIn, aRun⟩)
    obtain ⟨bSource, bEndpoint, -⟩ := all b (inGroup.mpr ⟨bIn, bRun⟩)
    exact ⟨aSource.trans bSource.symm, aEndpoint.trans bEndpoint.symm⟩
  · intro alike row member
    obtain ⟨first, firstIn, src, endpoint, run⟩ := made.first
    obtain ⟨onPage, ofRun⟩ := inGroup.mp member
    obtain ⟨firstOnPage, firstRun⟩ := inGroup.mp firstIn
    obtain ⟨sameSource, sameEndpoint⟩ := alike row onPage first firstOnPage ofRun firstRun
    exact ⟨sameSource.trans src, sameEndpoint.trans endpoint, by rw [ofRun, ← firstRun, run]⟩

/-- What `run_push` posts has rows of one run, and its envelope is the lineage of all of them
exactly if the rows of a posted run on a page have one source and one endpoint. -/
theorem posted_homogeneous (producer : Producer) (surroundings : Surroundings)
    (source : SourceTable) (col : Str) (saved : Option CursorRow) (savedAt : Cursor)
    (accepted : List Version) :
    (runPush producer surroundings source col saved savedAt accepted).1.sent =
        (runPosts producer surroundings source col saved savedAt accepted).map Post.body ∧
      (∀ post ∈ runPosts producer surroundings source col saved savedAt accepted,
        post.body.records = post.group.map (fun row => stripServerSideCols row.json)) ∧
      ((∀ post ∈ runPosts producer surroundings source col saved savedAt accepted,
          ∀ row ∈ post.group, Carries producer post.body row) ↔
        ∀ post ∈ runPosts producer surroundings source col saved savedAt accepted,
          ∀ a ∈ post.page, ∀ b ∈ post.page, runOf a = some post.run → runOf b = some post.run →
            Alike a b) := by
  refine ⟨runPush_sent saved savedAt accepted, fun post member => (mem_runPosts member).records, ?_⟩
  exact forall₂_congr (fun post member => (mem_runPosts member).carries_iff)

/-! ## One run of two sources -/

/-- A row of one run, from a source. -/
def rowFrom (offset : Nat) (origin : Str) : SourceRow where
  xmin := 1
  ctid := (0, offset)
  stamps _ := some 0
  toJsonb := some <| .object [("source".str, .string origin), ("source_endpoint".str, .string "x".str),
    ("source_run_id".str, .string "r".str), ("v".str, .ofNat offset)]

/-- Two rows of one run that came from two sources. -/
def mixed : SourceTable where
  types _ := some "timestamp with time zone".str
  rows := [rowFrom 1 "fmp".str, rowFrom 2 "sec".str]
  unique := Delivered.places_nodup

/-- One batch is posted, as if both rows came from the first one's source. -/
theorem mixed_mislabelled :
    ∃ post ∈ runPosts Delivered.divs (Delivered.answering 0 (.allBut [])) mixed "ingest_ts".str none
      ⟨none, none⟩ [], ∃ row ∈ post.group, ¬ Carries Delivered.divs post.body row := by
  have observed : (runPosts Delivered.divs (Delivered.answering 0 (.allBut [])) mixed
      "ingest_ts".str none ⟨none, none⟩ []).map (fun post =>
        (post.body.source, post.group.map (fun row => textOf row "source".str))) =
      [("fmp".str, [some "fmp".str, some "sec".str])] := by decide +kernel
  have inMap : ("fmp".str, [some "fmp".str, some "sec".str]) ∈ _ :=
    observed ▸ List.mem_singleton_self _
  obtain ⟨post, member, seen⟩ := List.mem_map.mp inMap
  obtain ⟨envelope, sources⟩ := Prod.mk.inj seen
  have second : some "sec".str ∈ post.group.map (fun row => textOf row "source".str) := by
    rw [sources]
    simp
  obtain ⟨row, inGroup, named⟩ := List.mem_map.mp second
  refine ⟨post, member, row, inGroup, fun carries => ?_⟩
  rw [carries.1, envelope] at named
  exact absurd named (by decide)

end LumidPlatform.Sync.Posted
