import Mathlib.Logic.Relation
import LumidPlatform.Sync.Delivered

/-!
# What a push reads

`Row::get` panics where a cell has no value of the type that is asked for. A push reads the
watermark of the last row of a page as an instant, the source of an endpoint as a text, and
whole rows of the table and of the provenance tables as JSON values. The column of the
watermark may be one without time zone, its cells may be `NULL`, and so may be the source of
an endpoint; and serde_json refuses documents that Postgres has, a number beyond an `f64` or
one that is nested too deep. A push panics exactly where it comes to such a cell; it comes to
a page when everything before it can be sent.
-/

namespace LumidPlatform.Sync.PushReads

open LumidPlatform.Write
open LumidPlatform.Sync.Delivered (remaining remaining_lt cursorAt readWatermark_ok
  postWithRetry_acked)

/-! ## The registry -/

/-- A row of `provenance.runs`, with what serde_json reads of what `to_jsonb` makes of it. -/
structure RunRow where
  json : Option Json
  endpointId : Str

/-- A row of `provenance.endpoints`, whose source may be `NULL`. -/
structure EndpointRow where
  json : Option Json
  source : Option Str

/-- A row of `provenance.api_sources`. -/
structure ApiSourceRow where
  json : Option Json

/-- The provenance tables of the producer, by their keys. -/
structure Registry where
  runs : Str → Option RunRow
  endpoints : Str → Option EndpointRow
  apiSources : Str → Option ApiSourceRow

/-- The source and the record of an endpoint, each read as a type that is not optional. -/
def EndpointRow.read (row : EndpointRow) : Option (Json × Str) :=
  row.json.bind (fun json => row.source.map (fun source => (json, source)))

/-- `build_preamble`, where `answers` tells which queries the database answers. -/
def buildPreamble (registry : Registry) (answers : ProvTable → Bool) (run : Str) :
    Except Unbuilt Preamble :=
  if !answers .runs then .error (.error databaseError)
  else
    match registry.runs run with
    | none => .ok {}
    | some runRow =>
      match runRow.json with
      | none => .error .panicked
      | some runJson =>
        if !answers .endpoints then .error (.error databaseError)
        else
          match registry.endpoints runRow.endpointId with
          | none => .ok { runs := [runJson] }
          | some endpointRow =>
            match endpointRow.read with
            | none => .error .panicked
            | some (endpointJson, source) =>
              if !answers .apiSources then .error (.error databaseError)
              else
                match registry.apiSources source with
                | none => .ok { endpoints := [endpointJson], runs := [runJson] }
                | some apiSourceRow =>
                  match apiSourceRow.json with
                  | none => .error .panicked
                  | some apiSourceJson =>
                    .ok {
                      apiSources := [apiSourceJson]
                      endpoints := [endpointJson]
                      runs := [runJson] }

/-- What a run meets apart from the tables of the producer. -/
structure Environment where
  answers : Str → ProvTable → Bool
  attempts : List Attempt
  reads : Nat → Bool
  saves : Nat → Bool

def Environment.surroundings (env : Environment) (registry : Registry) : Surroundings where
  preamble run := buildPreamble registry (env.answers run) run
  attempts := env.attempts
  reads := env.reads
  saves := env.saves

/-! ## What is read -/

variable {producer : Producer} {registry : Registry} {source : SourceTable} {col : Str}

/-- A watermark that can be read as an instant. -/
def Legible (producer : Producer) (source : SourceTable) (col : Str) (row : SourceRow) : Prop :=
  source.types col = some "timestamp with time zone".str ∧
    ∃ micros, row.stamps col = some micros ∧ producer.readable micros = true

/-- A cell that the preamble of a run is made of has no value of its type: the run is
registered with a record that serde_json refuses, or its endpoint is, or with an endpoint that
has no source, or the record of that source is refused. -/
def Unread (registry : Registry) (run : Str) : Prop :=
  ∃ runRow, registry.runs run = some runRow ∧
    (runRow.json = none ∨
      ∃ endpointRow, registry.endpoints runRow.endpointId = some endpointRow ∧
        (endpointRow.read = none ∨
          ∃ endpointJson source apiSourceRow, endpointRow.read = some (endpointJson, source) ∧
            registry.apiSources source = some apiSourceRow ∧ apiSourceRow.json = none))

/-- The run a group is sent for, if its first row has lineage. -/
def runOfGroup (producer : Producer) (group : List SourceRow) : Option Str :=
  match group with
  | [] => none
  | first :: _ =>
    match lineageOf producer first.json with
    | .error _ => none
    | .ok (_, _, run) => some run

/-- A group that can be sent. -/
def Sendable (producer : Producer) (registry : Registry) (group : List SourceRow) : Prop :=
  ∃ run, runOfGroup producer group = some run ∧ ¬Unread registry run

/-- The page after a cursor can be sent, and leads to another cursor. -/
def Passes (producer : Producer) (registry : Registry) (source : SourceTable) (col : Str)
    (cursor next : Cursor) : Prop :=
  ∃ last wm groups, (queryPage producer source col cursor).getLast? = some last ∧
    readWatermark producer source col last = some wm ∧
    allRead (queryPage producer source col cursor) = true ∧
    groupRows producer [] (queryPage producer source col cursor) = .ok groups ∧
    (∀ entry ∈ groups, Sendable producer registry entry.2) ∧
    next = ⟨some wm, some last.ctid⟩

/-- On the page after a cursor nothing is read that is not there: it ends in a row whose
watermark is legible, each of its rows is read, and no group for a run whose preamble cannot
be read comes after groups that can be sent only. -/
structure PageReads (producer : Producer) (registry : Registry) (source : SourceTable) (col : Str)
    (cursor : Cursor) : Prop where
  watermark : ∀ last, (queryPage producer source col cursor).getLast? = some last →
    Legible producer source col last
  records : allRead (queryPage producer source col cursor) = true
  provenance : ∀ groups sent entry later,
    groupRows producer [] (queryPage producer source col cursor) = .ok groups →
    groups = sent ++ entry :: later → (∀ earlier ∈ sent, Sendable producer registry earlier.2) →
    ∀ run, runOfGroup producer entry.2 = some run → ¬Unread registry run

/-- What a push can come to is read. A push that is refused comes to nothing, and so does one
whose pages are too large to ask for. -/
def EveryRead (producer : Producer) (registry : Registry) (source : SourceTable) (col : Str)
    (saved : Option CursorRow) : Prop :=
  ∀ first cursor, pushError producer source col = none → producer.batchRows < 2 ^ 63 →
    loadCursor producer.crates saved = .ok first →
    Relation.ReflTransGen (Passes producer registry source col) first cursor →
    PageReads producer registry source col cursor

theorem readWatermark_isSome {row : SourceRow} :
    (readWatermark producer source col row).isSome ↔ Legible producer source col row := by
  rw [readWatermark, Legible]
  split
  · rename_i zoned
    cases stamp : row.stamps col with
    | none => simp
    | some micros => by_cases inRange : producer.readable micros <;> simp [inRange, zoned]
  · rename_i zoneless
    simp [zoneless]

/-! ## A group -/

/-- The preamble of a run panics only at a cell without value. -/
theorem buildPreamble_panicked {answers : ProvTable → Bool} {run : Str}
    (panicked : buildPreamble registry answers run = .error .panicked) : Unread registry run := by
  rw [buildPreamble] at panicked
  split at panicked
  · cases panicked
  split at panicked
  · cases panicked
  rename_i runRow found
  refine ⟨runRow, found, ?_⟩
  split at panicked
  · rename_i refused
    exact Or.inl refused
  split at panicked
  · cases panicked
  split at panicked
  · cases panicked
  rename_i endpointRow foundEndpoint
  refine Or.inr ⟨endpointRow, foundEndpoint, ?_⟩
  split at panicked
  · rename_i refused
    exact Or.inl refused
  rename_i endpointJson source read
  split at panicked
  · cases panicked
  split at panicked
  · cases panicked
  rename_i apiSourceRow foundSource
  split at panicked
  · rename_i refused
    exact Or.inr ⟨endpointJson, source, apiSourceRow, read, foundSource, refused⟩
  · cases panicked

theorem buildPreamble_unread {answers : ProvTable → Bool} {run : Str}
    (answered : ∀ table, answers table = true) (unread : Unread registry run) :
    buildPreamble registry answers run = .error .panicked := by
  obtain ⟨runRow, found, refused | ⟨endpointRow, foundEndpoint, refused |
    ⟨endpointJson, source, apiSourceRow, read, foundSource, refused⟩⟩⟩ := unread
  · simp [buildPreamble, answered, found, refused]
  · cases json : runRow.json with
    | none => simp [buildPreamble, answered, found, json]
    | some runJson => simp [buildPreamble, answered, found, json, foundEndpoint, refused]
  · cases json : runRow.json with
    | none => simp [buildPreamble, answered, found, json]
    | some runJson =>
      simp [buildPreamble, answered, found, json, foundEndpoint, read, foundSource, refused]

/-- A run whose cells all have values has a preamble, if the database answers. -/
theorem buildPreamble_ok {answers : ProvTable → Bool} {run : Str}
    (answered : ∀ table, answers table = true) (read : ¬Unread registry run) :
    ∃ preamble, buildPreamble registry answers run = .ok preamble := by
  cases built : buildPreamble registry answers run with
  | ok preamble => exact ⟨preamble, rfl⟩
  | error unbuilt =>
    cases unbuilt with
    | panicked => exact absurd (buildPreamble_panicked built) read
    | error error =>
      rw [buildPreamble] at built
      simp only [answered, Bool.not_true, Bool.false_eq_true, if_false] at built
      split at built
      · cases built
      split at built
      · cases built
      split at built
      · cases built
      split at built
      · cases built
      split at built
      · cases built
      split at built
      · cases built
      · cases built

/-- The body of a group is made of its lineage and the preamble of its run. -/
theorem groupBody_cases (surroundings : Surroundings) (run : Str) (group : List SourceRow) :
    (runOfGroup producer group = none ∧
      ∃ error, groupBody producer surroundings run group = .error (.error error)) ∨
    ∃ runId, runOfGroup producer group = some runId ∧
      ((∃ unbuilt, surroundings.preamble runId = .error unbuilt ∧
        groupBody producer surroundings run group = .error unbuilt) ∨
      ∃ preamble body, surroundings.preamble runId = .ok preamble ∧
        groupBody producer surroundings run group = .ok body) := by
  cases group with
  | nil => exact Or.inl ⟨rfl, _, rfl⟩
  | cons first rest =>
    cases lineage : lineageOf producer first.json with
    | error error => exact Or.inl ⟨by simp [runOfGroup, lineage], error, by simp [groupBody, lineage]⟩
    | ok parts =>
      obtain ⟨from', endpoint, runId⟩ := parts
      refine Or.inr ⟨runId, by simp [runOfGroup, lineage], ?_⟩
      cases found : surroundings.preamble runId with
      | error unbuilt => exact Or.inl ⟨unbuilt, rfl, by simp [groupBody, lineage, found]⟩
      | ok preamble =>
        refine Or.inr ⟨preamble, ?_, rfl, ?_⟩
        rotate_left
        · simp only [groupBody, lineage, found]
          rfl

/-- A preamble that is built is for a run whose cells have values. -/
theorem buildPreamble_read {answers : ProvTable → Bool} {run : Str} {preamble : Preamble}
    (built : buildPreamble registry answers run = .ok preamble) : ¬Unread registry run := by
  rw [buildPreamble] at built
  rintro ⟨runRow, found, unread⟩
  rw [found] at built
  dsimp only at built
  split at built
  · cases built
  rcases unread with refused | ⟨endpointRow, foundEndpoint, unread⟩
  · simp [refused] at built
  split at built
  · cases built
  split at built
  · cases built
  rw [foundEndpoint] at built
  dsimp only at built
  rcases unread with refused | ⟨endpointJson, source, apiSourceRow, read, foundSource, refused⟩
  · simp [refused] at built
  · rw [read] at built
    dsimp only at built
    split at built
    · cases built
    · simp [foundSource, refused] at built

theorem groupBody_panicked {env : Environment} {run : Str} {group : List SourceRow}
    (panicked : groupBody producer (env.surroundings registry) run group = .error .panicked) :
    ∃ runId, runOfGroup producer group = some runId ∧ Unread registry runId := by
  rcases @groupBody_cases producer (env.surroundings registry) run group with
    ⟨-, error, built⟩ | ⟨runId, lineage, ⟨unbuilt, found, built⟩ | ⟨preamble, body, -, built⟩⟩
  · rw [built] at panicked
    cases panicked
  · rw [built] at panicked
    obtain rfl := Except.error.inj panicked
    exact ⟨runId, lineage, buildPreamble_panicked found⟩
  · rw [built] at panicked
    cases panicked

/-- A group that has a body can be sent. -/
theorem groupBody_sendable {env : Environment} {run : Str} {group : List SourceRow}
    {body : SyncApplyBody}
    (built : groupBody producer (env.surroundings registry) run group = .ok body) :
    Sendable producer registry group := by
  rcases groupBody_cases (env.surroundings registry) run group with
    ⟨-, error, failed⟩ | ⟨runId, lineage, ⟨unbuilt, -, failed⟩ | ⟨preamble, -, found, -⟩⟩
  · rw [failed] at built
    cases built
  · rw [failed] at built
    cases built
  · exact ⟨runId, lineage, buildPreamble_read found⟩

/-! ## A page -/

/-- The groups of a page break off unread only at a run whose preamble cannot be read, after
groups that can be sent. -/
theorem sendGroups_panicked {env : Environment} {groups : Groups} {p : Progress}
    (panicked : (sendGroups producer (env.surroundings registry) groups p).2 =
      some (.broken .panicked)) :
    ∃ sent entry later run, groups = sent ++ entry :: later ∧
      (∀ earlier ∈ sent, Sendable producer registry earlier.2) ∧
      runOfGroup producer entry.2 = some run ∧ Unread registry run := by
  induction groups generalizing p with
  | nil => cases panicked
  | cons entry rest inductionHypothesis =>
    obtain ⟨run, group⟩ := entry
    rw [sendGroups] at panicked
    split at panicked
    · rename_i unbuilt built
      obtain rfl := Stop.broken.inj (Option.some.inj panicked)
      obtain ⟨runId, lineage, unread⟩ := groupBody_panicked built
      exact ⟨[], (run, group), rest, runId, rfl, by simp, lineage, unread⟩
    · rename_i body built
      dsimp only at panicked
      split at panicked
      · cases Option.some.inj panicked
      · obtain ⟨sent, entry, later, runId, rfl, sendable, lineage, unread⟩ :=
          inductionHypothesis panicked
        refine ⟨(run, group) :: sent, entry, later, runId, rfl, ?_, lineage, unread⟩
        exact List.forall_mem_cons.mpr ⟨groupBody_sendable built, sendable⟩

/-- Groups that were all sent can all be sent. -/
theorem sendGroups_sendable {env : Environment} {groups : Groups} {p : Progress}
    (sent : (sendGroups producer (env.surroundings registry) groups p).2 = none) :
    ∀ entry ∈ groups, Sendable producer registry entry.2 := by
  induction groups generalizing p with
  | nil => simp
  | cons entry rest inductionHypothesis =>
    obtain ⟨run, group⟩ := entry
    rw [sendGroups] at sent
    split at sent
    · cases sent
    · rename_i body built
      dsimp only at sent
      split at sent
      · cases sent
      · exact List.forall_mem_cons.mpr ⟨groupBody_sendable built, inductionHypothesis sent⟩

/-- Nothing fails but the producer itself. -/
structure Calm (env : Environment) : Prop where
  answers : ∀ run table, env.answers run table = true
  reads : ∀ page, env.reads page = true
  saves : ∀ page, env.saves page = true

/-- A target that takes the next batch. -/
def acking : Attempt := ⟨.acked .null, .nothing⟩

/-- Groups that can be sent are sent to a target that takes them, whatever comes after them. -/
theorem sendGroups_acked {env : Environment} (calm : Calm env) (rest : Groups)
    (attempts : List Attempt) {sent : Groups} {p : Progress}
    (sendable : ∀ entry ∈ sent, Sendable producer registry entry.2)
    (taken : p.attempts = List.replicate sent.length acking ++ attempts) :
    ∃ p', p'.attempts = attempts ∧
      sendGroups producer (env.surroundings registry) (sent ++ rest) p =
        sendGroups producer (env.surroundings registry) rest p' := by
  induction sent generalizing p with
  | nil => exact ⟨p, taken, rfl⟩
  | cons entry later inductionHypothesis =>
    obtain ⟨run, group⟩ := entry
    obtain ⟨⟨runId, lineage, read⟩, others⟩ := List.forall_mem_cons.mp sendable
    obtain ⟨preamble, found⟩ := buildPreamble_ok (calm.answers runId) read
    rw [List.cons_append, sendGroups]
    rcases groupBody_cases (env.surroundings registry) run group with
      ⟨unknown, -⟩ | ⟨other, same, failed | ⟨preamble, body, -, built⟩⟩
    · rw [lineage] at unknown
      cases unknown
    · obtain rfl := Option.some.inj (lineage.symm.trans same)
      obtain ⟨unbuilt, missing, -⟩ := failed
      exact absurd (missing.symm.trans found) (by simp)
    · rw [built]
      dsimp only
      rw [taken, List.length_cons, List.replicate_succ, List.cons_append,
        postWithRetry_acked (show acking.reply = .acked .null from rfl)]
      exact inductionHypothesis others rfl

/-- At a run whose preamble cannot be read the groups break off, if those before it are sent. -/
theorem sendGroups_unread {env : Environment} (calm : Calm env) {sent later : Groups}
    {entry : Str × List SourceRow} {run : Str} {p : Progress}
    (sendable : ∀ earlier ∈ sent, Sendable producer registry earlier.2)
    (lineage : runOfGroup producer entry.2 = some run) (unread : Unread registry run)
    (taken : p.attempts = List.replicate sent.length acking) :
    ∃ p', sendGroups producer (env.surroundings registry) (sent ++ entry :: later) p =
      (p', some (.broken .panicked)) := by
  obtain ⟨p', -, same⟩ := sendGroups_acked calm (entry :: later) [] sendable (by simpa using taken)
  obtain ⟨name, group⟩ := entry
  refine ⟨p', same.trans ?_⟩
  have unbuilt := buildPreamble_unread (calm.answers run) unread
  rw [sendGroups]
  rcases groupBody_cases (env.surroundings registry) name group with
    ⟨unknown, -⟩ | ⟨other, found, ⟨reason, missing, built⟩ | ⟨preamble, body, built, -⟩⟩
  · rw [lineage] at unknown
    cases unknown
  · obtain rfl := Option.some.inj (lineage.symm.trans found)
    obtain rfl := Except.error.inj (missing.symm.trans unbuilt)
    rw [built]
  · obtain rfl := Option.some.inj (lineage.symm.trans found)
    exact absurd (built.symm.trans unbuilt) (by simp)

/-! ## The loop -/

/-- Where everything a push can come to is read, the loop does not panic. -/
theorem drain_reads {env : Environment} (fuel page : Nat) (p : Progress)
    (read : ∀ cursor, Relation.ReflTransGen (Passes producer registry source col) p.cursor cursor →
      PageReads producer registry source col cursor) :
    (drain producer (env.surroundings registry) source col fuel page p).2 ≠ .panicked := by
  induction fuel generalizing page p with
  | zero => simp [drain]
  | succ fuel inductionHypothesis =>
    have here := read p.cursor .refl
    rw [drain]
    split
    · simp
    dsimp only
    split
    · simp
    rename_i last isLast
    split
    · rename_i illegible
      have legible := readWatermark_isSome.mpr (here.watermark last isLast)
      simp [illegible] at legible
    rename_i wm legible
    split
    · rename_i refused
      simp [here.records] at refused
    rename_i whole
    have whole : allRead (queryPage producer source col p.cursor) = true := by simpa using whole
    split
    · simp
    rename_i groups grouped
    split
    · rename_i p' unbuilt stopped
      cases unbuilt with
      | error error => simp [Unbuilt.outcome]
      | panicked =>
        obtain ⟨sent, entry, later, run, parts, sendable, lineage, unread⟩ :=
          sendGroups_panicked (congrArg Prod.snd stopped)
        exact absurd unread
          (here.provenance groups sent entry later grouped parts sendable run lineage)
    · split_ifs <;> simp
    · rename_i p' sent
      split_ifs
      · apply inductionHypothesis
        intro cursor reached
        refine read cursor
          (.head ⟨last, wm, groups, isLast, legible, whole, grouped, ?_, rfl⟩ reached)
        exact sendGroups_sendable (congrArg Prod.snd sent)
      · simp

/-- A target for which the loop panics from a cursor on. -/
def Panics (producer : Producer) (registry : Registry) (source : SourceTable) (col : Str)
    (cursor : Cursor) : Prop :=
  ∃ attempts, ∀ env, Calm env → ∀ fuel page p, p.cursor = cursor → p.attempts = attempts →
    remaining source col cursor < fuel →
    (drain producer (env.surroundings registry) source col fuel page p).2 = .panicked

/-- A calm surrounding does not refuse the query for a page. -/
theorem Calm.not_refused {env : Environment} (calm : Calm env) (small : producer.batchRows < 2 ^ 63)
    (page : Nat) : (!(env.surroundings registry).reads page ||
      decide (2 ^ 63 ≤ producer.batchRows)) = false := by
  have reads : (env.surroundings registry).reads page = true := calm.reads page
  rw [reads, Bool.not_true, Bool.false_or, decide_eq_false_iff_not]
  exact not_le.mpr small

/-- A page with something that is not there makes the loop panic. -/
theorem panics_of_unread {cursor : Cursor} (small : producer.batchRows < 2 ^ 63)
    (unread : ¬PageReads producer registry source col cursor) :
    Panics producer registry source col cursor := by
  by_cases illegible : ∃ last, (queryPage producer source col cursor).getLast? = some last ∧
      readWatermark producer source col last = none
  · obtain ⟨last, isLast, unreadable⟩ := illegible
    refine ⟨[], fun env calm fuel page p same _ enough => ?_⟩
    obtain ⟨fuel, rfl⟩ := Nat.exists_eq_succ_of_ne_zero (Nat.ne_zero_of_lt enough)
    subst same
    simp only [drain, calm.not_refused small, isLast, unreadable, Bool.false_eq_true, if_false]
  · have readable : ∀ last, (queryPage producer source col cursor).getLast? = some last →
        ∃ wm, readWatermark producer source col last = some wm := by
      intro last isLast
      rw [← Option.isSome_iff_exists, Option.isSome_iff_ne_none]
      exact fun unreadable => illegible ⟨last, isLast, unreadable⟩
    have filled : queryPage producer source col cursor ≠ [] := by
      intro empty
      refine unread ⟨by simp [empty], by simp [empty, allRead], ?_⟩
      intro groups sent entry later grouped parts
      rw [empty, groupRows] at grouped
      obtain rfl := Except.ok.inj grouped
      simp at parts
    have isLast := List.getLast?_eq_some_getLast filled
    obtain ⟨wm, legible⟩ := readable _ isLast
    by_cases whole : allRead (queryPage producer source col cursor) = true
    · have missing : ¬∀ groups sent entry later,
          groupRows producer [] (queryPage producer source col cursor) = .ok groups →
          groups = sent ++ entry :: later →
          (∀ earlier ∈ sent, Sendable producer registry earlier.2) →
          ∀ run, runOfGroup producer entry.2 = some run → ¬Unread registry run := by
        refine fun provenance => unread ⟨fun last isLast => ?_, whole, provenance⟩
        exact readWatermark_isSome.mp (Option.isSome_iff_exists.mpr (readable last isLast))
      push Not at missing
      obtain ⟨groups, sent, entry, later, grouped, rfl, sendable, run, lineage, missing⟩ := missing
      refine ⟨List.replicate sent.length acking, fun env calm fuel page p same taken enough => ?_⟩
      obtain ⟨fuel, rfl⟩ := Nat.exists_eq_succ_of_ne_zero (Nat.ne_zero_of_lt enough)
      obtain ⟨p', stopped⟩ := @sendGroups_unread producer registry env calm sent later entry run
        p sendable lineage missing taken
      subst same
      simp only [drain, calm.not_refused small, isLast, legible, whole, grouped, stopped,
        Bool.not_true, Bool.false_eq_true, if_false, Unbuilt.outcome]
    · refine ⟨[], fun env calm fuel page p same _ enough => ?_⟩
      obtain ⟨fuel, rfl⟩ := Nat.exists_eq_succ_of_ne_zero (Nat.ne_zero_of_lt enough)
      subst same
      simp only [drain, calm.not_refused small, isLast, legible, whole, Bool.not_false,
        Bool.false_eq_true, if_false, if_true]

/-- A page that can be sent leads to what comes after it. -/
theorem panics_of_passes {cursor next : Cursor} (small : producer.batchRows < 2 ^ 63)
    (passes : Passes producer registry source col cursor next)
    (panics : Panics producer registry source col next) :
    Panics producer registry source col cursor := by
  obtain ⟨last, wm, groups, isLast, legible, whole, grouped, sendable, rfl⟩ := passes
  obtain ⟨attempts, panics⟩ := panics
  refine ⟨List.replicate groups.length acking ++ attempts,
    fun env calm fuel page p same taken enough => ?_⟩
  obtain ⟨fuel, rfl⟩ := Nat.exists_eq_succ_of_ne_zero (Nat.ne_zero_of_lt enough)
  obtain ⟨p', left, sent⟩ := sendGroups_acked calm [] attempts sendable taken
  rw [List.append_nil, sendGroups] at sent
  obtain ⟨micros, stamp, rfl⟩ := readWatermark_ok legible
  have less := remaining_lt isLast stamp
  subst same
  have saves : (env.surroundings registry).saves page = true := calm.saves page
  simp only [drain, calm.not_refused small, isLast, legible, whole, grouped, sent, saves,
    Bool.not_true, Bool.false_eq_true, if_false, if_true]
  exact panics env calm fuel (page + 1) _ rfl left (by rw [← cursorAt] at *; omega)

/-! ## A push -/

/-- Nothing fails, and the target takes two batches. -/
def quiet : Environment where
  answers _ _ := true
  attempts := [acking, acking]
  reads _ := true
  saves _ := true

/-- A registry with one run, whose record, and the source of whose endpoint, are given. -/
def oneRun (record : Option Json) (source : Option Str) : Registry where
  runs _ := some ⟨record, "x".str⟩
  endpoints _ := some ⟨some .null, source⟩
  apiSources _ := some ⟨some .null⟩

/-- A table of one row, with the type of its watermark column. -/
def oneRow (type : Str) (row : SourceRow) : SourceTable where
  types _ := some type
  rows := [row]
  unique := List.nodup_singleton row.ctid

/-- A row that serde_json refuses. -/
def refusedRow : SourceRow := { Delivered.rowAt 1 (some 0) with toJsonb := none }

/-- A push of such a table panics. -/
def panicsOn (source : SourceTable) (registry : Registry) : Bool :=
  match (runPush Delivered.divs (quiet.surroundings registry) source "ingest_ts".str none
    ⟨none, none⟩ []).2 with
  | .panicked => true
  | _ => false

end LumidPlatform.Sync.PushReads
