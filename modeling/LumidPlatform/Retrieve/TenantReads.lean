import LumidPlatform.Blobs.Privacy
import LumidPlatform.Retrieve.Replayer

/-!
# Tenant blobs on every read path

Four requests read the object store. The two blob handlers ask whose object a key names;
a `storage_get` step of a plan does not, and neither do the two ways to run a plan. So a
plan gives away the object of another tenant exactly when its run gets to it, and then
either the size check or the finished output tells of its bytes.
-/

namespace LumidPlatform.Retrieve.TenantReads

open Plan Blobs Replayer

/-! ## What a caller obtains -/

inductive Request where
  /-- `GET /blobs/{key}` -/
  | getBlob (key : Str)
  /-- `GET /me/blobs/{sha256}` -/
  | getMyBlob (sha : Str)
  /-- `POST /retrieve` -/
  | postRetrieve (body : Json)
  /-- The agent's `replay_retrieval_plan`. -/
  | replayTool (args : JsonMap)

/-- What a request gives its caller. Internal errors show a request id, not their cause. -/
inductive Obtained where
  | response (response : Response)
  | refused (status : Nat) (detail : Json)
  | toolError (text : Str)
  | materialized (value : Json) (written : Written)
  | panicked

/-- The end of a run, with the form its caller sees an error in. -/
def concluded (seen : ApiError → Obtained) :
    Option (ApiResult (RetrievalResult × Written)) → Obtained
  | none => .panicked
  | some (.error error) => seen error
  | some (.ok (result, written)) => .materialized (toValue result) written

/-- An error as `POST /retrieve` answers with it. -/
def refused (rid : Str) (error : ApiError) : Obtained := .refused error.status (error.detail rid)

/-- An error as the agent reports it. -/
def toolError (error : ApiError) : Obtained :=
  .toolError ("tool 'replay_retrieval_plan' error: ".str ++ error.toText)

/-- A parsed request is replayed. -/
def replayParsed (state : RetrievalState) (content : Content) (moment : Moment) :
    ApiResult (RetrievalPlan × OutputFormat) → Option (ApiResult (RetrievalResult × Written))
  | .error error => some (.error error)
  | .ok (plan, format) => replay state content plan format moment

def answered (state : RetrievalState) (rid : Str) : ApiResult Response → Obtained
  | .ok response => .response response
  | .error error => .response (error.intoResponse state.blobs.crates rid)

/-- All that a request gives its caller, the materialized object included. -/
def obtained (state : RetrievalState) (moment : Moment) (rid : Str) (identity : Identity)
    (content : Content) : Request → Obtained
  | .getBlob key => answered state rid (serveBlob state.blobs content identity key)
  | .getMyBlob sha => answered state rid (fetch state.blobs content identity sha)
  | .postRetrieve body =>
    concluded (refused rid) (replayParsed state content moment (parseRequest state body))
  | .replayTool args =>
    concluded toolError (replayParsed state content moment (parseArgs state args))

/-- Other tenants' bytes change nothing that the request gives its caller. -/
def Protected (state : RetrievalState) (moment : Moment) (rid : Str) (identity : Identity)
    (content : Content) (request : Request) : Prop :=
  ∀ content', SameReadable state.blobs.store identity content content' →
    obtained state moment rid identity content' request =
      obtained state moment rid identity content request

/-! ## When a plan gives bytes away -/

/-- A step that cannot fail: a query the guard and the database take, within the row cap;
an object that is there, within the size limit, and can be read. -/
def Passes (state : RetrievalState) (content : Content) : RetrievalOp → Prop
  | .sql query => isSafeSelect state.blobs.crates.unicode query = some true ∧
      ∃ rows, state.query (setup state.settings) (wrapSelectWithCap (cleaned query)
        (probeLimit state.settings.retrievalRowCap)) = .ok rows ∧
        rows.length ≤ state.settings.retrievalRowCap
  | .storageGet _ key => ∃ clean object, sanitizeKey key = some clean ∧
      state.blobs.store.get content (state.blobs.store.path clean) = .ok object ∧
      (state.blobs.blobMaxBytes = 0 ∨ object.bytes.length ≤ state.blobs.blobMaxBytes) ∧
      state.blobs.store.bodyFails (state.blobs.store.path clean) = none

/-- A step that gets the object of a tenant the caller may not read. -/
def GetsPrivate (state : RetrievalState) (identity : Identity) (content : Content)
    (op : RetrievalOp) : Prop :=
  ∃ bucket key clean owner object, op = .storageGet bucket key ∧ sanitizeKey key = some clean ∧
    tenantOwnerOf clean = some owner ∧ mayReadTenant identity owner = false ∧
    state.blobs.store.get content (state.blobs.store.path clean) = .ok object

/-- The store takes the materialized output. -/
def Accepts (store : ObjectStore) (path : Str) : Prop :=
  store.putFails path true = none ∨
    ∃ text, store.putFails path true = some (.notImplemented text) ∧
      store.putFails path false = none

/-- Where the output goes. -/
def outputPath (state : RetrievalState) (format : OutputFormat) (moment : Moment) : Str :=
  state.blobs.store.path (state.settings.retrievalPrefix ++ '/' :: moment.runId ++
    "/result.".str ++ format.extension)

/-- The run gets to the object of another tenant, and there is a size limit to tell of its
size, or the run comes through and tells of its bytes. -/
def Exposes (state : RetrievalState) (moment : Moment) (identity : Identity) (content : Content)
    (plan : RetrievalPlan) (format : OutputFormat) : Prop :=
  ∃ before op after, plan.plan = before ++ op :: after ∧
    (∀ earlier ∈ before, Passes state content earlier) ∧
    GetsPrivate state identity content op ∧
    (0 < state.blobs.blobMaxBytes ∨
      ((∀ later ∈ op :: after, Passes state content later) ∧
        Accepts state.blobs.store (outputPath state format moment)))

/-- The plan of a request exposes an object; blob requests have none. -/
def Exposed (state : RetrievalState) (moment : Moment) (identity : Identity) (content : Content) :
    Request → Prop
  | .getBlob _ => False
  | .getMyBlob _ => False
  | .postRetrieve body => ∃ plan format, parseRequest state body = .ok (plan, format) ∧
      Exposes state moment identity content plan format
  | .replayTool args => ∃ plan format, parseArgs state args = .ok (plan, format) ∧
      Exposes state moment identity content plan format

variable {state : RetrievalState} {moment : Moment} {identity : Identity}
  {content content' : Content} {format : OutputFormat}

/-! ## Steps -/

theorem sanitizeBlobKey_some {key clean : Str} (sanitized : sanitizeKey key = some clean) :
    sanitizeBlobKey key = .ok clean := by
  rw [sanitizeBlobKey, sanitized]

/-- A step passes when it fetches something. -/
theorem passes_iff (op : RetrievalOp) :
    Passes state content op ↔ ∃ fetched, fetchOp state content op = some (.ok fetched) := by
  cases op with
  | sql query =>
    rw [Passes, fetchOp]
    constructor
    · rintro ⟨safe, rows, ran, few⟩
      refine ⟨.rows (rows.map recordOf), ?_⟩
      rw [safe]
      simp only [executeSqlOp, ran, if_neg (Nat.not_lt.mpr few)]
      rfl
    · rintro ⟨fetched, done⟩
      split at done
      · simp at done
      · simp at done
      · rename_i safe
        refine ⟨safe, ?_⟩
        obtain ⟨records, ran, -⟩ := ApiResult.map_eq_ok.mp (Option.some.inj done)
        rw [executeSqlOp] at ran
        split at ran
        · simp at ran
        · rename_i rows answered
          split_ifs at ran with many
          exact ⟨rows, answered, Nat.not_lt.mp many⟩
  | storageGet bucket key =>
    rw [Passes, fetchOp]
    constructor
    · rintro ⟨clean, object, sanitized, there, fits, whole⟩
      refine ⟨.object object.bytes, ?_⟩
      have small : ¬ (0 < state.blobs.blobMaxBytes ∧
          state.blobs.blobMaxBytes < object.bytes.length) := by omega
      simp only [storageGet, sanitizeBlobKey_some sanitized, there, boundedBody, if_neg small,
        ObjectStore.readBody, whole]
      rfl
    · rintro ⟨fetched, done⟩
      obtain ⟨bytes, got, -⟩ := ApiResult.map_eq_ok.mp (Option.some.inj done)
      cases sanitized : sanitizeKey key with
      | none => simp [storageGet, sanitizeBlobKey, sanitized] at got
      | some clean =>
        simp only [storageGet, sanitizeBlobKey_some sanitized] at got
        split at got
        · simp at got
        · rename_i object there
          rw [boundedBody] at got
          split_ifs at got with large
          refine ⟨clean, object, rfl, there, by omega, ?_⟩
          cases broken : state.blobs.store.bodyFails (state.blobs.store.path clean) with
          | none => rfl
          | some error => simp [ObjectStore.readBody, broken] at got

/-- A step that gets no private object fetches the same. -/
theorem fetchOp_same (same : SameReadable state.blobs.store identity content content')
    {op : RetrievalOp} (public' : ¬ GetsPrivate state identity content op) :
    fetchOp state content' op = fetchOp state content op := by
  cases op with
  | sql query => rfl
  | storageGet bucket key =>
    rw [fetchOp, fetchOp]
    cases sanitized : sanitizeKey key with
    | none => simp only [storageGet, sanitizeBlobKey, sanitized]
    | some clean =>
      have equal : state.blobs.store.get content' (state.blobs.store.path clean) =
          state.blobs.store.get content (state.blobs.store.path clean) := by
        by_cases secret : Private state.blobs.store identity (state.blobs.store.path clean)
        · apply same.get_private
          intro object there
          obtain ⟨raw, key', owner, sanitized', path, owned, refused⟩ := secret
          obtain rfl := state.blobs.store.path_injective raw key key' clean sanitized' sanitized path
          exact public' ⟨bucket, key, key', owner, object, rfl, sanitized, owned, refused, there⟩
        · exact same.get secret
      simp only [storageGet, sanitizeBlobKey_some sanitized, equal]

/-! ## Runs -/

/-- A run adds to its chain. -/
theorem replayOps_extends {ops : List RetrievalOp} {progress done : Progress}
    (ran : replayOps state content format moment ops progress = some (.ok done)) :
    ∃ more, done.accessChain = progress.accessChain ++ more := by
  induction ops generalizing progress with
  | nil =>
    obtain rfl := Except.ok.inj (Option.some.inj ran)
    exact ⟨[], by simp⟩
  | cons op rest inductionHypothesis =>
    rw [replayOps] at ran
    split at ran
    · simp at ran
    · simp at ran
    · obtain ⟨more, chain⟩ := inductionHypothesis ran
      exact ⟨_, by rw [chain, List.append_assoc]⟩

variable (moment format) in
/-- Steps that fetch something are left behind, with a progress that depends on what they
fetch alone. -/
theorem replayOps_passed {before : List RetrievalOp} (progress : Progress)
    (pass : ∀ op ∈ before, Passes state content op) :
    ∃ reached : Progress, ∀ other, (∀ op ∈ before, fetchOp state other op = fetchOp state content op) →
      ∀ rest, replayOps state other format moment (before ++ rest) progress =
        replayOps state other format moment rest reached := by
  induction before generalizing progress with
  | nil => exact ⟨progress, fun _ _ _ => rfl⟩
  | cons op before inductionHypothesis =>
    obtain ⟨fetched, done⟩ := (passes_iff op).mp (pass op List.mem_cons_self)
    obtain ⟨reached, rest'⟩ := inductionHypothesis
      ⟨progress.accessChain ++ [stepOf op fetched (moment.stepMs progress.accessChain.length)],
        (recordStep state.blobs.crates format op fetched progress.materializer).1,
        progress.totalRows +
          (recordStep state.blobs.crates format op fetched progress.materializer).2⟩
      (fun earlier member => pass earlier (List.mem_cons_of_mem op member))
    refine ⟨reached, fun other alike rest => ?_⟩
    rw [← rest' other (fun earlier member => alike earlier (List.mem_cons_of_mem op member)) rest,
      List.cons_append, replayOps, alike op List.mem_cons_self, done]

variable (moment format) in
/-- A run that gets no private object, as far as it gets, is the same. -/
theorem replayOps_same (same : SameReadable state.blobs.store identity content content')
    (ops : List RetrievalOp) (progress : Progress)
    (public' : ∀ before op after, ops = before ++ op :: after →
      (∀ earlier ∈ before, Passes state content earlier) →
      ¬ GetsPrivate state identity content op) :
    replayOps state content' format moment ops progress =
      replayOps state content format moment ops progress := by
  induction ops generalizing progress with
  | nil => rfl
  | cons op rest inductionHypothesis =>
    rw [replayOps, replayOps, fetchOp_same same (public' [] op rest rfl (by simp))]
    split
    · rfl
    · rfl
    · rename_i fetched done
      apply inductionHypothesis
      intro before later after shape pass
      apply public' (op :: before) later after (by rw [shape]; rfl)
      intro earlier member
      rcases List.mem_cons.mp member with rfl | inBefore
      · exact (passes_iff earlier).mpr ⟨fetched, done⟩
      · exact pass earlier inBefore

/-! ## Runs without a size limit -/

/-- How a computation ends, without what it returns. -/
def ended {T : Type} (result : Option (ApiResult T)) : Option (ApiResult Unit) :=
  result.map (Except.map (fun _ => ()))

/-- Two computations that end the same way. -/
theorem ended_cases {T : Type} {result result' : Option (ApiResult T)}
    (same : ended result' = ended result) :
    (result = none ∧ result' = none) ∨
      (∃ error, result = some (.error error) ∧ result' = some (.error error)) ∨
      ∃ value value', result = some (.ok value) ∧ result' = some (.ok value') := by
  match result, result' with
  | none, none => exact Or.inl ⟨rfl, rfl⟩
  | some (.error error), some (.error error') =>
    obtain rfl : error' = error := by simpa [ended, Except.map] using same
    exact Or.inr (Or.inl ⟨error', rfl, rfl⟩)
  | some (.ok value), some (.ok value') => exact Or.inr (Or.inr ⟨value, value', rfl, rfl⟩)
  | none, some _ => simp [ended] at same
  | some _, none => simp [ended] at same
  | some (.ok _), some (.error _) => simp [ended, Except.map] at same
  | some (.error _), some (.ok _) => simp [ended, Except.map] at same

/-- Without a size limit, no step ends by the bytes of a private object. -/
theorem fetchOp_ended (same : SameReadable state.blobs.store identity content content')
    (unlimited : state.blobs.blobMaxBytes = 0) (op : RetrievalOp) :
    ended (fetchOp state content' op) = ended (fetchOp state content op) := by
  by_cases secret : GetsPrivate state identity content op
  · obtain ⟨bucket, key, clean, owner, object, rfl, sanitized, -, -, there⟩ := secret
    obtain ⟨object', there'⟩ := same.get_ok there
    have anySize : ∀ size, ¬ (0 < state.blobs.blobMaxBytes ∧ state.blobs.blobMaxBytes < size) := by
      intro size limited
      omega
    simp only [fetchOp, storageGet, sanitizeBlobKey_some sanitized, there, there', boundedBody,
      if_neg (anySize _), ObjectStore.readBody]
    cases state.blobs.store.bodyFails (state.blobs.store.path clean) with
    | none => rfl
    | some error => rfl
  · rw [fetchOp_same same secret]

variable (moment format) in
/-- Nor does a run. -/
theorem replayOps_ended (same : SameReadable state.blobs.store identity content content')
    (unlimited : state.blobs.blobMaxBytes = 0) (ops : List RetrievalOp)
    (progress progress' : Progress) :
    ended (replayOps state content' format moment ops progress') =
      ended (replayOps state content format moment ops progress) := by
  induction ops generalizing progress progress' with
  | nil => rfl
  | cons op rest inductionHypothesis =>
    rw [replayOps, replayOps]
    rcases ended_cases (fetchOp_ended same unlimited op) with
      ⟨here, there⟩ | ⟨error, here, there⟩ | ⟨fetched, fetched', here, there⟩
    · rw [here, there]
    · rw [here, there]
    · rw [here, there]
      apply inductionHypothesis

/-- All steps of a run that comes through have passed. -/
theorem passes_of_replayOps {ops : List RetrievalOp} {progress done : Progress}
    (ran : replayOps state content format moment ops progress = some (.ok done)) :
    ∀ op ∈ ops, Passes state content op := by
  induction ops generalizing progress with
  | nil => simp
  | cons op rest inductionHypothesis =>
    rw [replayOps] at ran
    split at ran
    · simp at ran
    · simp at ran
    · rename_i fetched here
      intro other member
      rcases List.mem_cons.mp member with rfl | later
      · exact (passes_iff other).mpr ⟨fetched, here⟩
      · exact inductionHypothesis ran other later

/-! ## The end of a run -/

/-- An output the store takes comes with the chain of the run. -/
theorem finish_accepted (accepts : Accepts state.blobs.store (outputPath state format moment))
    (progress : Progress) : ∃ result written,
      finish state format moment progress = .ok (result, written) ∧
        result.accessChain = progress.accessChain := by
  have stored : ∃ object, state.blobs.store.putWithOptionalAttrs (outputPath state format moment)
      progress.materializer.buf format.contentType = .ok object := by
    rcases accepts with whole | ⟨text, plain, bare⟩
    · refine ⟨⟨progress.materializer.buf, some format.contentType⟩, ?_⟩
      rw [ObjectStore.putWithOptionalAttrs, whole]
    · refine ⟨⟨progress.materializer.buf, none⟩, ?_⟩
      rw [ObjectStore.putWithOptionalAttrs, plain]
      simp only [bare]
  obtain ⟨object, put⟩ := stored
  rw [outputPath] at put
  simp only [finish, writeToStore, put]
  exact ⟨_, _, rfl, rfl⟩

variable (state moment format) in
/-- A store that does not take the output says so whatever the output is. -/
theorem finish_refused (refuses : ¬ Accepts state.blobs.store (outputPath state format moment)) :
    ∃ error, ∀ progress, finish state format moment progress = .error error := by
  have failed : ∃ error, ∀ bytes, state.blobs.store.putWithOptionalAttrs
      (outputPath state format moment) bytes format.contentType = .error error := by
    cases first : state.blobs.store.putFails (outputPath state format moment) true with
    | none => exact absurd (Or.inl first) refuses
    | some error =>
      cases error with
      | notFound text => exact ⟨_, fun bytes => by rw [ObjectStore.putWithOptionalAttrs, first]⟩
      | other text => exact ⟨_, fun bytes => by rw [ObjectStore.putWithOptionalAttrs, first]⟩
      | notImplemented text =>
        cases second : state.blobs.store.putFails (outputPath state format moment) false with
        | none => exact absurd (Or.inr ⟨text, first, second⟩) refuses
        | some error =>
          exact ⟨error, fun bytes => by
            rw [ObjectStore.putWithOptionalAttrs, first]; simp only [second]⟩
  obtain ⟨error, put⟩ := failed
  refine ⟨.internal ("object store write failed: ".str ++ error.text), fun progress => ?_⟩
  have here := put progress.materializer.buf
  rw [outputPath] at here
  simp only [finish, writeToStore, here]
  rfl

/-- Results with one JSON form have chains with one JSON form. -/
theorem toValue_chain {result result' : RetrievalResult} (same : toValue result = toValue result') :
    result.accessChain.map stepValue = result'.accessChain.map stepValue := by
  simp only [toValue, Json.object.injEq, List.cons.injEq, Prod.mk.injEq, Json.array.injEq] at same
  exact same.2.2.2.2.1.2

theorem stepValue_amount {step step' : AccessChainStep} (same : stepValue step = stepValue step') :
    step.rowsOrBytes = step'.rowsOrBytes := by
  simp only [stepValue, Json.object.injEq, List.cons.injEq, Prod.mk.injEq, Json.ofNat,
    Json.number.injEq, JsonNumber.int.injEq, Int.natCast_inj] at same
  exact same.2.2.2.2.1.2

/-! ## Plans -/

/-- The content with other bytes in one place. -/
def withBytes (content : Content) (path : Str) (object : Object) (size : Nat) : Content :=
  Function.update content path (some ⟨List.replicate size 0, object.contentType⟩)

/-- A step that reads a path. -/
def reads (state : RetrievalState) (path : Str) : RetrievalOp → Bool
  | .sql _ => false
  | .storageGet _ key => (sanitizeKey key).any (fun clean => state.blobs.store.path clean == path)

/-- A step that does not read the path fetches the same. -/
theorem fetchOp_elsewhere {path : Str} {object : Object} {size : Nat} {op : RetrievalOp}
    (elsewhere : reads state path op = false) :
    fetchOp state (withBytes content path object size) op = fetchOp state content op := by
  cases op with
  | sql query => rfl
  | storageGet bucket key =>
    rw [fetchOp, fetchOp]
    cases sanitized : sanitizeKey key with
    | none => simp only [storageGet, sanitizeBlobKey, sanitized]
    | some clean =>
      have other : state.blobs.store.path clean ≠ path := by
        simpa [reads, sanitized] using elsewhere
      simp only [storageGet, sanitizeBlobKey_some sanitized, ObjectStore.get, withBytes,
        Function.update_of_ne other]

/-- The first step of a list that reads a path, which some step of it does. -/
theorem first_reader {path : Str} (before after : List RetrievalOp) {op : RetrievalOp}
    (reader : reads state path op = true) :
    ∃ before' first after', before ++ op :: after = before' ++ first :: after' ∧
      (∀ earlier ∈ before', earlier ∈ before ∧ reads state path earlier = false) ∧
      reads state path first = true := by
  have some' : ((before ++ [op]).find? (reads state path)).isSome = true := by
    rw [List.find?_isSome]
    exact ⟨op, by simp, reader⟩
  obtain ⟨first, found⟩ := Option.isSome_iff_exists.mp some'
  obtain ⟨readsFirst, before', after', split, none'⟩ := List.find?_eq_some_iff_append.mp found
  refine ⟨before', first, after' ++ after, ?_, fun earlier member => ?_, readsFirst⟩
  · rw [← List.cons_append, ← List.append_assoc, ← split]
    simp
  · have unread : reads state path earlier = false := by simpa using none' earlier member
    refine ⟨?_, unread⟩
    have inside : earlier ∈ before ++ [op] := by
      rw [split]
      exact List.mem_append_left _ member
    rcases List.mem_append.mp inside with inBefore | last
    · exact inBefore
    · rw [List.mem_singleton.mp last, reader] at unread
      exact absurd unread (by decide)

/-- A step that reads the path gets the bytes put there. -/
theorem fetchOp_reader {path : Str} {object : Object} {op : RetrievalOp}
    (reader : reads state path op = true) (works : state.blobs.store.getFails path = none) :
    ∃ bucket key, op = .storageGet bucket key ∧ ∀ size,
      fetchOp state (withBytes content path object size) op =
        some ((boundedBody state key path ⟨List.replicate size 0, object.contentType⟩).map
          .object) := by
  cases op with
  | sql query => simp [reads] at reader
  | storageGet bucket key =>
    obtain ⟨clean, sanitized, here⟩ := (Option.any_eq_true _ _).mp reader
    obtain rfl : state.blobs.store.path clean = path := by simpa using here
    refine ⟨bucket, key, rfl, fun size => ?_⟩
    simp only [fetchOp, storageGet, sanitizeBlobKey_some sanitized, ObjectStore.get, works,
      withBytes, Function.update_self]

/-- Other bytes of a private object are no difference the caller may see. -/
theorem withBytes_same {path : Str} {object : Object} (size : Nat)
    (secret : Private state.blobs.store identity path) (there : content path = some object) :
    SameReadable state.blobs.store identity content (withBytes content path object size) := by
  intro other
  by_cases same : other = path
  · subst same
    exact Or.inr ⟨secret, object, List.replicate size 0, there, Function.update_self ..⟩
  · exact Or.inl (Function.update_of_ne same _ _)

variable {seen : ApiError → Obtained} {plan : RetrievalPlan}

/-- What a caller sees of a run that fails in one of its steps. -/
theorem concluded_error {error : ApiError} (nonempty : plan.plan ≠ [])
    (failed : replayOps state content format moment plan.plan ⟨[], Materializer.new format, 0⟩ =
      some (.error error)) :
    concluded seen (replay state content plan format moment) = seen error := by
  rw [replay, if_neg (by simpa using nonempty), failed]
  rfl

/-- What a caller sees of a run that comes through. -/
theorem concluded_ok {done : Progress} (nonempty : plan.plan ≠ [])
    (ran : replayOps state content format moment plan.plan ⟨[], Materializer.new format, 0⟩ =
      some (.ok done))
    (accepts : Accepts state.blobs.store (outputPath state format moment)) :
    ∃ result written, concluded seen (replay state content plan format moment) =
      .materialized (toValue result) written ∧ result.accessChain = done.accessChain := by
  obtain ⟨result, written, stored, chain⟩ := finish_accepted accepts done
  refine ⟨result, written, ?_, chain⟩
  rw [replay, if_neg (by simpa using nonempty), ran]
  simp only [stored]
  rfl

variable (moment format) in
/-- A run whose steps all pass comes through. -/
theorem replayOps_passes {ops : List RetrievalOp} (progress : Progress)
    (pass : ∀ op ∈ ops, Passes state content op) :
    ∃ done, replayOps state content format moment ops progress = some (.ok done) := by
  obtain ⟨reached, through⟩ := replayOps_passed moment format progress pass
  refine ⟨reached, ?_⟩
  have whole := through content (fun _ _ => rfl) []
  rwa [List.append_nil] at whole

variable (moment format) in
/-- Whatever bytes are put at a path, a run that gets to reading it gets there with one
progress, and fetches them. -/
theorem replayOps_reader {path : Str} (object : Object) {before : List RetrievalOp}
    (after : List RetrievalOp) {op : RetrievalOp} (progress : Progress)
    (pass : ∀ op ∈ before, Passes state content op)
    (reader : reads state path op = true) (works : state.blobs.store.getFails path = none) :
    ∃ bucket key after' reached, ∀ size,
      replayOps state (withBytes content path object size) format moment (before ++ op :: after)
          progress =
        replayOps state (withBytes content path object size) format moment
          (.storageGet bucket key :: after') reached ∧
      fetchOp state (withBytes content path object size) (.storageGet bucket key) =
        some ((boundedBody state key path ⟨List.replicate size 0, object.contentType⟩).map
          .object) := by
  obtain ⟨before', first, after', split, ahead, readsFirst⟩ :=
    first_reader before after reader
  obtain ⟨bucket, key, rfl, fetches⟩ := @fetchOp_reader state content _ object _ readsFirst
    works
  obtain ⟨reached, through⟩ := replayOps_passed moment format progress
    (fun earlier member => pass earlier (ahead earlier member).1)
  refine ⟨bucket, key, after', reached, fun size => ⟨?_, fetches size⟩⟩
  rw [split]
  exact through _ (fun earlier member => fetchOp_elsewhere (ahead earlier member).2) _

/-- What a caller sees of a run that gets to an operation which fails. -/
theorem concluded_refused {op : RetrievalOp} {rest : List RetrievalOp} {reached : Progress}
    {error : ApiError} (nonempty : plan.plan ≠ [])
    (reaches : replayOps state content format moment plan.plan ⟨[], Materializer.new format, 0⟩ =
      replayOps state content format moment (op :: rest) reached)
    (fetched : fetchOp state content op = some (.error error)) :
    concluded seen (replay state content plan format moment) = seen error := by
  apply concluded_error nonempty
  rw [reaches, replayOps, fetched]

/-- What a caller sees of one that gets to an operation which fetches something, and comes through:
the step of the operation stands in the chain. -/
theorem concluded_fetched {op : RetrievalOp} {rest : List RetrievalOp} {reached done : Progress}
    {fetched : Fetched} (nonempty : plan.plan ≠ [])
    (accepts : Accepts state.blobs.store (outputPath state format moment))
    (reaches : replayOps state content format moment plan.plan ⟨[], Materializer.new format, 0⟩ =
      replayOps state content format moment (op :: rest) reached)
    (ran : replayOps state content format moment plan.plan ⟨[], Materializer.new format, 0⟩ =
      some (.ok done)) (here : fetchOp state content op = some (.ok fetched)) :
    ∃ result written more, concluded seen (replay state content plan format moment) =
        .materialized (toValue result) written ∧ result.accessChain = reached.accessChain ++
          (stepOf op fetched (moment.stepMs reached.accessChain.length) :: more) := by
  obtain ⟨result, written, shown, chain⟩ := @concluded_ok _ _ _ _ seen _ _ nonempty ran accepts
  rw [reaches, replayOps, here] at ran
  obtain ⟨more, chain'⟩ := replayOps_extends ran
  refine ⟨result, written, more, shown, ?_⟩
  rw [chain, chain']
  simp

/-- A run that exposes an object ends differently for different bytes. -/
theorem not_protected_of_exposes
    (tells : ∀ key size size', seen (tooLarge key size) = seen (tooLarge key size') → size = size')
    (exposes : Exposes state moment identity content plan format) :
    ¬ ∀ content', SameReadable state.blobs.store identity content content' →
      concluded seen (replay state content' plan format moment) =
        concluded seen (replay state content plan format moment) := by
  intro protected'
  obtain ⟨before, op, after, shape, pass, secret, told⟩ := exposes
  obtain ⟨bucket, key, clean, owner, object, rfl, sanitized, owned, refused, there⟩ := secret
  obtain ⟨works, stored⟩ := ObjectStore.get_eq_ok.mp there
  have private' : Private state.blobs.store identity (state.blobs.store.path clean) :=
    ⟨key, clean, owner, sanitized, rfl, owned, refused⟩
  have nonempty : plan.plan ≠ [] := by
    rw [shape]
    simp
  have same : ∀ size, SameReadable state.blobs.store identity content
      (withBytes content (state.blobs.store.path clean) object size) :=
    fun size => withBytes_same size private' stored
  have alike : ∀ size size', concluded seen (replay state
        (withBytes content (state.blobs.store.path clean) object size) plan format moment) =
      concluded seen (replay state
        (withBytes content (state.blobs.store.path clean) object size') plan format moment) := by
    intro size size'
    rw [protected' _ (same size), protected' _ (same size')]
  have readsHere : reads state (state.blobs.store.path clean) (.storageGet bucket key) = true := by
    simp [reads, sanitized]
  obtain ⟨bucket', key', after', reached, run⟩ := replayOps_reader moment format object after
    ⟨[], Materializer.new format, 0⟩ pass readsHere works
  rw [← shape] at run
  by_cases limited : 0 < state.blobs.blobMaxBytes
  · have large : ∀ size, state.blobs.blobMaxBytes < size →
        concluded seen (replay state (withBytes content (state.blobs.store.path clean) object size)
          plan format moment) = seen (tooLarge key' size) := by
      intro size beyond
      refine concluded_refused nonempty (run size).1 ?_
      rw [(run size).2, boundedBody, if_pos (by simpa using ⟨limited, beyond⟩)]
      simp [Except.map]
    have equal := alike (state.blobs.blobMaxBytes + 1) (state.blobs.blobMaxBytes + 2)
    rw [large _ (by omega), large _ (by omega)] at equal
    have sizes := tells _ _ _ equal
    omega
  · obtain ⟨passLater, accepts⟩ := told.resolve_left limited
    have whole : state.blobs.store.bodyFails (state.blobs.store.path clean) = none := by
      obtain ⟨clean', object', sanitized', -, -, whole⟩ := passLater _ List.mem_cons_self
      rw [sanitized] at sanitized'
      obtain rfl := Option.some.inj sanitized'
      exact whole
    have passAll : ∀ op ∈ plan.plan, Passes state content op := by
      rw [shape]
      intro op member
      rcases List.mem_append.mp member with inBefore | later
      · exact pass op inBefore
      · exact passLater op later
    obtain ⟨done, ran⟩ := replayOps_passes moment format ⟨[], Materializer.new format, 0⟩ passAll
    have told' : ∀ size, ∃ result written more, concluded seen (replay state
          (withBytes content (state.blobs.store.path clean) object size) plan format moment) =
        .materialized (toValue result) written ∧ result.accessChain = reached.accessChain ++
          (stepOf (.storageGet bucket' key') (.object (List.replicate size 0))
            (moment.stepMs reached.accessChain.length) :: more) := by
      intro size
      have ends := replayOps_ended moment format (same size) (by omega) plan.plan
        ⟨[], Materializer.new format, 0⟩ ⟨[], Materializer.new format, 0⟩
      obtain ⟨done', ran'⟩ : ∃ done', replayOps state
          (withBytes content (state.blobs.store.path clean) object size) format moment plan.plan
            ⟨[], Materializer.new format, 0⟩ = some (.ok done') := by
        rcases ended_cases ends with ⟨here, -⟩ | ⟨error, here, -⟩ | ⟨_, done', -, there⟩
        · simp [ran] at here
        · simp [ran] at here
        · exact ⟨done', there⟩
      have fetched : fetchOp state (withBytes content (state.blobs.store.path clean) object size)
          (.storageGet bucket' key') = some (.ok (.object (List.replicate size 0))) := by
        have small : ¬ (0 < state.blobs.blobMaxBytes ∧ state.blobs.blobMaxBytes < size) := by omega
        rw [(run size).2, boundedBody, if_neg (by simpa using small)]
        simp [ObjectStore.readBody, whole, Except.map]
      exact concluded_fetched nonempty accepts (run size).1 ran' fetched
    obtain ⟨result, written, more, shown, chain⟩ := told' 0
    obtain ⟨result', written', more', shown', chain'⟩ := told' 1
    have equal := alike 0 1
    rw [shown, shown'] at equal
    have chains := toValue_chain (Obtained.materialized.inj equal).1
    rw [chain, chain', List.map_append, List.map_append, List.append_cancel_left_eq,
      List.map_cons, List.map_cons] at chains
    have amounts := stepValue_amount (List.cons.inj chains).1
    simp [stepOf] at amounts

/-- A plan gives away bytes of other tenants exactly when it exposes an object. -/
theorem replay_protected_iff
    (tells : ∀ key size size', seen (tooLarge key size) = seen (tooLarge key size') → size = size') :
    (∀ content', SameReadable state.blobs.store identity content content' →
      concluded seen (replay state content' plan format moment) =
        concluded seen (replay state content plan format moment)) ↔
      ¬ Exposes state moment identity content plan format := by
  constructor
  · intro protected' exposes
    exact not_protected_of_exposes tells exposes protected'
  · intro hidden content' same
    by_cases reached : ∃ before op after, plan.plan = before ++ op :: after ∧
        (∀ earlier ∈ before, Passes state content earlier) ∧ GetsPrivate state identity content op
    · obtain ⟨before, op, after, shape, pass, secret⟩ := reached
      have unlimited : state.blobs.blobMaxBytes = 0 := by
        by_contra limited
        exact hidden ⟨before, op, after, shape, pass, secret, Or.inl (Nat.pos_of_ne_zero limited)⟩
      have stops : ¬ ((∀ later ∈ op :: after, Passes state content later) ∧
          Accepts state.blobs.store (outputPath state format moment)) :=
        fun through => hidden ⟨before, op, after, shape, pass, secret, Or.inr through⟩
      have ends := replayOps_ended moment format same unlimited plan.plan
        ⟨[], Materializer.new format, 0⟩ ⟨[], Materializer.new format, 0⟩
      rw [replay, replay]
      rcases ended_cases ends with ⟨here, there⟩ | ⟨error, here, there⟩ | ⟨done, done', here, there⟩
      · rw [here, there]
      · rw [here, there]
      · have passAll := passes_of_replayOps here
        rw [shape] at passAll
        obtain ⟨error, fails⟩ := finish_refused state moment format (fun accepts => stops
            ⟨fun later member => passAll later (List.mem_append_right _ member), accepts⟩)
        rw [here, there]
        dsimp only
        rw [fails, fails]
    · have equal := replayOps_same moment format same plan.plan ⟨[], Materializer.new format, 0⟩
        (fun before op after shape pass secret => reached ⟨before, op, after, shape, pass, secret⟩)
      rw [replay, replay, equal]

/-! ## Requests -/

/-- The size in a refusal shows in its text. -/
theorem toText_tooLarge {key : Str} {size size' : Nat}
    (same : (tooLarge key size).toText = (tooLarge key size').toText) : size = size' := by
  simp only [tooLarge, ApiError.toText, List.append_cancel_left_eq,
    List.append_cancel_right_eq] at same
  exact Text.showNat_injective same

theorem refused_tells (rid key : Str) (size size' : Nat)
    (same : refused rid (tooLarge key size) = refused rid (tooLarge key size')) : size = size' := by
  have details := (Obtained.refused.inj same).2
  apply @toText_tooLarge key
  simpa [tooLarge, ApiError.detail] using details

theorem toolError_tells (key : Str) (size size' : Nat)
    (same : toolError (tooLarge key size) = toolError (tooLarge key size')) : size = size' := by
  have texts := Obtained.toolError.inj same
  exact toText_tooLarge (List.append_cancel_left texts)

/-- A parsed request is protected when its plan exposes nothing. -/
theorem replayParsed_protected_iff (moment : Moment)
    (tells : ∀ key size size', seen (tooLarge key size) = seen (tooLarge key size') → size = size')
    (parsed : ApiResult (RetrievalPlan × OutputFormat)) :
    (∀ content', SameReadable state.blobs.store identity content content' →
      concluded seen (replayParsed state content' moment parsed) =
        concluded seen (replayParsed state content moment parsed)) ↔
      ¬ ∃ plan format, parsed = .ok (plan, format) ∧
        Exposes state moment identity content plan format := by
  cases parsed with
  | error error =>
    constructor
    · rintro - ⟨plan, format, parses, -⟩
      simp at parses
    · intro _ content' _
      rfl
  | ok request =>
    obtain ⟨plan, format⟩ := request
    have plans := @replay_protected_iff state moment identity content format _ plan tells
    constructor
    · rintro protected' ⟨plan', format', parses, exposes⟩
      obtain ⟨rfl, rfl⟩ := Prod.mk.inj (Except.ok.inj parses)
      exact plans.mp protected' exposes
    · intro hidden
      exact plans.mpr (fun exposes => hidden ⟨plan, format, rfl, exposes⟩)

/-- A request protects the bytes of other tenants exactly when it exposes none of their
objects: always, for the two blob requests. -/
theorem protected_iff (state : RetrievalState) (moment : Moment) (rid : Str) (identity : Identity)
    (content : Content) (request : Request) :
    Protected state moment rid identity content request ↔
      ¬ Exposed state moment identity content request := by
  cases request with
  | getBlob key =>
    constructor
    · intro _ exposed
      exact exposed
    · intro _ content' same
      rw [obtained, obtained, serveBlob_same same]
  | getMyBlob sha =>
    constructor
    · intro _ exposed
      exact exposed
    · intro _ content' same
      rw [obtained, obtained, fetch_same same]
  | postRetrieve body =>
    exact replayParsed_protected_iff moment (refused_tells rid) (parseRequest state body)
  | replayTool args =>
    exact replayParsed_protected_iff moment toolError_tells (parseArgs state args)

/-! ## A plan that reads another tenant's object -/

/-- A plan in its JSON form, with its steps only. -/
def plainPlan (value : Json) : Except Str RetrievalPlan :=
  let op (item : Json) : Option RetrievalOp :=
    let members := item.asObject?.getD []
    let text (name : Str) : Option Str := (JsonMap.get members name).bind Json.asStr?
    match text "op".str, text "query".str, text "key".str with
    | some kind, some query, none => if kind = "sql".str then some (.sql query) else none
    | some kind, none, some key =>
      if kind = "storage_get".str then some (.storageGet (text "bucket".str) key) else none
    | _, _, _ => none
  let items := ((value.asObject?.bind (fun members => JsonMap.get members "plan".str)).bind
    Json.asArray?).getD []
  match items.mapM op with
  | some plan => .ok { plan }
  | none => .error "invalid step".str

/-- An instance whose store and tables work, without tables of blobs. -/
def plainState : RetrievalState where
  blobs :=
    { crates := Crates.plain
      blobRoot := "/app/blobs".str
      blobMaxBytes := 104857600
      store := ObjectStore.plain
      tables :=
        { contentTypeOf := fun _ => .ok none
          tenantRows := []
          tenantFails := none } }
  settings :=
    { retrievalStmtTimeoutMs := 30000
      retrievalRowCap := 1000000
      retrievalPrefix := "retrievals".str
      retrievalDbRole := [] }
  query := fun _ _ => .ok []
  planFromValue := plainPlan

/-- A store with the object of one tenant. -/
def aliceContent (bytes : Bytes) : Content := fun path =>
  if path = "tenants/alice/sha256=00".str then some ⟨bytes, none⟩ else none

/-- `POST /retrieve` with a plan of one step that gets the object. -/
def getsAlice : Request := .postRetrieve (.object [
  ("plan".str, .object [("plan".str, .array [.object [
    ("op".str, .string "storage_get".str),
    ("key".str, .string "tenants/alice/sha256=00".str)]])]),
  ("output_format".str, .string "raw".str)])

/-- The bytes of the materialized object. -/
def Obtained.bytes : Obtained → Option Bytes
  | materialized _ written => some written.object.bytes
  | _ => none

/-- What another user obtains by that plan depends on the bytes of the object. -/
theorem plan_reads_alice : ¬ Protected plainState ⟨"run".str, fun _ => 0, 0⟩ "rid".str
    { sub := "bob".str, role := "user".str } (aliceContent [1]) getsAlice := by
  intro protected'
  have same : SameReadable plainState.blobs.store { sub := "bob".str, role := "user".str }
      (aliceContent [1])
      (aliceContent [2]) := by
    intro path
    by_cases alice : path = "tenants/alice/sha256=00".str
    · subst alice
      refine Or.inr ⟨?_, ⟨[1], none⟩, [2], rfl, rfl⟩
      exact ⟨"tenants/alice/sha256=00".str, "tenants/alice/sha256=00".str, "alice".str,
        by decide +kernel, rfl, by decide +kernel, by decide +kernel⟩
    · left
      simp only [aliceContent, if_neg alice]
  have bytes := congrArg Obtained.bytes (protected' _ same)
  exact absurd bytes (by decide +kernel)

end LumidPlatform.Retrieve.TenantReads
