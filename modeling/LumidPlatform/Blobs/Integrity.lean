import LumidPlatform.Blobs.Write
import LumidPlatform.Lib.Transitions

/-!
# What a tenant's row promises

A row of `raw.tenant_blobs` names an object by its digest. Uploads, puts, deletions and
ingested blobs come in any order; the object of a row is there, and holds the bytes of its
digest, throughout exactly those runs in which no put or deletion under a key of the
caller's choice hits the object of a row.
-/

namespace LumidPlatform.Blobs.Integrity

open Transitions

/-! ## Requests -/

/-- What stays the same over a run. -/
structure Deployment where
  crates : Crates
  blobRoot : Str
  blobMaxBytes : Nat
  publicBaseUrl : Str
  store : ObjectStore

/-- The objects and tables that requests change. -/
structure Platform where
  content : Content
  rawBlobs : Str → Option RawBlob
  tenantRows : List TenantRow

/-- What the database and the store answer to one request besides what they hold. -/
structure Conditions where
  asks : Option ApiError := none
  records : Option ApiError := none
  openRun : ApiResult Str := .ok []
  insertFails : Option Str := none
  getFails : Str → Option StoreError := fun _ => none
  putFails : Str → Bool → Option StoreError := fun _ _ => none
  deleteFails : Str → Option StoreError := fun _ => none
  now : Str := []

inductive Request where
  | upload (identity : Identity) (headers : List (Str × Str)) (body : Bytes)
  | put (identity : Identity) (key : Str) (headers : List (Str × Str)) (body : Bytes)
  | delete (identity : Identity) (key : Str)
  | ingest (headers : List (Str × Str)) (body : Bytes)

/-- The bytes a request carries. -/
def Request.body : Request → Option Bytes
  | .upload _ _ body => some body
  | .put _ _ _ body => some body
  | .delete _ _ => none
  | .ingest _ body => some body

structure Call where
  request : Request
  conditions : Conditions

/-- The state a handler sees. -/
def Deployment.state (deployment : Deployment) (platform : Platform) (conditions : Conditions) :
    BlobState where
  crates := deployment.crates
  blobRoot := deployment.blobRoot
  blobMaxBytes := deployment.blobMaxBytes
  store := { deployment.store with
    getFails := conditions.getFails
    putFails := conditions.putFails }
  tables := {
    contentTypeOf := fun sha =>
      match conditions.asks with
      | some error => .error error
      | none => .ok ((platform.rawBlobs sha).map RawBlob.contentType)
    tenantRows := platform.tenantRows
    tenantFails := conditions.asks }

/-- An upload with the insertion of its row, which can fail once the object is there. -/
def recordUpload (deployment : Deployment) (platform : Platform) (conditions : Conditions)
    (identity : Identity) (headers : List (Str × Str)) (body : Bytes) :
    ApiResult UploadResponse × Platform :=
  match upload (deployment.state platform conditions) platform.content identity headers body
      conditions.now with
  | .error error => (.error error, platform)
  | .ok (answer, content, tables) =>
    if answer.alreadyExisted then (.ok answer, platform)
    else
      match conditions.records with
      | some error => (.error error, { platform with content })
      | none => (.ok answer, { platform with content, tenantRows := tables.tenantRows })

/-- `POST /ingest/blob`: an insertion keeps the row that is there. -/
def recordBlob (deployment : Deployment) (platform : Platform) (conditions : Conditions)
    (headers : List (Str × Str)) (body : Bytes) : Platform :=
  let tables : IngestTables := {
    lookupExisting := fun sha =>
      match conditions.asks with
      | some error => .error error
      | none => .ok (platform.rawBlobs sha)
    openRun := conditions.openRun
    insertFails := conditions.insertFails }
  let (_, content, recorded) :=
    postBlob (deployment.state platform conditions) deployment.publicBaseUrl tables
      platform.content headers body
  { platform with
    content
    rawBlobs := fun sha => (platform.rawBlobs sha).or
      ((recorded.filter (fun entry => entry.1 = sha)).map Prod.snd) }

/-- What a request leaves. -/
def after (deployment : Deployment) (platform : Platform) (call : Call) : Platform :=
  let state := deployment.state platform call.conditions
  match call.request with
  | .upload identity headers body =>
    (recordUpload deployment platform call.conditions identity headers body).2
  | .put identity key headers body =>
    match putBlob state platform.content identity key headers body with
    | .ok (_, content) => { platform with content }
    | .error _ => platform
  | .delete identity key =>
    match deleteBlob state call.conditions.deleteFails platform.content identity key with
    | .ok content => { platform with content }
    | .error _ => platform
  | .ingest headers body => recordBlob deployment platform call.conditions headers body

/-- Every request is answered. -/
def step (deployment : Deployment) (platform : Platform) (call : Call) : Option Platform :=
  some (after deployment platform call)

/-! ## What is promised -/

/-- The rows are those of uploads: a usable owner, a digest. -/
def Named (platform : Platform) : Prop :=
  ∀ row ∈ platform.tenantRows, ownerSegment row.ownerSub = some row.ownerSub ∧ '/' ∉ row.blobSha256

/-- The object of a row is there and hashes to its digest. -/
def Held (deployment : Deployment) (content : Content) (row : TenantRow) : Prop :=
  ∃ object, content (deployment.store.path row.storageKey) = some object ∧
    deployment.crates.sha256Hex object.bytes = row.blobSha256

def Kept (deployment : Deployment) (platform : Platform) : Prop :=
  ∀ row ∈ platform.tenantRows, Held deployment platform.content row

/-- `GET /me/blobs/{sha256}` gives an owner the bytes back, whatever the letter case of the
digest, once the database and the store answer. -/
def Retrievable (deployment : Deployment) (platform : Platform) (owner : Str) (body : Bytes) :
    Prop :=
  ∀ (identity : Identity) (conditions : Conditions) (spelled : Str), identity.sub = owner →
    Text.toAsciiLowercase spelled = deployment.crates.sha256Hex body → conditions.asks = none →
    conditions.getFails = (fun _ => none) →
    (fetch (deployment.state platform conditions) platform.content identity spelled).map
      Response.body = .ok body

/-- What uploads promise in a state, of bytes that may have been uploaded. -/
structure Intact (deployment : Deployment) (seen : Bytes → Prop) (platform : Platform) : Prop where
  kept : Kept deployment platform
  fetched : ∀ row ∈ platform.tenantRows, ∀ body, seen body →
    deployment.crates.sha256Hex body = row.blobSha256 →
    Retrievable deployment platform row.ownerSub body
  answered : ∀ (conditions : Conditions) (identity : Identity) (headers : List (Str × Str))
    (body : Bytes) (answer : UploadResponse), seen body →
    (recordUpload deployment platform conditions identity headers body).1 = .ok answer →
    Retrievable deployment
      (recordUpload deployment platform conditions identity headers body).2 identity.sub body

/-- The condition on a request: a put that goes through under the key of a row has the bytes of
its digest, and no deletion that goes through is under such a key. -/
def harmless (deployment : Deployment) (platform : Platform) (call : Call) : Bool :=
  let state := deployment.state platform call.conditions
  match call.request with
  | .upload _ _ _ => true
  | .put identity key headers body =>
    !takesPut state identity key headers body ||
      platform.tenantRows.all (fun row => sanitizeKey key != some row.storageKey ||
        deployment.crates.sha256Hex body == row.blobSha256)
  | .delete identity key =>
    !takesDelete state call.conditions.deleteFails identity key ||
      platform.tenantRows.all (fun row => sanitizeKey key != some row.storageKey)
  | .ingest _ _ => true

/-! ## What one request leaves -/

variable {deployment : Deployment} {platform : Platform} {conditions : Conditions}

/-- An upload leaves everything as it is, or its object and, at best, its row. -/
theorem recordUpload_leaves (identity : Identity) (headers : List (Str × Str)) (body : Bytes) :
    (recordUpload deployment platform conditions identity headers body).2 = platform ∨
      ∃ (object : Object) (rows : List TenantRow), object.bytes = body ∧
        ownerSegment identity.sub = some identity.sub ∧
        (recordUpload deployment platform conditions identity headers body).2 =
          { platform with
            content := Function.update platform.content (deployment.store.path
              (tenantKey identity.sub (deployment.crates.sha256Hex body))) (some object)
            tenantRows := rows } ∧
        (rows = platform.tenantRows ∨ ∃ row : TenantRow, row.ownerSub = identity.sub ∧
          row.blobSha256 = deployment.crates.sha256Hex body ∧
          rows = platform.tenantRows ++ [row]) := by
  cases answered : upload (deployment.state platform conditions) platform.content identity headers
      body conditions.now with
  | error error =>
    left
    rw [recordUpload, answered]
  | ok result =>
    obtain ⟨answer, content, tables⟩ := result
    obtain ⟨owner, usable, owned, named, existed | fresh⟩ := upload_ok answered
    · left
      rw [recordUpload, answered]
      dsimp only
      rw [if_pos existed.1]
    · right
      obtain ⟨isNew, object, holds, rfl, rfl⟩ := fresh
      obtain ⟨rfl, -, -⟩ := ownerSegment_some usable
      rw [recordUpload, answered]
      dsimp only
      rw [if_neg (by simp [isNew])]
      cases recorded : conditions.records with
      | some error => exact ⟨object, platform.tenantRows, holds, usable, rfl, .inl rfl⟩
      | none => exact ⟨object, _, holds, usable, rfl, .inr ⟨answer.blob, owned, named, rfl⟩⟩

/-- An upload that is answered leaves a row of its owner and digest. -/
theorem recordUpload_answers {identity : Identity} {headers : List (Str × Str)} {body : Bytes}
    {answer : UploadResponse}
    (answers : (recordUpload deployment platform conditions identity headers body).1 = .ok answer) :
    ∃ row ∈ (recordUpload deployment platform conditions identity headers body).2.tenantRows,
      row.ownerSub = identity.sub ∧ row.blobSha256 = deployment.crates.sha256Hex body := by
  cases answered : upload (deployment.state platform conditions) platform.content identity headers
      body conditions.now with
  | error error =>
    rw [recordUpload, answered] at answers
    cases answers
  | ok result =>
    obtain ⟨answer', content, tables⟩ := result
    obtain ⟨owner, usable, owned, named, existed | fresh⟩ := upload_ok answered
    · obtain ⟨rfl, -, -⟩ := ownerSegment_some usable
      refine ⟨answer'.blob, ?_, owned, named⟩
      rw [recordUpload, answered]
      dsimp only
      rw [if_pos existed.1]
      exact existed.2.1
    · obtain ⟨isNew, object, holds, rfl, rfl⟩ := fresh
      obtain ⟨rfl, -, -⟩ := ownerSegment_some usable
      rw [recordUpload, answered] at answers ⊢
      dsimp only at answers ⊢
      rw [if_neg (by simp [isNew])] at answers ⊢
      cases recorded : conditions.records with
      | some error =>
        rw [recorded] at answers
        cases answers
      | none => exact ⟨answer'.blob, List.mem_append_right _ List.mem_cons_self, owned, named⟩

/-- An ingested blob leaves the objects as they are, or one more under a key of its own kind. -/
theorem recordBlob_leaves (headers : List (Str × Str)) (body : Bytes) :
    (recordBlob deployment platform conditions headers body).tenantRows = platform.tenantRows ∧
      ((recordBlob deployment platform conditions headers body).content = platform.content ∨
        ∃ contentType object, object.bytes = body ∧
          (recordBlob deployment platform conditions headers body).content =
            Function.update platform.content (deployment.store.path
              (casKey (keyPrefixFor deployment.crates contentType)
                (deployment.crates.sha256Hex body))) (some object)) :=
  ⟨rfl, postBlob_content⟩

/-- A put that goes through leaves the body under the sanitized key; any other changes
nothing. -/
theorem after_put (identity : Identity) (key : Str) (headers : List (Str × Str)) (body : Bytes) :
    (takesPut (deployment.state platform conditions) identity key headers body = true ∧
      ∃ clean object, sanitizeKey key = some clean ∧ object.bytes = body ∧
        after deployment platform ⟨.put identity key headers body, conditions⟩ =
          { platform with content :=
              Function.update platform.content (deployment.store.path clean) (some object) }) ∨
      (takesPut (deployment.state platform conditions) identity key headers body = false ∧
        after deployment platform ⟨.put identity key headers body, conditions⟩ = platform) := by
  cases takes : takesPut (deployment.state platform conditions) identity key headers body with
  | true =>
    left
    obtain ⟨clean, object, sanitized, holds, answered⟩ :=
      putBlob_takes platform.content takes
    refine ⟨rfl, clean, object, sanitized, holds, ?_⟩
    rw [after]
    dsimp only
    rw [answered]
    rfl
  | false =>
    refine .inr ⟨rfl, ?_⟩
    rw [after]
    dsimp only
    split
    · rename_i answered
      rw [takesPut_of_ok answered] at takes
      cases takes
    · rfl

/-- A deletion that goes through leaves nothing under the sanitized key; any other changes
nothing. -/
theorem after_delete (identity : Identity) (key : Str) :
    (takesDelete (deployment.state platform conditions) conditions.deleteFails identity key = true ∧
      ∃ clean, sanitizeKey key = some clean ∧
        after deployment platform ⟨.delete identity key, conditions⟩ =
          { platform with content :=
              Function.update platform.content (deployment.store.path clean) none }) ∨
      (takesDelete (deployment.state platform conditions) conditions.deleteFails identity key =
          false ∧
        after deployment platform ⟨.delete identity key, conditions⟩ = platform) := by
  cases takes : takesDelete (deployment.state platform conditions) conditions.deleteFails identity
      key with
  | true =>
    left
    obtain ⟨clean, sanitized, answered⟩ := deleteBlob_takes platform.content takes
    refine ⟨rfl, clean, sanitized, ?_⟩
    rw [after]
    dsimp only
    rw [answered]
    rfl
  | false =>
    refine .inr ⟨rfl, ?_⟩
    rw [after]
    dsimp only
    split
    · rename_i content answered
      rcases takesDelete_of_ok answered with same | went
      · rw [same]
      · rw [went] at takes
        cases takes
    · rfl

/-! ## The rows and the objects -/

theorem Named.plain (named : Named platform) {row : TenantRow} (member : row ∈ platform.tenantRows) :
    row.ownerSub ≠ [] ∧ (∀ c ∈ row.ownerSub, c ≠ '/' ∧ c ≠ '.') ∧ '/' ∉ row.blobSha256 :=
  ⟨(ownerSegment_some (named row member).1).2.1, (ownerSegment_some (named row member).1).2.2,
    (named row member).2⟩

/-- The key of a row is its own sanitized form. -/
theorem Named.sanitized (named : Named platform) {row : TenantRow}
    (member : row ∈ platform.tenantRows) :
    sanitizeKey row.storageKey = some row.storageKey := by
  obtain ⟨nonempty, segment, digest⟩ := named.plain member
  rw [row.key_eq]
  exact sanitizeKey_tenantKey nonempty segment digest

/-- Writing at one sanitized key keeps the rows exactly if the rows of that key are kept. -/
theorem kept_update {raw clean : Str} (value : Option Object) (named : Named platform)
    (kept : Kept deployment platform) (sanitized : sanitizeKey raw = some clean) :
    Kept deployment { platform with
        content := Function.update platform.content (deployment.store.path clean) value } ↔
      ∀ row ∈ platform.tenantRows, clean = row.storageKey → ∃ object, value = some object ∧
        deployment.crates.sha256Hex object.bytes = row.blobSha256 := by
  constructor
  · intro later row member same
    obtain ⟨object, there, hashes⟩ := later row member
    dsimp only at there
    rw [← same, Function.update_self] at there
    exact ⟨object, there, hashes⟩
  · intro meets row member
    by_cases same : clean = row.storageKey
    · obtain ⟨object, rfl, hashes⟩ := meets row member same
      refine ⟨object, ?_, hashes⟩
      dsimp only
      rw [← same, Function.update_self]
    · obtain ⟨object, there, hashes⟩ := kept row member
      refine ⟨object, ?_, hashes⟩
      have elsewhere : deployment.store.path row.storageKey ≠ deployment.store.path clean :=
        fun agrees => same (deployment.store.path_injective raw row.storageKey clean row.storageKey
          sanitized (named.sanitized member) agrees.symm)
      dsimp only
      rw [Function.update_of_ne elsewhere]
      exact there

/-- A row of an uploaded body. -/
theorem named_append {row : TenantRow} (named : Named platform)
    (usable : ownerSegment row.ownerSub = some row.ownerSub) {body : Bytes}
    (digest : row.blobSha256 = deployment.crates.sha256Hex body) {content : Content} :
    Named { platform with content, tenantRows := platform.tenantRows ++ [row] } := by
  intro other member
  rcases List.mem_append.mp member with old | new
  · exact named other old
  · obtain rfl := List.mem_singleton.mp new
    refine ⟨usable, ?_⟩
    rw [digest]
    exact sha256Hex_plain deployment.crates body

/-- Rows stay those of uploads. -/
theorem named_after (named : Named platform) (call : Call) :
    Named (after deployment platform call) := by
  obtain ⟨request, conditions⟩ := call
  cases request with
  | upload identity headers body =>
    show Named (recordUpload deployment platform conditions identity headers body).2
    rcases recordUpload_leaves identity headers body with same | ⟨object, rows, -, usable, same, new⟩
    · rw [same]
      exact named
    · rw [same]
      rcases new with rfl | ⟨row, owned, digest, rfl⟩
      · exact named
      · exact named_append named (by rw [owned, usable]) digest
  | put identity key headers body =>
    rcases after_put identity key headers body with ⟨-, clean, object, -, -, same⟩ | ⟨-, same⟩
    · rw [same]
      exact named
    · rw [same]
      exact named
  | delete identity key =>
    rcases after_delete identity key with ⟨-, clean, -, same⟩ | ⟨-, same⟩
    · rw [same]
      exact named
    · rw [same]
      exact named
  | ingest headers body => exact named

/-- The objects hold only bytes that were seen. -/
def Within (seen : Bytes → Prop) (platform : Platform) : Prop :=
  ∀ path object, platform.content path = some object → seen object.bytes

theorem within_update {seen : Bytes → Prop} (within : Within seen platform) {path : Str}
    {value : Option Object} (known : ∀ object, value = some object → seen object.bytes)
    (rows : List TenantRow) :
    Within seen { platform with
      content := Function.update platform.content path value, tenantRows := rows } := by
  intro other object there
  by_cases same : other = path
  · subst same
    dsimp only at there
    rw [Function.update_self] at there
    exact known object there
  · dsimp only at there
    rw [Function.update_of_ne same] at there
    exact within other object there

theorem within_recordUpload {seen : Bytes → Prop} (within : Within seen platform)
    {identity : Identity} {headers : List (Str × Str)} {body : Bytes} (known : seen body) :
    Within seen (recordUpload deployment platform conditions identity headers body).2 := by
  rcases recordUpload_leaves identity headers body with same | ⟨object, rows, holds, -, same, -⟩
  · rw [same]
    exact within
  · rw [same]
    refine within_update within ?_ rows
    rintro found ⟨⟩
    rw [holds]
    exact known

/-- A request adds the bytes it carries. -/
theorem within_after {seen : Bytes → Prop} (within : Within seen platform) {call : Call}
    (known : ∀ body, call.request.body = some body → seen body) :
    Within seen (after deployment platform call) := by
  obtain ⟨request, conditions⟩ := call
  cases request with
  | upload identity headers body => exact within_recordUpload within (known body rfl)
  | put identity key headers body =>
    rcases after_put identity key headers body with ⟨-, clean, object, -, holds, same⟩ | ⟨-, same⟩
    · rw [same]
      refine within_update within ?_ platform.tenantRows
      rintro found ⟨⟩
      rw [holds]
      exact known body rfl
    · rw [same]
      exact within
  | delete identity key =>
    rcases after_delete identity key with ⟨-, clean, -, same⟩ | ⟨-, same⟩
    · rw [same]
      refine within_update within ?_ platform.tenantRows
      rintro found ⟨⟩
    · rw [same]
      exact within
  | ingest headers body =>
    show Within seen (recordBlob deployment platform conditions headers body)
    obtain ⟨-, same | ⟨contentType, object, holds, same⟩⟩ := recordBlob_leaves headers body
    · intro path object there
      rw [same] at there
      exact within path object there
    · have known' : ∀ other, some object = some other → seen other.bytes := by
        rintro other ⟨⟩
        rw [holds]
        exact known body rfl
      intro path found there
      rw [same] at there
      exact within_update within known' platform.tenantRows path found there

/-- An upload keeps the objects of rows, and its own is there. -/
theorem kept_recordUpload (named : Named platform) (kept : Kept deployment platform)
    (identity : Identity) (headers : List (Str × Str)) (body : Bytes) :
    Kept deployment (recordUpload deployment platform conditions identity headers body).2 := by
  rcases recordUpload_leaves identity headers body with same | ⟨object, rows, holds, usable, same, new⟩
  · rw [same]
    exact kept
  · obtain ⟨-, nonempty, segment⟩ := ownerSegment_some usable
    have slashless : '/' ∉ identity.sub := fun member => (segment _ member).1 rfl
    have digest := sha256Hex_plain deployment.crates body
    have old := (kept_update (some object) named kept
      (sanitizeKey_tenantKey nonempty segment digest)).mpr (by
        intro row member sameKey
        obtain ⟨-, segment', digest'⟩ := named.plain member
        rw [row.key_eq] at sameKey
        obtain ⟨-, sameDigest⟩ := tenantKey_injective slashless
          (fun inside => (segment' _ inside).1 rfl) digest digest' sameKey
        exact ⟨object, rfl, by rw [holds, sameDigest]⟩)
    rw [same]
    rcases new with rfl | ⟨row, owned, sameDigest, rfl⟩
    · exact old
    · intro other member
      rcases List.mem_append.mp member with before | new
      · exact old other before
      · obtain rfl := List.mem_singleton.mp new
        refine ⟨object, ?_, by rw [holds, sameDigest]⟩
        dsimp only
        rw [other.key_eq, owned, sameDigest, Function.update_self]

/-- A request keeps the objects of rows exactly if it meets the condition. -/
theorem harmless_iff (named : Named platform) (kept : Kept deployment platform) (call : Call) :
    harmless deployment platform call = true ↔ Kept deployment (after deployment platform call) := by
  obtain ⟨request, conditions⟩ := call
  cases request with
  | upload identity headers body =>
    exact iff_of_true rfl (kept_recordUpload named kept identity headers body)
  | put identity key headers body =>
    rw [harmless]
    rcases after_put identity key headers body with
      ⟨takes, clean, object, sanitized, holds, same⟩ | ⟨refused, same⟩
    · rw [same, kept_update (some object) named kept sanitized]
      simp only [takes, sanitized, Bool.not_true, Bool.false_or, List.all_eq_true, Bool.or_eq_true,
        bne_iff_ne, ne_eq, beq_iff_eq, Option.some.injEq]
      refine forall₂_congr (fun row member => ?_)
      constructor
      · intro either sameKey
        exact ⟨object, rfl, by rw [holds]; exact either.resolve_left (not_not.mpr sameKey)⟩
      · intro meets
        by_cases sameKey : clean = row.storageKey
        · obtain ⟨found, ⟨⟩, hashes⟩ := meets sameKey
          right
          rw [← holds, hashes]
        · exact .inl sameKey
    · rw [same]
      exact iff_of_true (by simp [refused]) kept
  | delete identity key =>
    rw [harmless]
    rcases after_delete identity key with ⟨takes, clean, sanitized, same⟩ | ⟨refused, same⟩
    · rw [same, kept_update none named kept sanitized]
      simp only [takes, sanitized, Bool.not_true, Bool.false_or, List.all_eq_true, bne_iff_ne,
        ne_eq, Option.some.injEq]
      refine forall₂_congr (fun row member => ?_)
      simp
    · rw [same]
      exact iff_of_true (by simp [refused]) kept
  | ingest headers body =>
    refine iff_of_true rfl ?_
    show Kept deployment (recordBlob deployment platform conditions headers body)
    obtain ⟨-, same | ⟨contentType, object, -, same⟩⟩ :
        (recordBlob deployment platform conditions headers body).tenantRows = _ ∧ _ :=
      recordBlob_leaves headers body
    · intro row member
      rw [same]
      exact kept row member
    · have plain := keyPrefixFor_plain deployment.crates contentType
      have digest := sha256Hex_plain deployment.crates body
      have old := (kept_update (some object) named kept
        (sanitizeKey_casKey plain digest)).mpr (by
          intro row member sameKey
          obtain ⟨-, segment, digest'⟩ := named.plain member
          rw [row.key_eq] at sameKey
          exact absurd sameKey
            (casKey_ne_tenantKey plain digest (fun inside => (segment _ inside).1 rfl) digest'))
      intro row member
      rw [same]
      exact old row member

/-! ## Reading an upload back -/

/-- A digest is well formed. -/
theorem isSha256Hex_digest (crates : Crates) (bytes : Bytes) :
    isSha256Hex (crates.sha256Hex bytes) = true := by
  have digits := crates.sha256Hex_digits bytes
  have ascii : ∀ c ∈ crates.sha256Hex bytes, c.toNat < 128 := by
    intro c member
    have range := digits c member
    omega
  rw [isSha256Hex, Text.byteLen_ascii ascii, crates.sha256Hex_length, Bool.and_eq_true]
  refine ⟨rfl, List.all_eq_true.mpr (fun c member => ?_)⟩
  simpa [Text.isAsciiDigit] using digits c member

/-- The owner of a row whose object is kept reads back what was uploaded, where no two of the
bytes that were seen have one digest. -/
theorem retrievable_of_kept {seen : Bytes → Prop}
    (distinct : Set.InjOn deployment.crates.sha256Hex {bytes | seen bytes})
    (named : Named platform) (kept : Kept deployment platform) (within : Within seen platform)
    {row : TenantRow} (member : row ∈ platform.tenantRows) {body : Bytes} (known : seen body)
    (hashes : deployment.crates.sha256Hex body = row.blobSha256) :
    Retrievable deployment platform row.ownerSub body := by
  intro identity conditions spelled own lower answers reads
  have usable : ownerSegment identity.sub = some row.ownerSub := by
    rw [own]
    exact (named row member).1
  obtain ⟨found, looked⟩ : ∃ found, (deployment.state platform conditions).tables.tenantRow
      row.ownerSub row.blobSha256 = .ok (some found) := BlobTables.tenantRow_of_mem answers member
  obtain ⟨object, there, digest⟩ := kept found (BlobTables.tenantRow_mem looked)
  have got : (deployment.state platform conditions).store.get platform.content
      (deployment.store.path found.storageKey) = .ok object :=
    ObjectStore.get_eq_ok.mpr ⟨congrFun reads _, there⟩
  have same : object.bytes = body := by
    apply distinct (within _ object there) known
    rw [digest, hashes, (BlobTables.tenantRow_some looked).2]
  have wellFormed : ¬ (!isSha256Hex row.blobSha256) = true := by
    rw [← hashes, isSha256Hex_digest]
    decide
  rw [fetch, usable]
  dsimp only
  rw [lower, hashes, if_neg wellFormed, looked]
  show (serveRow _ platform.content row.blobSha256 found).map Response.body = .ok body
  rw [serveRow]
  dsimp only [Deployment.state] at got ⊢
  rw [got]
  exact congrArg Except.ok same

/-- The objects of rows are kept exactly if everything uploads promise holds. -/
theorem intact_iff {seen : Bytes → Prop}
    (distinct : Set.InjOn deployment.crates.sha256Hex {bytes | seen bytes})
    (named : Named platform) (within : Within seen platform) :
    Intact deployment seen platform ↔ Kept deployment platform := by
  constructor
  · exact Intact.kept
  · intro kept
    refine ⟨kept, fun row member body known hashes =>
      retrievable_of_kept distinct named kept within member known hashes, ?_⟩
    intro conditions identity headers body answer known answers
    obtain ⟨row, member, owned, digest⟩ := recordUpload_answers answers
    rw [← owned]
    exact retrievable_of_kept distinct
      (named_after named ⟨.upload identity headers body, conditions⟩)
      (kept_recordUpload named kept identity headers body) (within_recordUpload within known)
      member known digest.symm

/-! ## Runs -/

/-- The bytes of a run: those that were stored at its start and those its requests carry. -/
def Occurs (start : Platform) (calls : List Call) (bytes : Bytes) : Prop :=
  (∃ path object, start.content path = some object ∧ object.bytes = bytes) ∨
    ∃ call ∈ calls, call.request.body = some bytes

/-- A row is never taken away. -/
theorem mem_after {row : TenantRow} (member : row ∈ platform.tenantRows) (call : Call) :
    row ∈ (after deployment platform call).tenantRows := by
  obtain ⟨request, conditions⟩ := call
  cases request with
  | upload identity headers body =>
    show row ∈ (recordUpload deployment platform conditions identity headers body).2.tenantRows
    rcases recordUpload_leaves identity headers body with same | ⟨object, rows, -, -, same, new⟩
    · rw [same]
      exact member
    · rw [same]
      rcases new with rfl | ⟨added, -, -, rfl⟩
      · exact member
      · exact List.mem_append_left _ member
  | put identity key headers body =>
    rcases after_put identity key headers body with ⟨-, clean, object, -, -, same⟩ | ⟨-, same⟩
    · rw [same]
      exact member
    · rw [same]
      exact member
  | delete identity key =>
    rcases after_delete identity key with ⟨-, clean, -, same⟩ | ⟨-, same⟩
    · rw [same]
      exact member
    · rw [same]
      exact member
  | ingest headers body => exact member

/-- Uploads keep their promises throughout a run exactly if every put and deletion of it leaves
the objects of rows alone; what such a run answered an upload for can be fetched at its end. -/
theorem blobs_intact {deployment : Deployment} {start reached : Platform} {calls : List Call}
    (distinct : Set.InjOn deployment.crates.sha256Hex {bytes | Occurs start calls bytes})
    (named : Named start) (kept : Kept deployment start)
    (ran : run (step deployment) start calls = some reached) :
    ((∀ before, before <+: calls → ∀ platform,
        run (step deployment) start before = some platform →
        Intact deployment (Occurs start calls) platform) ↔
      (run (guarded (harmless deployment) (step deployment)) start calls).isSome) ∧
    ((run (guarded (harmless deployment) (step deployment)) start calls).isSome →
      ∀ before (conditions : Conditions) (identity : Identity) (headers : List (Str × Str))
        (body : Bytes) (platform : Platform) (answer : UploadResponse),
        before ++ [⟨.upload identity headers body, conditions⟩] <+: calls →
        run (step deployment) start before = some platform →
        (recordUpload deployment platform conditions identity headers body).1 = .ok answer →
        Retrievable deployment reached identity.sub body) := by
  have exact (platform : Platform) (call : Call) (next : Platform)
      (holds : Named platform ∧ Kept deployment platform)
      (stepped : step deployment platform call = some next) :
      harmless deployment platform call = true ↔ Named next ∧ Kept deployment next := by
    obtain rfl := Option.some.inj stepped
    rw [harmless_iff holds.1 holds.2, and_iff_right (named_after holds.1 call)]
  have steady : ∀ call ∈ calls, ∀ state next,
      Named state ∧ Within (Occurs start calls) state → step deployment state call = some next →
      Named next ∧ Within (Occurs start calls) next := by
    intro call member state next holds stepped
    obtain rfl := Option.some.inj stepped
    exact ⟨named_after holds.1 call, within_after holds.2
      (fun body carried => .inr ⟨call, member, carried⟩)⟩
  have initially : Named start ∧ Within (Occurs start calls) start :=
    ⟨named, fun path object there => .inl ⟨path, object, there, rfl⟩⟩
  have throughout : (∀ before, before <+: calls → ∀ platform,
      run (step deployment) start before = some platform →
      Intact deployment (Occurs start calls) platform) ↔
      (run (guarded (harmless deployment) (step deployment)) start calls).isSome := by
    rw [← guarded_exact exact ⟨named, kept⟩ ran]
    refine forall₄_congr (fun before inside platform ends => ?_)
    have invariant := run_invariant_mem
      (fun call member => steady call (inside.subset member)) initially ends
    rw [intact_iff distinct invariant.1 invariant.2, and_iff_right invariant.1]
  refine ⟨throughout, ?_⟩
  intro harmlessly before conditions identity headers body platform answer inside ends answers
  have intact := throughout.mpr harmlessly calls List.prefix_rfl reached ran
  obtain ⟨row, member, owned, digest⟩ := recordUpload_answers answers
  obtain ⟨rest, rfl⟩ := inside
  rw [run_append, run_append, ends] at ran
  have stays : ∀ call ∈ rest, ∀ state next, row ∈ state.tenantRows →
      step deployment state call = some next → row ∈ next.tenantRows := by
    intro call _ state next here stepped
    obtain rfl := Option.some.inj stepped
    exact mem_after here call
  rw [← owned]
  apply intact.fetched row (run_invariant_mem stays member ran) body _ digest.symm
  exact .inr ⟨⟨.upload identity headers body, conditions⟩, by simp, rfl⟩

/-! ## An outsider with a write scope -/

/-- A caller who is an admin or holds a local key. -/
def privileged (identity : Identity) : Bool :=
  identity.role == "local".str ||
    (identity.role == "admin".str || identity.role == "super_admin".str) ||
    identity.scopes.any adminScopes.contains

/-- A put or deletion of a privileged caller under `tenants/`. -/
def Request.privilegedTouch : Request → Bool
  | .put identity key _ _ =>
    privileged identity && ((sanitizeKey key).bind tenantOwnerOf).isSome
  | .delete identity key => privileged identity && ((sanitizeKey key).bind tenantOwnerOf).isSome
  | .upload _ _ _ | .ingest _ _ => false

def desk : Deployment := ⟨Crates.plain, "blobs".str, 100, [], ObjectStore.plain⟩

def vacant : Platform := ⟨fun _ => none, fun _ => none, []⟩

def ana : Identity := ⟨"ana".str, "user".str, []⟩

def writer : Identity := ⟨"bo".str, "user".str, ["lumilake:write".str]⟩

def note : Bytes := [104, 105]

def noteKey : Str := tenantKey ana.sub (desk.crates.sha256Hex note)

/-- An upload, and a put of somebody else elsewhere. -/
def apart : List Call := [⟨.upload ana [] note, {}⟩, ⟨.put writer "notes/a".str [] note, {}⟩]

/-- An upload, and a deletion of its object by somebody else. -/
def taken : List Call := [⟨.upload ana [] note, {}⟩, ⟨.delete writer noteKey, {}⟩]

/-- Where the put is elsewhere, the upload can be fetched. -/
theorem apart_intact : ∃ reached, run (step desk) vacant apart = some reached ∧
    Retrievable desk reached ana.sub note := by
  have distinct : Set.InjOn desk.crates.sha256Hex {bytes | Occurs vacant apart bytes} := by
    have only (bytes : Bytes) (occurs : Occurs vacant apart bytes) : bytes = note := by
      rcases occurs with ⟨path, object, ⟨⟩, -⟩ | ⟨call, member, carried⟩
      simp only [apart, List.mem_cons, List.not_mem_nil, or_false] at member
      rcases member with rfl | rfl
      · exact (Option.some.inj carried).symm
      · exact (Option.some.inj carried).symm
    intro bytes occurs bytes' occurs' _
    rw [only bytes occurs, only bytes' occurs']
  have answered : (recordUpload desk vacant {} ana [] note).1.isOk = true := by decide +kernel
  cases answers : (recordUpload desk vacant {} ana [] note).1 with
  | error error =>
    rw [answers] at answered
    cases answered
  | ok answer =>
    refine ⟨_, rfl, ?_⟩
    exact (blobs_intact distinct (fun row member => by cases member)
      (fun row member => by cases member) rfl).2 (by decide +kernel) [] {} ana [] note vacant answer
      ⟨[⟨.put writer "notes/a".str [] note, {}⟩], rfl⟩ rfl answers

/-- A deletion by somebody else, under the key of the upload, goes through. -/
theorem taken_lost : (∀ call ∈ taken, call.request.privilegedTouch = false) ∧
    ∃ reached, run (step desk) vacant taken = some reached ∧ ¬ Kept desk reached := by
  have outside : taken.all (fun call => !call.request.privilegedTouch) = true := by decide +kernel
  refine ⟨by simpa using outside, _, rfl, ?_⟩
  intro kept
  have lost : (after desk (after desk vacant ⟨.upload ana [] note, {}⟩)
      ⟨.delete writer noteKey, {}⟩).tenantRows.any (fun row =>
        ((after desk (after desk vacant ⟨.upload ana [] note, {}⟩)
          ⟨.delete writer noteKey, {}⟩).content (desk.store.path row.storageKey)).isNone) = true := by
    decide +kernel
  obtain ⟨row, member, absent⟩ := List.any_eq_true.mp lost
  obtain ⟨object, there, -⟩ := kept row member
  rw [there] at absent
  cases absent

end LumidPlatform.Blobs.Integrity
