import LumidPlatform.Blobs.Serve

/-!
# Writing blobs

Whoever holds `lumilake:write` puts and deletes objects under keys of their choice. An
ingested blob goes under a key made from its type and digest, and is recorded in
`raw.blobs` once.
-/

namespace LumidPlatform.Blobs

/-! ## Privileged writes -/

def adminScopes : List Str := ["*".str, "lumilake:*".str, "lumilake:admin".str]

/-- `require_blob_write`. -/
def requireBlobWrite (identity : Identity) : ApiResult Unit :=
  if identity.role == "local".str then .ok ()
  else if identity.scopes.any (fun s => s == "lumilake:write".str || adminScopes.contains s) then
    .ok ()
  else .error (.forbidden "lumilake:write scope required".str)

/-- `put` of a store: the object as it was written. -/
def ObjectStore.put (store : ObjectStore) (path : Str) (bytes : Bytes) : Except StoreError Object :=
  match store.putFails path false with
  | none => .ok ⟨bytes, none⟩
  | some error => .error error

/-- The write of `put_blob`, with the type the caller declared. -/
def putDeclared (store : ObjectStore) (path : Str) (body : Bytes) (declaredCt : Option Str) :
    Except StoreError Object :=
  match declaredCt with
  | some ct => store.putWithOptionalAttrs path body ct
  | none => store.put path body

/-- The Content-Type that a put declares. -/
def declaredCt (headers : List (Str × Str)) : Option Str :=
  ((List.lookup "content-type".str headers).bind headerText).bind validContentType

/-- `put_blob`: the key and size it answers, and the objects it leaves. -/
def putBlob (state : BlobState) (content : Content) (identity : Identity) (key : Str)
    (headers : List (Str × Str)) (body : Bytes) : ApiResult ((Str × Nat) × Content) :=
  requireBlobWrite identity >>= fun _ =>
    if state.blobRoot.isEmpty then .error (.unavailable "blob storage not configured".str)
    else
      match sanitizeKey key with
      | none => .error (.badRequest "invalid key".str)
      | some key =>
        if state.blobMaxBytes < body.length then
          .error (.badRequest ("body too large (".str ++ Text.showNat body.length ++ " > ".str ++
            Text.showNat state.blobMaxBytes ++ " bytes)".str))
        else
          match putDeclared state.store (state.store.path key) body (declaredCt headers) with
          | .error error => .error (.internal ("blob put: ".str ++ error.text))
          | .ok object =>
            .ok ((key, body.length), Function.update content (state.store.path key) (some object))

/-- `delete_blob`: the objects it leaves. What a store answers to a deletion is `deleteFails`;
an object that is not there is success. -/
def deleteBlob (state : BlobState) (deleteFails : Str → Option StoreError) (content : Content)
    (identity : Identity) (key : Str) : ApiResult Content :=
  requireBlobWrite identity >>= fun _ =>
    if state.blobRoot.isEmpty then .error (.unavailable "blob storage not configured".str)
    else
      match sanitizeKey key with
      | none => .error (.badRequest "invalid key".str)
      | some key =>
        match deleteFails (state.store.path key) with
        | none => .ok (Function.update content (state.store.path key) none)
        | some (.notFound _) => .ok content
        | some error => .error (.internal ("blob delete: ".str ++ error.text))

/-! ## Ingest -/

/-- What ingest reads of a row of `raw.blobs`. -/
structure RawBlob where
  storageUrl : Str
  contentType : Str
  sizeBytes : Nat

structure BlobIngestResult where
  runId : Str
  blobSha256 : Str
  storageUrl : Str
  contentType : Str
  sizeBytes : Nat
  alreadyExisted : Bool
  status : Str

def keyPrefixFor (crates : Crates) (contentType : Str) : Str :=
  let ct := crates.unicode.toLowercase (Text.trim (contentType.takeWhile (· ≠ ';')))
  if Text.startsWith ct "image/".str then "images".str
  else if ct = "application/pdf".str then "pdf".str
  else if ct = "text/html".str then "html".str
  else if ct = "text/plain".str ∨ ct = "text/markdown".str then "text".str
  else if Text.startsWith ct "audio/".str then "audio".str
  else if Text.startsWith ct "video/".str then "video".str
  else "blob".str

def ingestExtensionTypes : List (List Str × Str) := [
  (["png".str], "image/png".str),
  (["jpg".str, "jpeg".str], "image/jpeg".str),
  (["gif".str], "image/gif".str),
  (["webp".str], "image/webp".str),
  (["svg".str], "image/svg+xml".str),
  (["pdf".str], "application/pdf".str),
  (["html".str, "htm".str], "text/html".str),
  (["txt".str], "text/plain".str),
  (["md".str], "text/markdown".str),
  (["json".str], "application/json".str),
  (["csv".str], "text/csv".str),
  (["mp4".str], "video/mp4".str),
  (["mp3".str], "audio/mpeg".str)]

/-- `content_type_for`. -/
def contentTypeFor (crates : Crates) (contentType suggestedName : Option Str) : Str :=
  match (contentType.map Text.trim).filter (fun ct => !ct.isEmpty) with
  | some ct => ct.takeWhile (· ≠ ';')
  | none =>
    let guessed := suggestedName.bind (fun name =>
      let ext := crates.unicode.toLowercase (Text.afterLast '.' name)
      (ingestExtensionTypes.find? (fun entry => entry.1.contains ext)).map Prod.snd)
    guessed.getD "application/octet-stream".str

def publicUrlFor (publicBaseUrl key : Str) : Str :=
  Text.trimEndMatches '/' publicBaseUrl ++ "/blobs/".str ++ key

/-- The key of an ingested blob. -/
def casKey (pre sha : Str) : Str := pre ++ "/sha256=".str ++ sha

/-- What ingest asks of the database: the row of a digest, a run, the insertion of a row. -/
structure IngestTables where
  lookupExisting : Str → ApiResult (Option RawBlob)
  openRun : ApiResult Str
  insertFails : Option Str

/-- `ingest_blob`: what it answers, the objects it leaves, and the row it records. -/
def ingestBlob (state : BlobState) (publicBaseUrl : Str) (tables : IngestTables)
    (content : Content) (body : Bytes) (contentType suggestedName : Option Str) :
    ApiResult BlobIngestResult × Content × Option (Str × RawBlob) :=
  if state.blobRoot.isEmpty then
    (.error (.unavailable "blob storage not configured (set LUMID_BLOB_ROOT)".str), content, none)
  else if body.isEmpty then (.error (.badRequest "empty body".str), content, none)
  else if state.blobMaxBytes < body.length then
    (.error (.badRequest ("blob too large (".str ++ Text.showNat body.length ++ " bytes > ".str ++
      Text.showNat state.blobMaxBytes ++ ")".str)), content, none)
  else
    let sha := state.crates.sha256Hex body
    match tables.lookupExisting sha with
    | .error error => (.error error, content, none)
    | .ok (some row) =>
      (.ok ⟨[], sha, row.storageUrl, row.contentType, row.sizeBytes, true, "ok".str⟩, content, none)
    | .ok none =>
      let ct := contentTypeFor state.crates contentType suggestedName
      let key := casKey (keyPrefixFor state.crates ct) sha
      match state.store.putWithOptionalAttrs (state.store.path key) body ct with
      | .error error => (.error (.internal ("blob put: ".str ++ error.text)), content, none)
      | .ok object =>
        let stored := Function.update content (state.store.path key) (some object)
        let row : RawBlob := ⟨publicUrlFor publicBaseUrl key, ct, body.length⟩
        match tables.openRun, tables.insertFails with
        | .error error, _ => (.error error, stored, none)
        | .ok _, some text =>
          (.error (.badRequest ("failed to record blob: ".str ++ text)), stored, none)
        | .ok runId, none =>
          (.ok ⟨runId, sha, row.storageUrl, ct, body.length, false, "ok".str⟩, stored,
            some (sha, row))

/-- `post_blob` of `/ingest/blob`. -/
def postBlob (state : BlobState) (publicBaseUrl : Str) (tables : IngestTables)
    (content : Content) (headers : List (Str × Str)) (body : Bytes) :
    ApiResult BlobIngestResult × Content × Option (Str × RawBlob) :=
  let headerOf (name : Str) : Option Str := (List.lookup name headers).bind headerText
  let unreadable : Bool :=
    ((headerOf "x-ingress-metadata".str).filter (fun raw => !raw.isEmpty)).any
      (fun raw => (state.crates.fromSlice (Text.utf8 raw)).isNone)
  if state.blobRoot.isEmpty then
    (.error (.unavailable "blob storage is not configured on this deployment".str), content, none)
  else if body.isEmpty then
    (.error (.badRequest "empty body — no bytes to store".str), content, none)
  else if state.blobMaxBytes < body.length then
    (.error (.badRequest ("blob too large (".str ++ Text.showNat body.length ++ " > ".str ++
      Text.showNat state.blobMaxBytes ++ " bytes)".str)), content, none)
  else if unreadable then
    (.error (.badRequest "X-Ingress-Metadata is not valid JSON".str), content, none)
  else
    ingestBlob state publicBaseUrl tables content body (headerOf "content-type".str)
      (headerOf "x-ingress-filename".str)

/-! ## Where writes land -/

/-- Whether a put goes through: the caller may write, the key and size are accepted, and the
store takes the object. -/
def takesPut (state : BlobState) (identity : Identity) (key : Str) (headers : List (Str × Str))
    (body : Bytes) : Bool :=
  (requireBlobWrite identity).isOk && !state.blobRoot.isEmpty &&
    decide (body.length ≤ state.blobMaxBytes) &&
    (sanitizeKey key).any (fun clean =>
      (putDeclared state.store (state.store.path clean) body (declaredCt headers)).isOk)

/-- Whether a deletion goes through. -/
def takesDelete (state : BlobState) (deleteFails : Str → Option StoreError) (identity : Identity)
    (key : Str) : Bool :=
  (requireBlobWrite identity).isOk && !state.blobRoot.isEmpty &&
    (sanitizeKey key).any (fun clean => (deleteFails (state.store.path clean)).isNone)

/-- An object is written with the bytes it was put with. -/
theorem ObjectStore.putWithOptionalAttrs_bytes {store : ObjectStore} {path : Str} {bytes : Bytes}
    {contentType : Str} {object : Object}
    (wrote : store.putWithOptionalAttrs path bytes contentType = .ok object) :
    object.bytes = bytes := by
  rw [ObjectStore.putWithOptionalAttrs] at wrote
  split at wrote
  · obtain rfl := Except.ok.inj wrote
    rfl
  · split at wrote
    · obtain rfl := Except.ok.inj wrote
      rfl
    · cases wrote
  · cases wrote

theorem putDeclared_bytes {store : ObjectStore} {path : Str} {body : Bytes}
    {declared : Option Str} {object : Object}
    (wrote : putDeclared store path body declared = .ok object) : object.bytes = body := by
  cases declared with
  | some ct => exact ObjectStore.putWithOptionalAttrs_bytes wrote
  | none =>
    rw [putDeclared, ObjectStore.put] at wrote
    split at wrote
    · obtain rfl := Except.ok.inj wrote
      rfl
    · cases wrote

theorem requireBlobWrite_ok {identity : Identity} (allowed : (requireBlobWrite identity).isOk = true) :
    requireBlobWrite identity = .ok () := by
  cases answered : requireBlobWrite identity with
  | ok value => rfl
  | error error =>
    rw [answered] at allowed
    cases allowed

section Writes

variable {state : BlobState} {content : Content} {identity : Identity} {key : Str}
  {headers : List (Str × Str)} {body : Bytes} {deleteFails : Str → Option StoreError}

/-- A put that goes through leaves the body under the sanitized key. -/
theorem putBlob_takes (content : Content)
    (takes : takesPut state identity key headers body = true) :
    ∃ clean object, sanitizeKey key = some clean ∧ object.bytes = body ∧
      putBlob state content identity key headers body = .ok ((clean, body.length),
        Function.update content (state.store.path clean) (some object)) := by
  simp only [takesPut, Bool.and_eq_true, Bool.not_eq_true', decide_eq_true_eq,
    Option.any_eq_true] at takes
  obtain ⟨⟨⟨allowed, rooted⟩, fits⟩, clean, sanitized, written⟩ := takes
  cases wrote : putDeclared state.store (state.store.path clean) body (declaredCt headers) with
  | error error =>
    rw [wrote] at written
    cases written
  | ok object =>
    refine ⟨clean, object, sanitized, putDeclared_bytes wrote, ?_⟩
    have unset : ¬ state.blobRoot.isEmpty = true := by simp [rooted]
    simp only [putBlob, requireBlobWrite_ok allowed, sanitized, wrote, if_neg unset,
      if_neg (Nat.not_lt.mpr fits)]
    rfl

/-- A put that answers went through. -/
theorem takesPut_of_ok {answer : (Str × Nat) × Content}
    (answered : putBlob state content identity key headers body = .ok answer) :
    takesPut state identity key headers body = true := by
  rw [putBlob] at answered
  obtain ⟨_, allowed, answered⟩ := ApiResult.bind_eq_ok.mp answered
  split at answered
  · cases answered
  · rename_i rooted
    split at answered
    · cases answered
    · rename_i clean sanitized
      split at answered
      · cases answered
      · rename_i fits
        split at answered
        · cases answered
        · rename_i object wrote
          have unset : state.blobRoot.isEmpty = false := by simpa using rooted
          simp [takesPut, allowed, unset, Nat.not_lt.mp fits, sanitized, wrote, Except.isOk,
            Except.toBool]

/-- A deletion that goes through leaves nothing under the sanitized key. -/
theorem deleteBlob_takes (content : Content)
    (takes : takesDelete state deleteFails identity key = true) :
    ∃ clean, sanitizeKey key = some clean ∧
      deleteBlob state deleteFails content identity key =
        .ok (Function.update content (state.store.path clean) none) := by
  simp only [takesDelete, Bool.and_eq_true, Bool.not_eq_true', Option.any_eq_true,
    Option.isNone_iff_eq_none] at takes
  obtain ⟨⟨allowed, rooted⟩, clean, sanitized, works⟩ := takes
  refine ⟨clean, sanitized, ?_⟩
  have unset : ¬ state.blobRoot.isEmpty = true := by simp [rooted]
  simp only [deleteBlob, requireBlobWrite_ok allowed, sanitized, works, if_neg unset]
  rfl

/-- A deletion that changes the objects went through. -/
theorem takesDelete_of_ok {after : Content}
    (answered : deleteBlob state deleteFails content identity key = .ok after) :
    after = content ∨ takesDelete state deleteFails identity key = true := by
  rw [deleteBlob] at answered
  obtain ⟨_, allowed, answered⟩ := ApiResult.bind_eq_ok.mp answered
  split at answered
  · cases answered
  · rename_i rooted
    split at answered
    · cases answered
    · rename_i clean sanitized
      split at answered
      · rename_i works
        have unset : state.blobRoot.isEmpty = false := by simpa using rooted
        right
        simp [takesDelete, allowed, unset, sanitized, works, Except.isOk, Except.toBool]
      · left
        exact (Except.ok.inj answered).symm
      · cases answered

/-- What an upload that answers leaves: the row was there and nothing changes, or the object is
written and its row added. -/
theorem upload_ok {now : Str} {answer : UploadResponse} {after : Content} {tables : BlobTables}
    (answered : upload state content identity headers body now = .ok (answer, after, tables)) :
    ∃ owner, ownerSegment identity.sub = some owner ∧ answer.blob.ownerSub = owner ∧
      answer.blob.blobSha256 = state.crates.sha256Hex body ∧
      ((answer.alreadyExisted = true ∧ answer.blob ∈ state.tables.tenantRows ∧ after = content ∧
          tables = state.tables) ∨
        (answer.alreadyExisted = false ∧ ∃ object : Object, object.bytes = body ∧
          after = Function.update content
            (state.store.path (tenantKey owner (state.crates.sha256Hex body))) (some object) ∧
          tables = { state.tables with tenantRows := state.tables.tenantRows ++ [answer.blob] })) := by
  rw [upload] at answered
  by_cases unset : state.blobRoot.isEmpty = true
  · rw [if_pos unset] at answered
    cases answered
  rw [if_neg unset] at answered
  cases usable : ownerSegment identity.sub with
  | none =>
    rw [usable] at answered
    cases answered
  | some owner =>
    rw [usable] at answered
    dsimp only at answered
    by_cases empty : body.isEmpty = true
    · rw [if_pos empty] at answered
      cases answered
    rw [if_neg empty] at answered
    by_cases large : state.blobMaxBytes < body.length
    · rw [if_pos large] at answered
      cases answered
    rw [if_neg large] at answered
    obtain ⟨found, looked, answered⟩ := ApiResult.bind_eq_ok.mp answered
    refine ⟨owner, rfl, ?_⟩
    cases found with
    | some row =>
      obtain ⟨rfl, rest⟩ := Prod.mk.inj (Except.ok.inj answered)
      obtain ⟨rfl, rfl⟩ := Prod.mk.inj rest
      obtain ⟨owned, named⟩ := BlobTables.tenantRow_some looked
      exact ⟨owned, named, .inl ⟨rfl, BlobTables.tenantRow_mem looked, rfl, rfl⟩⟩
    | none =>
      dsimp only at answered
      split at answered
      · cases answered
      · rename_i object wrote
        obtain ⟨rfl, rest⟩ := Prod.mk.inj (Except.ok.inj answered)
        obtain ⟨rfl, rfl⟩ := Prod.mk.inj rest
        exact ⟨rfl, rfl, .inr ⟨rfl, object, ObjectStore.putWithOptionalAttrs_bytes wrote, rfl, rfl⟩⟩

/-- An ingested blob goes under a key made from its digest, and no row of a tenant changes. -/
theorem postBlob_content {publicBaseUrl : Str} {tables : IngestTables} :
    (postBlob state publicBaseUrl tables content headers body).2.1 = content ∨
      ∃ (contentType : Str) (object : Object), object.bytes = body ∧
        (postBlob state publicBaseUrl tables content headers body).2.1 =
          Function.update content (state.store.path
            (casKey (keyPrefixFor state.crates contentType) (state.crates.sha256Hex body)))
            (some object) := by
  rw [postBlob]
  dsimp only
  split_ifs with unset empty large malformed
  · exact .inl rfl
  · exact .inl rfl
  · exact .inl rfl
  · exact .inl rfl
  · rw [ingestBlob, if_neg unset, if_neg empty, if_neg large]
    dsimp only
    split
    · exact .inl rfl
    · exact .inl rfl
    · split
      · exact .inl rfl
      · rename_i object wrote
        right
        have bytes := ObjectStore.putWithOptionalAttrs_bytes wrote
        split
        · exact ⟨_, object, bytes, rfl⟩
        · exact ⟨_, object, bytes, rfl⟩
        · exact ⟨_, object, bytes, rfl⟩

end Writes

/-! ## Keys of ingested blobs -/

/-- A digest has no slash. -/
theorem sha256Hex_plain (crates : Crates) (bytes : Bytes) : '/' ∉ crates.sha256Hex bytes := by
  intro member
  exact absurd (crates.sha256Hex_digits bytes '/' member) (by decide)

/-- A prefix is one of a few words. -/
theorem keyPrefixFor_plain (crates : Crates) (contentType : Str) :
    '/' ∉ keyPrefixFor crates contentType ∧ keyPrefixFor crates contentType ≠ [] ∧
      keyPrefixFor crates contentType ≠ ['.'] ∧ keyPrefixFor crates contentType ≠ ['.', '.'] := by
  rw [keyPrefixFor]
  split_ifs
  all_goals decide

theorem casKey_join (pre sha : Str) :
    casKey pre sha = Text.join ['/'] [pre, "sha256=".str ++ sha] := by
  have slash : "/sha256=".str = '/' :: "sha256=".str := by decide
  simp [casKey, slash, Text.join, List.intercalate]

theorem casKey_plain {pre sha : Str}
    (plain : '/' ∉ pre ∧ pre ≠ [] ∧ pre ≠ ['.'] ∧ pre ≠ ['.', '.']) (digest : '/' ∉ sha) :
    ∀ part ∈ [pre, "sha256=".str ++ sha],
      '/' ∉ part ∧ part ≠ [] ∧ part ≠ ['.'] ∧ part ≠ ['.', '.'] := by
  intro part member
  simp only [List.mem_cons, List.not_mem_nil, or_false] at member
  rcases member with rfl | rfl
  · exact plain
  · exact digest_plain digest

/-- The key of an ingested blob is its own sanitized form. -/
theorem sanitizeKey_casKey {pre sha : Str}
    (plain : '/' ∉ pre ∧ pre ≠ [] ∧ pre ≠ ['.'] ∧ pre ≠ ['.', '.']) (digest : '/' ∉ sha) :
    sanitizeKey (casKey pre sha) = some (casKey pre sha) := by
  rw [casKey_join]
  exact sanitizeKey_join (by simp) (casKey_plain plain digest)

/-- The key of an ingested blob has one segment less than that of a tenant's object. -/
theorem casKey_ne_tenantKey {pre sha owner sha' : Str}
    (plain : '/' ∉ pre ∧ pre ≠ [] ∧ pre ≠ ['.'] ∧ pre ≠ ['.', '.']) (digest : '/' ∉ sha)
    (segment : '/' ∉ owner) (digest' : '/' ∉ sha') : casKey pre sha ≠ tenantKey owner sha' := by
  intro same
  have parts := congrArg (List.splitOn '/') same
  rw [tenantKey_splitOn segment digest', casKey_join, Text.join, List.splitOn_intercalate '/'
    (fun part member => (casKey_plain plain digest part member).1) (by simp)] at parts
  cases parts

end LumidPlatform.Blobs
