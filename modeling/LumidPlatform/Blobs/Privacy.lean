import LumidPlatform.Blobs.Serve

/-!
# Who sees which bytes

Two contents of the store that differ in the bytes of objects a caller may not read are
the same to that caller, as long as every read asks whose object it is. The two blob
handlers do: what they answer does not change.
-/

namespace LumidPlatform.Blobs

/-- The path of an object that belongs to a tenant the caller may not read. -/
def Private (store : ObjectStore) (identity : Identity) (path : Str) : Prop :=
  ∃ raw key owner, sanitizeKey raw = some key ∧ store.path key = path ∧
    tenantOwnerOf key = some owner ∧ mayReadTenant identity owner = false

/-- Two contents differ in the bytes of private objects only. -/
def SameReadable (store : ObjectStore) (identity : Identity) (content content' : Content) : Prop :=
  ∀ path, content' path = content path ∨
    (Private store identity path ∧ ∃ object bytes, content path = some object ∧
      content' path = some ⟨bytes, object.contentType⟩)

variable {state : BlobState} {store : ObjectStore} {identity : Identity}
  {content content' : Content}

/-- A key whose owner the caller may read is the path of no private object. -/
theorem not_private {raw key : Str} (sanitized : sanitizeKey raw = some key)
    (allowed : ∀ owner, tenantOwnerOf key = some owner → mayReadTenant identity owner = true) :
    ¬ Private store identity (store.path key) := by
  rintro ⟨raw', key', owner, sanitized', same, owned, refused⟩
  obtain rfl := store.path_injective raw' raw key' key sanitized' sanitized same
  rw [allowed owner owned] at refused
  exact absurd refused (by decide)

/-- Where nothing is private, both contents hold the same. -/
theorem SameReadable.get {path : Str} (same : SameReadable store identity content content')
    (free : ¬ Private store identity path) : store.get content' path = store.get content path := by
  rcases same path with equal | ⟨secret, -⟩
  · simp only [ObjectStore.get, equal]
  · exact absurd secret free

/-- A private object is there in both, and only its bytes differ. -/
theorem SameReadable.get_private {path : Str} (same : SameReadable store identity content content')
    (absent : ∀ object, store.get content path ≠ .ok object) :
    store.get content' path = store.get content path := by
  rcases same path with equal | ⟨-, object, bytes, here, there⟩
  · simp only [ObjectStore.get, equal]
  · cases failing : store.getFails path with
    | some error => simp only [ObjectStore.get, failing]
    | none =>
      apply absurd _ (absent object)
      simp only [ObjectStore.get, failing, here]

/-- What is there in one is there in the other. -/
theorem SameReadable.get_ok {path : Str} {object : Object}
    (same : SameReadable store identity content content')
    (there : store.get content path = .ok object) :
    ∃ object', store.get content' path = .ok object' := by
  obtain ⟨works, -⟩ := ObjectStore.get_eq_ok.mp there
  rcases same path with equal | ⟨-, old, bytes, -, there'⟩
  · refine ⟨object, ?_⟩
    rwa [ObjectStore.get, equal, ← ObjectStore.get]
  · refine ⟨⟨bytes, old.contentType⟩, ?_⟩
    simp only [ObjectStore.get, works, there']

/-- `GET /blobs/{key}` answers the same. -/
theorem serveBlob_same (same : SameReadable state.store identity content content') (key : Str) :
    serveBlob state content' identity key = serveBlob state content identity key := by
  rw [serveBlob, serveBlob]
  cases sanitized : sanitizeKey key with
  | none => rfl
  | some clean =>
    dsimp only
    split_ifs with unset blocked
    · rfl
    · rfl
    · have allowed : ∀ owner, tenantOwnerOf clean = some owner →
          mayReadTenant identity owner = true := by
        intro owner owned
        rw [owned] at blocked
        simpa using blocked
      rw [serveObject, serveObject, same.get (not_private sanitized allowed)]

/-- The object of a row whose owner calls is not private to the caller. -/
theorem serveRow_same (same : SameReadable state.store identity content content') {sha : Str}
    {row : TenantRow} (usable : ownerSegment identity.sub = some row.ownerSub)
    (digest : isSha256Hex row.blobSha256 = true) :
    serveRow state content' sha row = serveRow state content sha row := by
  obtain ⟨own, nonempty, plain⟩ := ownerSegment_some usable
  have sanitized : sanitizeKey row.storageKey = some row.storageKey := by
    rw [row.key_eq]
    exact sanitizeKey_tenantKey nonempty plain (isSha256Hex_plain digest)
  have free : ¬ Private state.store identity (state.store.path row.storageKey) := by
    apply not_private sanitized
    intro owner owned
    rw [row.key_eq, tenantOwnerOf_tenantKey nonempty (fun member => (plain _ member).1 rfl)] at owned
    obtain rfl := Option.some.inj owned
    simp [mayReadTenant, own]
  rw [serveRow, serveRow, same.get free]

/-- `GET /me/blobs/{sha256}` answers the same: the row it finds is the caller's. -/
theorem fetch_same (same : SameReadable state.store identity content content') (sha : Str) :
    fetch state content' identity sha = fetch state content identity sha := by
  rw [fetch, fetch]
  cases usable : ownerSegment identity.sub with
  | none => rfl
  | some owner =>
    dsimp only
    split_ifs with malformed
    · rfl
    · cases found : state.tables.tenantRow owner (Text.toAsciiLowercase sha) with
      | error error => rfl
      | ok row =>
        cases row with
        | none => rfl
        | some row =>
          obtain ⟨owned, named⟩ := BlobTables.tenantRow_some found
          apply serveRow_same same
          · rw [usable, owned]
          · rw [named]
            simpa using malformed

end LumidPlatform.Blobs
