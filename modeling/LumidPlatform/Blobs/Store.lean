import LumidPlatform.Blobs.Keys
import LumidPlatform.Error

/-!
# The object store and the tables beside it

Objects are kept by another crate under paths made from keys. What a store answers
besides its objects (failures, texts of its errors) does not depend on the bytes it
holds; distinct sanitized keys have distinct paths. A row of `raw.tenant_blobs` names
the key its upload wrote.
-/

namespace LumidPlatform.Blobs

/-- A stored object with its Content-Type attribute. -/
structure Object where
  bytes : Bytes
  contentType : Option Str
  deriving DecidableEq

/-- The objects of a store, by path. -/
abbrev Content := Str → Option Object

/-- `object_store::Error`, with its text. -/
inductive StoreError where
  | notFound (text : Str)
  | notImplemented (text : Str)
  | other (text : Str)
  deriving DecidableEq

def StoreError.text : StoreError → Str
  | notFound text => text
  | notImplemented text => text
  | other text => text

/-- An `ObjectStore` apart from its objects. -/
structure ObjectStore where
  /-- `object_store::path::Path::from`. -/
  path : Str → Str
  /-- The text of a missing object's error. -/
  missing : Str → Str
  /-- A read that fails though the object is there. -/
  getFails : Str → Option StoreError
  /-- A body that breaks off. -/
  bodyFails : Str → Option StoreError
  /-- Whether a write goes through, with attributes or without. -/
  putFails : Str → Bool → Option StoreError
  path_injective : ∀ raw raw' key key', sanitizeKey raw = some key →
    sanitizeKey raw' = some key' → path key = path key' → key = key'

namespace ObjectStore

variable (store : ObjectStore)

/-- `get`. -/
def get (content : Content) (path : Str) : Except StoreError Object :=
  match store.getFails path, content path with
  | some error, _ => .error error
  | none, some object => .ok object
  | none, none => .error (.notFound (store.missing path))

theorem get_eq_ok {store : ObjectStore} {content : Content} {path : Str} {object : Object} :
    store.get content path = .ok object ↔
      store.getFails path = none ∧ content path = some object := by
  rw [get]
  split
  · rename_i failing
    simp [failing]
  · rename_i found works there
    simp [works, there]
  · rename_i works absent
    simp [works, absent]

/-- `GetResult::bytes`. -/
def readBody (path : Str) (object : Object) : Except StoreError Bytes :=
  match store.bodyFails path with
  | some error => .error error
  | none => .ok object.bytes

/-- `put_with_optional_attrs`: the object as it was written. A store that keeps no
attributes takes the bytes alone. -/
def putWithOptionalAttrs (path : Str) (bytes : Bytes) (contentType : Str) :
    Except StoreError Object :=
  match store.putFails path true with
  | none => .ok ⟨bytes, some contentType⟩
  | some (.notImplemented _) =>
    match store.putFails path false with
    | none => .ok ⟨bytes, none⟩
    | some error => .error error
  | some error => .error error

/-- A store that fails never, and takes a key for its path. -/
def plain : ObjectStore where
  path key := key
  missing path := "Object at location ".str ++ path ++ " not found".str
  getFails _ := none
  bodyFails _ := none
  putFails _ _ := none
  path_injective _ _ _ _ _ _ same := same

end ObjectStore

/-- A row of `raw.tenant_blobs`. Only an upload inserts one. -/
structure TenantRow where
  ownerSub : Str
  blobSha256 : Str
  storageKey : Str
  contentType : Str
  sizeBytes : Nat
  suggestedName : Option Str
  createdAt : Str
  key_eq : storageKey = tenantKey ownerSub blobSha256

/-- What blob handlers ask the database. -/
structure BlobTables where
  /-- `raw.blobs.content_type` of a digest. -/
  contentTypeOf : Str → ApiResult (Option Str)
  tenantRows : List TenantRow
  /-- The table of tenants cannot be asked. -/
  tenantFails : Option ApiError

namespace BlobTables

/-- The row of an owner and a digest. -/
def tenantRow (tables : BlobTables) (owner sha : Str) : ApiResult (Option TenantRow) :=
  match tables.tenantFails with
  | some error => .error error
  | none =>
    .ok (tables.tenantRows.find? (fun row => row.ownerSub == owner && row.blobSha256 == sha))

theorem tenantRow_some {tables : BlobTables} {owner sha : Str} {row : TenantRow}
    (found : tables.tenantRow owner sha = .ok (some row)) :
    row.ownerSub = owner ∧ row.blobSha256 = sha := by
  rw [tenantRow] at found
  split at found
  · simp at found
  · have matches' := List.find?_some (Except.ok.inj found)
    simpa using matches'

theorem tenantRow_mem {tables : BlobTables} {owner sha : Str} {row : TenantRow}
    (found : tables.tenantRow owner sha = .ok (some row)) : row ∈ tables.tenantRows := by
  rw [tenantRow] at found
  split at found
  · cases found
  · exact List.mem_of_find?_eq_some (Except.ok.inj found)

/-- A row that is there is found, or another of the same owner and digest. -/
theorem tenantRow_of_mem {tables : BlobTables} {row : TenantRow}
    (answers : tables.tenantFails = none) (member : row ∈ tables.tenantRows) :
    ∃ found, tables.tenantRow row.ownerSub row.blobSha256 = .ok (some found) := by
  rw [tenantRow, answers]
  cases search : tables.tenantRows.find? (fun other =>
      other.ownerSub == row.ownerSub && other.blobSha256 == row.blobSha256) with
  | some found => exact ⟨found, rfl⟩
  | none => exact absurd (List.find?_eq_none.mp search row member) (by simp)

end BlobTables

/-- The part of the state that blob handlers use. -/
structure BlobState where
  crates : Crates
  blobRoot : Str
  blobMaxBytes : Nat
  store : ObjectStore
  tables : BlobTables

end LumidPlatform.Blobs
