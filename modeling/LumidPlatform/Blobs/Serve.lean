import LumidPlatform.Blobs.Store

/-!
# Serving blobs

`GET /blobs/{key}` serves any object but those of tenants the caller may not read;
`POST /me/blobs` stores an object of the caller, and `GET /me/blobs/{sha256}` serves it.
-/

namespace LumidPlatform.Blobs

/-! ## Content types -/

/-- `HeaderValue::from_str` refuses control characters other than the tab. -/
def headerValue (s : Str) : Option Str :=
  if s.all (fun c => (32 ≤ c.toNat && c.toNat ≠ 127) || c.toNat == 9) then some s else none

/-- `HeaderValue::to_str`: a value of visible ASCII, spaces and tabs. -/
def headerText (value : Str) : Option Str :=
  if value.all (fun c => (32 ≤ c.toNat && c.toNat < 127) || c.toNat == 9) then some value else none

def validContentType (raw : Str) : Option Str :=
  let ct := Text.trim raw
  if ct.isEmpty || !ct.contains '/' then none else headerValue ct

/-- The text after the last occurrence of a word, as `rsplit_once` splits it. -/
def afterLastWord (word : Str) : Str → Option Str
  | [] => none
  | c :: rest =>
    match afterLastWord word rest with
    | some found => some found
    | none => Text.stripPrefix (c :: rest) word

/-- `content_type_for_key`. -/
def contentTypeForKey (tables : BlobTables) (key : Str) : ApiResult (Option Str) :=
  match afterLastWord "sha256=".str key with
  | none => .ok none
  | some sha => if Text.byteLen sha ≠ 64 then .ok none else tables.contentTypeOf sha

def extensionTypes : List (List Str × Str) := [
  (["png".str], "image/png".str),
  (["jpg".str, "jpeg".str], "image/jpeg".str),
  (["gif".str], "image/gif".str),
  (["webp".str], "image/webp".str),
  (["bmp".str], "image/bmp".str),
  (["ico".str], "image/vnd.microsoft.icon".str),
  (["svg".str], "image/svg+xml".str),
  (["tif".str, "tiff".str], "image/tiff".str),
  (["pdf".str], "application/pdf".str),
  (["html".str, "htm".str], "text/html".str),
  (["txt".str], "text/plain".str),
  (["md".str], "text/markdown".str),
  (["csv".str], "text/csv".str),
  (["json".str], "application/json".str),
  (["xml".str], "application/xml".str),
  (["css".str], "text/css".str),
  (["js".str, "mjs".str], "text/javascript".str),
  (["zip".str], "application/zip".str),
  (["gz".str], "application/gzip".str),
  (["tar".str], "application/x-tar".str),
  (["wasm".str], "application/wasm".str),
  (["mp4".str], "video/mp4".str),
  (["webm".str], "video/webm".str),
  (["mov".str], "video/quicktime".str),
  (["mp3".str], "audio/mpeg".str),
  (["wav".str], "audio/wav".str),
  (["ogg".str], "audio/ogg".str),
  (["parquet".str], "application/vnd.apache.parquet".str)]

def guessFromExtension (key : Str) : Option Str :=
  let ext := Text.afterLast '.' key
  if ext = key then none
  else (extensionTypes.find? (fun entry => entry.1.contains (Text.toAsciiLowercase ext))).map
    Prod.snd

def resolveContentType (stored db : Option Str) (key : Str) : Str :=
  ((((stored.bind validContentType).orElse fun _ => db.bind validContentType).orElse
    fun _ => guessFromExtension key)).getD "application/octet-stream".str

/-- Types that a browser would run if they were served inline. -/
def isActiveContentType (ct : Str) : Bool :=
  let base := Text.toAsciiLowercase (Text.trim (ct.takeWhile (· ≠ ';')))
  ["text/html".str, "application/xhtml+xml".str, "image/svg+xml".str, "text/javascript".str,
    "application/javascript".str].contains base

/-! ## Handlers -/

def attachment : Str × Str := ("content-disposition".str, "attachment".str)

def nosniff : Str × Str := ("x-content-type-options".str, "nosniff".str)

/-- What `serve_blob` answers once it has the object. -/
def blobResponse (ct : Str) (bytes : Bytes) : Response :=
  let type := (headerValue ct).getD "application/octet-stream".str
  ⟨200, [("content-type".str, type), nosniff] ++
    (if isActiveContentType ct then [attachment] else []), bytes⟩

/-- The rest of `serve_blob`, after the owner of the key was asked for. -/
def serveObject (state : BlobState) (content : Content) (key : Str) : ApiResult Response :=
  match state.store.get content (state.store.path key) with
  | .error (.notFound _) => .error (.notFound "blob not found".str)
  | .error error => .error (.internal ("blob get: ".str ++ error.text))
  | .ok object =>
    match object.contentType.bind validContentType with
    | some ct => .ok (blobResponse ct object.bytes)
    | none =>
      (contentTypeForKey state.tables key).map
        (fun db => blobResponse (resolveContentType none db key) object.bytes)

/-- `serve_blob`. Every request that reaches it carries the identity of the gate. -/
def serveBlob (state : BlobState) (content : Content) (identity : Identity) (key : Str) :
    ApiResult Response :=
  if state.blobRoot.isEmpty then .error (.unavailable "blob storage not configured".str)
  else
    match sanitizeKey key with
    | none => .error (.badRequest "invalid key".str)
    | some key =>
      if (tenantOwnerOf key).any (fun owner => !mayReadTenant identity owner) then
        .error (.notFound "blob not found".str)
      else serveObject state content key

/-- The rest of `fetch`, with the row it found. -/
def serveRow (state : BlobState) (content : Content) (sha : Str) (row : TenantRow) :
    ApiResult Response :=
  match state.store.get content (state.store.path row.storageKey) with
  | .error (.notFound _) => .error (.notFound "blob bytes missing".str)
  | .error error => .error (.internal ("tenant blob get: ".str ++ error.text))
  | .ok object =>
    .ok ⟨200, [
      ("content-type".str, (headerValue row.contentType).getD "application/octet-stream".str),
      nosniff, attachment,
      ("x-blob-sha256".str, (headerValue sha).getD [])], object.bytes⟩

/-- `fetch` of `/me/blobs`. -/
def fetch (state : BlobState) (content : Content) (identity : Identity) (sha : Str) :
    ApiResult Response :=
  match ownerSegment identity.sub with
  | none => .error (.forbidden "this credential has no usable owner id".str)
  | some owner =>
    let sha := Text.toAsciiLowercase sha
    if !isSha256Hex sha then .error (.badRequest "expected a 64-char hex sha256".str)
    else do
      match ← state.tables.tenantRow owner sha with
      | none => .error (.notFound "no such blob for this account".str)
      | some row => serveRow state content sha row

/-- The answer of an upload. -/
structure UploadResponse where
  blob : TenantRow
  uri : Str
  alreadyExisted : Bool

def uriFor (sha : Str) : Str := "lumid://blob/sha256/".str ++ sha

/-- `header_str`: the trimmed value of a header, if there is one. -/
def headerStr (headers : List (Str × Str)) (name : Str) : Option Str :=
  (((List.lookup name headers).bind headerText).map Text.trim).filter (fun s => !s.isEmpty)

/-- `upload` of `/me/blobs`: what it answers, and the objects and tables it leaves. -/
def upload (state : BlobState) (content : Content) (identity : Identity)
    (headers : List (Str × Str)) (body : Bytes) (now : Str) :
    ApiResult (UploadResponse × Content × BlobTables) := do
  if state.blobRoot.isEmpty then
    throw (.unavailable "blob storage not configured".str)
  match ownerSegment identity.sub with
  | none => throw (.forbidden "this credential has no usable owner id".str)
  | some owner =>
    if body.isEmpty then
      throw (.badRequest "empty body — no bytes to store".str)
    if state.blobMaxBytes < body.length then
      throw (.badRequest ("blob too large (".str ++ Text.showNat body.length ++ " > ".str ++
        Text.showNat state.blobMaxBytes ++ " bytes)".str))
    let sha := state.crates.sha256Hex body
    let contentType := ((headerStr headers "content-type".str).bind validContentType).getD
      "application/octet-stream".str
    let name := (headerStr headers "x-filename".str).map (fun s => s.take 255)
    let key := tenantKey owner sha
    match ← state.tables.tenantRow owner sha with
    | some row => return (⟨row, uriFor sha, true⟩, content, state.tables)
    | none =>
      match state.store.putWithOptionalAttrs (state.store.path key) body contentType with
      | .error error => throw (.internal ("tenant blob put: ".str ++ error.text))
      | .ok object =>
        let row : TenantRow := ⟨owner, sha, key, contentType, body.length, name, now, rfl⟩
        return (⟨row, uriFor sha, false⟩,
          Function.update content (state.store.path key) (some object),
          { state.tables with tenantRows := state.tables.tenantRows ++ [row] })

end LumidPlatform.Blobs
