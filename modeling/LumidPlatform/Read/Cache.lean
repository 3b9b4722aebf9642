import LumidPlatform.Read.Spec

/-!
# Cache keys and cached bodies

What the two cache tiers store: the key of an entry, its spelling in Redis, and a
body with its digest. The tiers themselves, and what several replicas do to them,
are modelled where their runs are studied.
-/

namespace LumidPlatform.Read.Cache

/-- Endpoint id, generation and canonical parameters. -/
structure CacheKey where
  endpointId : Str
  gen : Nat
  paramsCanon : Str
  deriving DecidableEq

/-- The spelling of a key in Redis. -/
def CacheKey.redisKey (crates : Crates) (key : CacheKey) : Str :=
  "rc:v1".str ++ ':' :: key.endpointId ++ ':' :: Text.showNat key.gen ++
    ':' :: crates.sha256Hex (Text.utf8 key.paramsCanon)

/-- A response body, its ETag and its lifetime. -/
structure CachedBody where
  bytes : Bytes
  etag : Str
  ttl : Duration
  deriving DecidableEq

/-- `CachedBody::new`. -/
def CachedBody.new (crates : Crates) (bytes : Bytes) (ttl : Duration) : CachedBody :=
  ⟨bytes, '"' :: crates.sha256Hex bytes ++ ['"'], ttl⟩

/-- The newline byte between the ETag and the body of a stored entry. -/
def newline : UInt8 := 10

def encodeL2 (body : CachedBody) : Bytes := Text.utf8 body.etag ++ newline :: body.bytes

def decodeL2 (raw : Bytes) (ttl : Duration) : Option CachedBody :=
  match raw.dropWhile (· ≠ newline) with
  | _ :: bytes => some ⟨bytes, Text.fromUtf8Lossy (raw.takeWhile (· ≠ newline)), ttl⟩
  | [] => none

/-! ## What is stored is read back -/

/-- An ETag is ASCII text without a line break. -/
theorem etag_plain (crates : Crates) (bytes : Bytes) (ttl : Duration) :
    ∀ c ∈ (CachedBody.new crates bytes ttl).etag, c.toNat < 128 ∧ c.toNat ≠ 10 := by
  intro c member
  have cases : c = '"' ∨ c ∈ crates.sha256Hex bytes := by
    simpa [CachedBody.new, or_comm] using member
  rcases cases with rfl | digit
  · decide
  · have range := crates.sha256Hex_digits bytes c digit
    omega

/-- A stored body is read back, with the lifetime the reader gives it. -/
theorem decodeL2_encodeL2 (crates : Crates) (bytes : Bytes) (ttl ttl' : Duration) :
    decodeL2 (encodeL2 (CachedBody.new crates bytes ttl)) ttl' =
      some (CachedBody.new crates bytes ttl') := by
  have plain := etag_plain crates bytes ttl
  have ascii : ∀ c ∈ (CachedBody.new crates bytes ttl).etag, c.toNat < 128 :=
    fun c member => (plain c member).1
  have unbroken : ∀ b ∈ Text.utf8 (CachedBody.new crates bytes ttl).etag,
      decide (b ≠ newline) = true := by
    intro b member
    obtain ⟨c, inTag, rfl⟩ := Text.mem_utf8_ascii ascii member
    have code := plain c inTag
    apply decide_eq_true
    intro same
    have codes := congrArg UInt8.toNat same
    rw [newline, UInt8.toNat_ofNat', Nat.mod_eq_of_lt (by omega)] at codes
    exact code.2 codes
  have before : (encodeL2 (CachedBody.new crates bytes ttl)).takeWhile (· ≠ newline) =
      Text.utf8 (CachedBody.new crates bytes ttl).etag := by
    rw [encodeL2, List.takeWhile_append_of_pos unbroken]
    simp
  have after : (encodeL2 (CachedBody.new crates bytes ttl)).dropWhile (· ≠ newline) =
      newline :: bytes := by
    rw [encodeL2, List.dropWhile_append_of_pos unbroken]
    simp [CachedBody.new]
  simp only [decodeL2, before, after, Text.fromUtf8Lossy_utf8 ascii]
  rfl

end LumidPlatform.Read.Cache
