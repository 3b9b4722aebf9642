import LumidPlatform.Blobs.Store
import LumidPlatform.Lib.Paths

/-!
# Listing blobs

`GET /blobs` lists what the store lists, flat or by folders, without what lies under the prefix
of retrieval outputs and, for most callers, without what belongs to tenants.
-/

namespace LumidPlatform.Blobs

/-- `is_hidden_key`. -/
def isHiddenKey (key retrievalPrefix : Str) : Bool :=
  if retrievalPrefix.isEmpty then false
  else decide (key = retrievalPrefix) || Text.startsWith key (retrievalPrefix ++ ['/'])

/-- `is_hidden_prefix`. -/
def isHiddenPrefix (commonPrefix retrievalPrefix : Str) : Bool :=
  if retrievalPrefix.isEmpty then false
  else
    let norm := Text.trimEndMatches '/' commonPrefix
    decide (norm = retrievalPrefix) || Text.startsWith norm (retrievalPrefix ++ ['/'])

/-- An `ObjectMeta`, and an item of the answer. -/
structure BlobItem where
  key : Str
  size : Nat
  lastModified : Str

/-- What the store lists under a prefix. -/
structure Listing where
  objects : List BlobItem
  commonPrefixes : List Str

/-- `ListBlobsResponse`. -/
structure ListBlobsResponse where
  objects : List BlobItem
  commonPrefixes : List Str
  truncated : Bool

/-- `clamp_limit`. -/
def clampLimit : Option Nat → Nat
  | none => 1000
  | some n => min (max n 1) 10000

/-- `ListParams`. -/
structure ListParams where
  pathPrefix : Option Str
  delimiter : Option Str
  limit : Option Nat

/-- `show_tenants`. -/
def showTenants (identity : Identity) : Bool :=
  identity.role == "local".str ||
    (identity.role == "admin".str || identity.role == "super_admin".str)

/-- `sanitize_prefix`. -/
def sanitizePrefix (store : ObjectStore) (pathPrefix : Str) : ApiResult (Option Str) :=
  if pathPrefix.isEmpty then .ok none
  else
    match sanitizeKey pathPrefix with
    | some clean => .ok (some (store.path clean))
    | none => .error (.badRequest "invalid prefix".str)

/-- What is left of a listing when the hidden objects and folders are taken out. -/
def visible (retrievalPrefix : Str) (withTenants useDelimiter : Bool) (listing : Listing) :
    Listing :=
  let hiddenKey (k : Str) : Bool := isHiddenKey k retrievalPrefix ||
    (!withTenants && isHiddenKey k tenantPrefix)
  let hiddenPrefix (p : Str) : Bool := isHiddenPrefix p retrievalPrefix ||
    (!withTenants && isHiddenPrefix p tenantPrefix)
  { objects := listing.objects.filter (fun item => !hiddenKey item.key)
    commonPrefixes :=
      if useDelimiter then listing.commonPrefixes.filter (fun p => !hiddenPrefix p) else [] }

/-- `list_blobs`; what the store lists is an argument, by folders or flat. -/
def listBlobs (blobRoot retrievalPrefix : Str) (store : ObjectStore)
    (list : (byFolder : Bool) → Option Str → Except Str Listing) (identity : Identity)
    (params : ListParams) : ApiResult ListBlobsResponse :=
  if blobRoot.isEmpty then .error (.unavailable "blob storage not configured".str)
  else
    match sanitizePrefix store (params.pathPrefix.getD []) with
    | .error error => .error error
    | .ok pathPrefix =>
      let limit := clampLimit params.limit
      let useDelimiter := params.delimiter.any (fun d => !d.isEmpty)
      match list useDelimiter pathPrefix with
      | .error text => .error (.internal ("blob list: ".str ++ text))
      | .ok listing =>
        let shown := visible retrievalPrefix (showTenants identity) useDelimiter listing
        .ok {
          objects := shown.objects.take limit
          commonPrefixes := shown.commonPrefixes.take limit
          truncated := decide (limit < shown.objects.length) ||
            decide (limit < shown.commonPrefixes.length) }

/-! ## What is hidden -/

/-- A key is hidden exactly if the segments of the prefix are its first. -/
theorem isHiddenKey_iff {key retrievalPrefix : Str} (nonempty : retrievalPrefix ≠ []) :
    isHiddenKey key retrievalPrefix = true ↔ retrievalPrefix.splitOn '/' <+: key.splitOn '/' := by
  rw [isHiddenKey, if_neg (by simpa using nonempty), Bool.or_eq_true, decide_eq_true_eq,
    Text.startsWith, List.isPrefixOf_iff_prefix]
  exact Paths.under_iff

theorem isHiddenPrefix_eq (commonPrefix retrievalPrefix : Str) :
    isHiddenPrefix commonPrefix retrievalPrefix =
      isHiddenKey (Text.trimEndMatches '/' commonPrefix) retrievalPrefix := rfl

/-- An object and its folder are listed by nobody without the rights of an admin. -/
def Unlisted (retrievalPrefix location folder : Str) : Prop :=
  ∀ blobRoot store list identity params answer, showTenants identity = false →
    listBlobs blobRoot retrievalPrefix store list identity params = .ok answer →
      (∀ item ∈ answer.objects, item.key ≠ location) ∧
        ∀ p ∈ answer.commonPrefixes, Text.trimEndMatches '/' p ≠ folder

theorem mem_visible {retrievalPrefix : Str} {useDelimiter : Bool} {listing : Listing} :
    (∀ item ∈ (visible retrievalPrefix false useDelimiter listing).objects,
        isHiddenKey item.key retrievalPrefix = false ∧ isHiddenKey item.key tenantPrefix = false) ∧
      ∀ p ∈ (visible retrievalPrefix false useDelimiter listing).commonPrefixes,
        isHiddenPrefix p retrievalPrefix = false ∧ isHiddenPrefix p tenantPrefix = false := by
  constructor
  · intro item member
    simpa using (List.mem_filter.mp member).2
  · intro p member
    rw [visible] at member
    cases useDelimiter with
    | true => simpa using (List.mem_filter.mp member).2
    | false => cases member

theorem listBlobs_ok {blobRoot retrievalPrefix : Str} {store : ObjectStore}
    {list : Bool → Option Str → Except Str Listing} {identity : Identity} {params : ListParams}
    {answer : ListBlobsResponse}
    (answered : listBlobs blobRoot retrievalPrefix store list identity params = .ok answer) :
    ∃ useDelimiter listing limit,
      answer.objects =
          (visible retrievalPrefix (showTenants identity) useDelimiter listing).objects.take limit ∧
        answer.commonPrefixes = (visible retrievalPrefix (showTenants identity) useDelimiter
          listing).commonPrefixes.take limit := by
  rw [listBlobs] at answered
  by_cases unset : blobRoot.isEmpty = true
  · rw [if_pos unset] at answered
    cases answered
  · rw [if_neg unset] at answered
    split at answered
    next => cases answered
    next pathPrefix found =>
      dsimp only at answered
      split at answered
      next => cases answered
      next listing listed =>
        obtain rfl := Except.ok.inj answered
        exact ⟨_, listing, _, rfl, rfl⟩

/-- A store that lists one object, or one folder. -/
def listsOnly (location folder : Str) (_ : Bool) (_ : Option Str) : Except Str Listing :=
  .ok ⟨[⟨location, 0, []⟩], [folder]⟩

/-- An object and its folder are unlisted exactly if both are hidden, as retrieval outputs or as
belonging to tenants. -/
theorem unlisted_iff {retrievalPrefix location folder : Str}
    (bare : Text.trimEndMatches '/' folder = folder) :
    Unlisted retrievalPrefix location folder ↔
      (isHiddenKey location retrievalPrefix || isHiddenKey location tenantPrefix) = true ∧
        (isHiddenKey folder retrievalPrefix || isHiddenKey folder tenantPrefix) = true := by
  constructor
  · intro unlisted
    have asked (answer : ListBlobsResponse)
        (answered : listBlobs "root".str retrievalPrefix ObjectStore.plain
          (listsOnly location folder) { sub := [], role := [] } ⟨none, some ['/'], none⟩ =
            .ok answer) :=
      unlisted "root".str ObjectStore.plain (listsOnly location folder) { sub := [], role := [] }
        ⟨none, some ['/'], none⟩ answer rfl answered
    obtain ⟨objects, prefixes⟩ := asked _ rfl
    constructor
    · by_contra seen
      refine objects ⟨location, 0, []⟩ ?_ rfl
      rw [Bool.not_eq_true] at seen
      show _ ∈ (visible retrievalPrefix false true
        ⟨[⟨location, 0, []⟩], [folder]⟩).objects.take 1000
      obtain ⟨shown, alsoShown⟩ := Bool.or_eq_false_iff.mp seen
      simp [visible, shown, alsoShown]
    · by_contra seen
      refine prefixes folder ?_ bare
      rw [Bool.not_eq_true] at seen
      show _ ∈ (visible retrievalPrefix false true
        ⟨[⟨location, 0, []⟩], [folder]⟩).commonPrefixes.take 1000
      obtain ⟨shown, alsoShown⟩ := Bool.or_eq_false_iff.mp seen
      simp [visible, isHiddenPrefix_eq, bare, shown, alsoShown]
  · rintro ⟨object, directory⟩ blobRoot store list identity params answer ordinary answered
    obtain ⟨useDelimiter, listing, limit, objects, prefixes⟩ := listBlobs_ok answered
    rw [ordinary] at objects prefixes
    constructor
    · rintro item member rfl
      rw [objects] at member
      obtain ⟨shown, alsoShown⟩ := mem_visible.1 item (List.mem_of_mem_take member)
      rw [shown, alsoShown] at object
      cases object
    · rintro p member rfl
      rw [prefixes] at member
      obtain ⟨shown, alsoShown⟩ := mem_visible.2 p (List.mem_of_mem_take member)
      rw [isHiddenPrefix_eq] at shown alsoShown
      rw [shown, alsoShown] at directory
      cases directory

end LumidPlatform.Blobs
