import LumidPlatform.Auth

/-!
# Blob keys

A key from a request is cut at its slashes and put together again without empty and
`.` parts; a key that climbs or is absolute is refused. Objects of a tenant live under
`tenants/` and the subject of their owner.
-/

namespace LumidPlatform.Blobs

/-- `sanitize_key`, over the components of a Unix path. -/
def sanitizeKey (key : Str) : Option Str :=
  let parts := (key.splitOn '/').filter (fun part => part ≠ [] && part ≠ ['.'])
  if key.head? = some '/' || parts.any (· == ['.', '.']) then none
  else if parts.isEmpty then none
  else some (Text.join ['/'] parts)

def tenantPrefix : Str := "tenants".str

/-- `owner_segment`: a subject is a key segment as it is, or is refused. -/
def ownerSegment (sub : Str) : Option Str :=
  if sub ≠ [] && Text.byteLen sub ≤ 128 &&
      sub.all (fun c => Text.isAsciiAlphanumeric c || c == '-' || c == '_')
  then some sub else none

def tenantKey (owner sha : Str) : Str :=
  tenantPrefix ++ '/' :: owner ++ "/sha256=".str ++ sha

/-- `tenant_owner_of`: the owner, when the key is that of a tenant's object. -/
def tenantOwnerOf (key : Str) : Option Str :=
  match (Text.stripPrefix key tenantPrefix).bind (fun rest => Text.stripPrefix rest ['/']) with
  | some rest => if rest.takeWhile (· ≠ '/') = [] then none else some (rest.takeWhile (· ≠ '/'))
  | none => none

/-- Admins and local keys may read any tenant's blobs; everyone else only their own. -/
def mayReadTenant (identity : Identity) (owner : Str) : Bool :=
  identity.role == "local".str ||
    (identity.role == "admin".str || identity.role == "super_admin".str) ||
    identity.sub == owner

def isSha256Hex (s : Str) : Bool :=
  Text.byteLen s == 64 &&
    s.all (fun c => Text.isAsciiDigit c || (97 ≤ c.toNat && c.toNat ≤ 102))

/-! ## Keys of tenants -/

/-- The characters of a usable owner. -/
theorem ownerSegment_some {sub owner : Str} (usable : ownerSegment sub = some owner) :
    owner = sub ∧ owner ≠ [] ∧ ∀ c ∈ owner, c ≠ '/' ∧ c ≠ '.' := by
  rw [ownerSegment] at usable
  split_ifs at usable with checked
  obtain rfl := Option.some.inj usable
  simp only [Bool.and_eq_true, decide_eq_true_eq, List.all_eq_true] at checked
  refine ⟨rfl, checked.1.1, fun c member => ?_⟩
  have allowed := checked.2 c member
  constructor
  · rintro rfl
    exact absurd allowed (by decide)
  · rintro rfl
    exact absurd allowed (by decide)

/-- A digest has no slash. -/
theorem isSha256Hex_plain {sha : Str} (digest : isSha256Hex sha = true) : '/' ∉ sha := by
  intro member
  simp only [isSha256Hex, Bool.and_eq_true, List.all_eq_true] at digest
  exact absurd (digest.2 '/' member) (by decide)

/-- The owner is read back from the key. -/
theorem tenantOwnerOf_tenantKey {owner : Str} (nonempty : owner ≠ []) (segment : '/' ∉ owner)
    (sha : Str) : tenantOwnerOf (tenantKey owner sha) = some owner := by
  have behind : Text.stripPrefix (tenantKey owner sha) tenantPrefix =
      some ('/' :: (owner ++ ("/sha256=".str ++ sha))) := by
    simp [Text.stripPrefix, Text.startsWith, tenantKey]
  have inside : Text.stripPrefix ('/' :: (owner ++ ("/sha256=".str ++ sha))) ['/'] =
      some (owner ++ ("/sha256=".str ++ sha)) := by
    simp [Text.stripPrefix, Text.startsWith]
  have first : (owner ++ ("/sha256=".str ++ sha)).takeWhile (· ≠ '/') = owner := by
    rw [List.takeWhile_append_of_pos]
    · have slash : "/sha256=".str = '/' :: "sha256=".str := by decide
      rw [slash]
      simp
    · intro c member
      simp only [ne_eq, decide_not, Bool.not_eq_eq_eq_not, Bool.not_true, decide_eq_false_iff_not]
      rintro rfl
      exact segment member
  simp only [tenantOwnerOf, behind, Option.bind_some, inside, first, if_neg nonempty]

/-- Plain segments joined are their own sanitized form. -/
theorem sanitizeKey_join {parts : List Str} (present : parts ≠ [])
    (plain : ∀ part ∈ parts, '/' ∉ part ∧ part ≠ [] ∧ part ≠ ['.'] ∧ part ≠ ['.', '.']) :
    sanitizeKey (Text.join ['/'] parts) = some (Text.join ['/'] parts) := by
  have split : (Text.join ['/'] parts).splitOn '/' = parts :=
    List.splitOn_intercalate '/' (fun part member => (plain part member).1) present
  have kept : parts.filter (fun part => part ≠ [] && part ≠ ['.']) = parts := by
    rw [List.filter_eq_self]
    intro part member
    simp [(plain part member).2.1, (plain part member).2.2.1]
  have level : parts.any (· == ['.', '.']) = false := by
    rw [List.any_eq_false]
    intro part member
    simpa using (plain part member).2.2.2
  have relative : (Text.join ['/'] parts).head? ≠ some '/' := by
    cases parts with
    | nil => exact absurd rfl present
    | cons first rest =>
      obtain ⟨slashless, nonempty, -⟩ := plain first List.mem_cons_self
      cases first with
      | nil => exact absurd rfl nonempty
      | cons c first =>
        rw [Text.join, List.intercalate, List.intersperse.eq_def]
        cases rest with
        | nil => simpa using fun same : c = '/' => slashless (by simp [same])
        | cons next rest => simpa using fun same : c = '/' => slashless (by simp [same])
  rw [sanitizeKey, split, kept, level, if_neg (by simpa using relative),
    if_neg (by simpa using present)]

/-- The segments of the key of a tenant's object. -/
theorem tenantKey_join (owner sha : Str) :
    tenantKey owner sha = Text.join ['/'] [tenantPrefix, owner, "sha256=".str ++ sha] := by
  have slash : "/sha256=".str = '/' :: "sha256=".str := by decide
  simp [tenantKey, slash, Text.join, List.intercalate]

/-- The last segment of a key made from a digest. -/
theorem digest_plain {sha : Str} (slashless : '/' ∉ sha) :
    '/' ∉ "sha256=".str ++ sha ∧ "sha256=".str ++ sha ≠ [] ∧ "sha256=".str ++ sha ≠ ['.'] ∧
      "sha256=".str ++ sha ≠ ['.', '.'] := by
  have tag : "sha256=".str = 's' :: "ha256=".str := by decide
  refine ⟨fun member => ?_, ?_, ?_, ?_⟩
  · rcases List.mem_append.mp member with inTag | inDigest
    · exact absurd inTag (by decide)
    · exact slashless inDigest
  all_goals
    rw [tag]
    simp

/-- The key of a tenant's object is its own sanitized form. -/
theorem sanitizeKey_tenantKey {owner sha : Str} (nonempty : owner ≠ [])
    (segment : ∀ c ∈ owner, c ≠ '/' ∧ c ≠ '.') (digest : '/' ∉ sha) :
    sanitizeKey (tenantKey owner sha) = some (tenantKey owner sha) := by
  have noDot : '.' ∉ owner := fun member => (segment _ member).2 rfl
  have owned : '/' ∉ owner ∧ owner ≠ [] ∧ owner ≠ ['.'] ∧ owner ≠ ['.', '.'] := by
    refine ⟨fun member => (segment _ member).1 rfl, nonempty, ?_, ?_⟩
    · rintro rfl
      exact noDot (by simp)
    · rintro rfl
      exact noDot (by simp)
  rw [tenantKey_join]
  apply sanitizeKey_join (by simp)
  intro part member
  simp only [List.mem_cons, List.not_mem_nil, or_false] at member
  rcases member with rfl | rfl | rfl
  · decide
  · exact owned
  · exact digest_plain digest

/-- The key of a tenant's object at its slashes. -/
theorem tenantKey_splitOn {owner sha : Str} (segment : '/' ∉ owner) (digest : '/' ∉ sha) :
    (tenantKey owner sha).splitOn '/' = [tenantPrefix, owner, "sha256=".str ++ sha] := by
  rw [tenantKey_join]
  apply List.splitOn_intercalate '/' _ (by simp)
  intro part member
  simp only [List.mem_cons, List.not_mem_nil, or_false] at member
  rcases member with rfl | rfl | rfl
  · decide
  · exact segment
  · exact (digest_plain digest).1

/-- A key of a tenant's object names its owner and its digest. -/
theorem tenantKey_injective {owner owner' sha sha' : Str} (segment : '/' ∉ owner)
    (segment' : '/' ∉ owner') (digest : '/' ∉ sha) (digest' : '/' ∉ sha')
    (same : tenantKey owner sha = tenantKey owner' sha') : owner = owner' ∧ sha = sha' := by
  have parts := congrArg (List.splitOn '/') same
  rw [tenantKey_splitOn segment digest, tenantKey_splitOn segment' digest'] at parts
  simpa using parts

end LumidPlatform.Blobs
