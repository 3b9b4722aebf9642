import LumidPlatform.Federation.Routes
import LumidPlatform.Federation.Shadow

/-!
# What stays local

The paths that a shadow serves itself are told by their first characters, as they were sent.
Of the reads that answer each caller differently, these are the tenant's own blobs, under
their own route or under a key that is spelled out, and what is declared below them.
-/

namespace LumidPlatform.Federation.LocalOnly

open LumidPlatform.Read.Spec

/-! ## Segments -/

theorem segments_cases (s : Str) :
    '/' ∉ s ∨ ∃ segment rest, s = segment ++ '/' :: rest ∧ '/' ∉ segment := by
  by_cases slash : '/' ∈ s
  · exact Or.inr (List.eq_append_cons_of_mem slash)
  · exact Or.inl slash

theorem splitOn_segment {segment : Str} (plain : '/' ∉ segment) (rest : Str) :
    (segment ++ '/' :: rest).splitOn '/' = segment :: rest.splitOn '/' :=
  List.splitOn_append_cons_self_of_not_mem plain rest

theorem startsWith_cons (c : Char) (s word : Str) :
    Text.startsWith (c :: s) (c :: word) = Text.startsWith s word := by
  simp [Text.startsWith]

theorem startsWith_ne {c d : Char} (other : c ≠ d) (s word : Str) :
    Text.startsWith (c :: s) (d :: word) = false := by
  rw [Text.startsWith, List.isPrefixOf, beq_false_of_ne (Ne.symm other), Bool.false_and]

/-- A text without a slash begins with no word that has one. -/
theorem startsWith_plain {s : Str} (plain : '/' ∉ s) (word more : Str) :
    Text.startsWith s (word ++ '/' :: more) = false := by
  rw [Bool.eq_false_iff]
  intro begins
  have inside : word ++ '/' :: more <+: s := List.isPrefixOf_iff_prefix.mp begins
  exact plain (inside.subset (by simp))

/-- Segment by segment. -/
theorem startsWith_segment {segment word : Str} (plain : '/' ∉ segment) (whole : '/' ∉ word)
    (rest more : Str) :
    Text.startsWith (segment ++ '/' :: rest) (word ++ '/' :: more) =
      (segment == word && Text.startsWith rest more) := by
  induction segment generalizing word with
  | nil =>
    cases word with
    | nil => simp [Text.startsWith]
    | cons c word =>
      have other : '/' ≠ c := fun same => whole (same ▸ List.mem_cons_self)
      rw [List.nil_append, List.cons_append, startsWith_ne other]
      rfl
  | cons c segment inductionHypothesis =>
    have other : c ≠ '/' := fun same => plain (same ▸ List.mem_cons_self)
    cases word with
    | nil =>
      rw [List.cons_append, List.nil_append, startsWith_ne other]
      rfl
    | cons d word =>
      have next := inductionHypothesis (fun member => plain (List.mem_cons_of_mem _ member))
        (fun member => whole (List.mem_cons_of_mem d member))
      by_cases same : c = d
      · subst same
        rw [List.cons_append, List.cons_append, startsWith_cons, next]
        simp
      · rw [List.cons_append, List.cons_append, startsWith_ne same]
        simp [same]

/-- A word without a slash is sought in the first segment. -/
theorem startsWith_word {word : Str} (whole : '/' ∉ word) (segment rest : Str) :
    Text.startsWith (segment ++ '/' :: rest) word = Text.startsWith segment word := by
  induction word generalizing segment with
  | nil => simp [Text.startsWith]
  | cons d word inductionHypothesis =>
    have other : '/' ≠ d := fun same => whole (same ▸ List.mem_cons_self)
    cases segment with
    | nil =>
      rw [List.nil_append, startsWith_ne other]
      rfl
    | cons c segment =>
      have next := inductionHypothesis (fun member => whole (List.mem_cons_of_mem _ member)) segment
      by_cases same : c = d
      · subst same
        rw [List.cons_append, startsWith_cons, startsWith_cons, next]
      · rw [List.cons_append, startsWith_ne same, startsWith_ne same]

/-- The paths that are served locally, by their segments. -/
def localPlane : List Str → Bool
  | [[], plane] => ["health".str, "metrics".str, "openapi.json".str, "v1".str].contains plane
  | [] :: plane :: next :: more =>
    plane == "health".str || plane == "v1".str ||
      (plane == "me".str && Text.startsWith next "blobs".str) ||
      (plane == "blobs".str && next == "tenants".str && !more.isEmpty)
  | _ => false

theorem localPlane_ne {first : Str} (other : first ≠ []) (more : List Str) :
    localPlane (first :: more) = false := by
  cases first with
  | nil => exact absurd rfl other
  | cons c first =>
    cases more with
    | nil => rfl
    | cons plane more =>
      cases more with
      | nil => rfl
      | cons next more => rfl

theorem startsWith_nil (s : Str) : Text.startsWith s [] = true := by
  simp [Text.startsWith]

/-- The two tests on a path below the root, by what follows the first slash. -/
theorem isLocalOnly_cons (rest : Str) : isLocalOnly ('/' :: rest) =
    (["health".str, "metrics".str, "openapi.json".str, "v1".str].contains rest ||
      (Text.startsWith rest ("health".str ++ ['/']) || Text.startsWith rest ("v1".str ++ ['/']) ||
        Text.startsWith rest ("me".str ++ '/' :: "blobs".str) ||
        Text.startsWith rest ("blobs".str ++ '/' :: ("tenants".str ++ ['/'])))) := by
  have exact : localOnlyExact = ['/' :: "health".str, '/' :: "metrics".str,
      '/' :: "openapi.json".str] := by
    decide
  have root : "/v1".str = '/' :: "v1".str := by decide
  have prefixes : localOnlyPrefix = ['/' :: ("health".str ++ ['/']), '/' :: ("v1".str ++ ['/']),
      '/' :: ("me".str ++ '/' :: "blobs".str),
      '/' :: ("blobs".str ++ '/' :: ("tenants".str ++ ['/']))] := by
    decide
  rw [isLocalOnly, exact, root, prefixes]
  have branches (here there : Bool) : (if here = true then true else there) = (here || there) := by
    cases here <;> rfl
  have same (word : Str) : (('/' :: rest) == ('/' :: word)) = (rest == word) := by
    simp
  simp only [branches, List.any_cons, List.any_nil, startsWith_cons, List.contains_cons, same,
    List.contains_nil, Bool.or_false, Bool.or_assoc, List.cons.injEq, true_and,
    ← beq_eq_decide]

/-- A path without a slash in front is none of them. -/
theorem isLocalOnly_of_relative {path : Str} (relative : ∀ rest, path ≠ '/' :: rest) :
    isLocalOnly path = false := by
  have rooted : (∀ word ∈ localOnlyExact ++ localOnlyPrefix, word.head? = some '/') ∧
      "/v1".str = '/' :: "v1".str := by
    decide
  have differs {word : Str} (root : word.head? = some '/') : Text.startsWith path word = false := by
    cases word with
    | nil => cases root
    | cons d word =>
      obtain rfl := Option.some.inj root
      cases path with
      | nil => rfl
      | cons c path =>
        have other : c ≠ '/' := by
          rintro rfl
          exact relative path rfl
        exact startsWith_ne other path word
  have listed : localOnlyExact.contains path = false := by
    rw [Bool.eq_false_iff]
    intro listed
    have among := List.contains_iff_mem.mp listed
    have begins := differs (rooted.1 path (List.mem_append_left _ among))
    rw [Text.startsWith, List.isPrefixOf_iff_prefix.mpr List.prefix_rfl] at begins
    cases begins
  have root : path ≠ "/v1".str := rooted.2 ▸ relative _
  have begins : localOnlyPrefix.any (Text.startsWith path) = false := by
    rw [List.any_eq_false]
    intro word among
    rw [differs (rooted.1 word (List.mem_append_right _ among))]
    simp
  rw [isLocalOnly, listed, begins]
  simp [root]

/-- The tests on the characters of a path are tests on its segments. -/
theorem isLocalOnly_eq (path : Str) : isLocalOnly path = localPlane (path.splitOn '/') := by
  have plain : ∀ word ∈ ["health".str, "v1".str, "me".str, "blobs".str, "tenants".str,
      "metrics".str, "openapi.json".str], '/' ∉ word := by
    decide
  rcases segments_cases path with whole | ⟨first, rest, rfl, firstPlain⟩
  · have relative (rest : List Char) : path ≠ '/' :: rest := by
      rintro rfl
      exact whole List.mem_cons_self
    rw [List.splitOn_eq_singleton whole, isLocalOnly_of_relative relative]
    simp [localPlane]
  · rw [splitOn_segment firstPlain]
    cases first with
    | cons c first =>
      have relative (more : List Char) : c :: first ++ '/' :: rest ≠ '/' :: more := by
        intro same
        obtain ⟨rfl, -⟩ := List.cons.inj same
        exact firstPlain List.mem_cons_self
      rw [localPlane_ne (by simp), isLocalOnly_of_relative relative]
    | nil =>
      rw [List.nil_append, isLocalOnly_cons]
      rcases segments_cases rest with whole | ⟨plane, rest, rfl, planePlain⟩
      · rw [List.splitOn_eq_singleton whole, startsWith_plain whole, startsWith_plain whole,
          startsWith_plain whole, startsWith_plain whole]
        simp [localPlane]
      · have inside : ["health".str, "metrics".str, "openapi.json".str, "v1".str].contains
            (plane ++ '/' :: rest) = false := by
          rw [Bool.eq_false_iff]
          intro listed
          have among := List.contains_iff_mem.mp listed
          simp only [List.mem_cons, List.not_mem_nil, or_false] at among
          rcases among with same | same | same | same
          all_goals exact plain _ (by simp) (same ▸ List.mem_append_right plane List.mem_cons_self)
        rw [splitOn_segment planePlain, inside, startsWith_segment planePlain (plain _ (by simp)),
          startsWith_segment planePlain (plain _ (by simp)),
          startsWith_segment planePlain (plain _ (by simp)),
          startsWith_segment planePlain (plain _ (by simp)), startsWith_nil]
        rcases segments_cases rest with whole | ⟨next, rest, rfl, nextPlain⟩
        · rw [List.splitOn_eq_singleton whole, startsWith_plain whole]
          simp [localPlane]
        · rw [splitOn_segment nextPlain, startsWith_word (plain "blobs".str (by simp)),
            startsWith_segment nextPlain (plain _ (by simp)), startsWith_nil]
          have more : (rest.splitOn '/').isEmpty = false := by
            simp [List.splitOn_ne_nil]
          simp [localPlane, more]

/-! ## Reads that depend on the caller -/

/-- A read whose handler asks who calls. -/
structure IdentityRead where
  route : Route
  request : Request
  reads : request.method = .get ∨ request.method = .head
  matched : (matchPath route.pattern request.path).isSome = true
  asked : route.askedByIdentity request.path = true

/-- The read is answered by its own handler, and nothing of it is kept. -/
def StaysOwn (read : IdentityRead) : Prop :=
  isLocalOnly read.request.path = true ∧
    ∀ inst cache, shadowForward inst cache read.request = (.ownHandler, cache)

/-- The reads of a tenant's own blobs: under their own route, by a key whose first segment is
spelled `tenants` as it is, or declared under one of the paths that are served locally. -/
def Spelled (read : IdentityRead) : Prop :=
  match read.route with
  | .meBlobsList | .meBlobsFetch => True
  | .serveBlob => (read.request.path.splitOn '/')[2]? = some "tenants".str
  | .declared _ => localPlane (read.request.path.splitOn '/') = true
  | _ => False

theorem staysOwn_iff_local (read : IdentityRead) :
    StaysOwn read ↔ localPlane (read.request.path.splitOn '/') = true := by
  rw [← isLocalOnly_eq]
  constructor
  · exact And.left
  · intro stays
    exact ⟨stays, fun inst cache => shadowForward_local inst cache read.request stays⟩

/-- A piece that names no parameter is matched by itself. -/
theorem matchSegments_static {piece : Str}
    (static : piece.head? ≠ some ':' ∧ piece.head? ≠ some '*') {pieces segments : List Str}
    (matched : (matchSegments (piece :: pieces) segments).isSome = true) :
    ∃ rest, segments = piece :: rest ∧ (matchSegments pieces rest).isSome = true := by
  cases segments with
  | nil => simp [matchSegments] at matched
  | cons segment rest =>
    rw [matchSegments.eq_def] at matched
    dsimp only at matched
    split at matched
    · exact absurd rfl static.1
    · exact absurd rfl static.2
    · split at matched
      · rename_i same
        exact ⟨rest, same ▸ rfl, matched⟩
      · cases matched

/-- Nothing under another first segment is served locally. -/
theorem localPlane_other {plane : Str}
    (other : plane ∉ ["health".str, "metrics".str, "openapi.json".str, "v1".str, "me".str,
      "blobs".str])
    (more : List Str) : localPlane ([] :: plane :: more) = false := by
  simp only [List.mem_cons, List.not_mem_nil, or_false, not_or] at other
  obtain ⟨health, metrics, openapi, root, me, blobs⟩ := other
  cases more with
  | nil => simp [localPlane, health, metrics, openapi, root]
  | cons next more => simp [localPlane, health, root, me, blobs]

/-- The segments that a route takes begin with its own static pieces. -/
theorem matched_plane {pattern path plane : Str} {pieces : List Str}
    (shape : pattern.splitOn '/' = [] :: plane :: pieces)
    (static : plane.head? ≠ some ':' ∧ plane.head? ≠ some '*')
    (matched : (matchPath pattern path).isSome = true) :
    ∃ rest, path.splitOn '/' = [] :: plane :: rest ∧ (matchSegments pieces rest).isSome = true := by
  rw [matchPath, shape] at matched
  obtain ⟨below, rooted, inside⟩ := matchSegments_static (by simp) matched
  obtain ⟨rest, rfl, taken⟩ := matchSegments_static static inside
  exact ⟨rest, rooted, taken⟩

theorem localPlane_elsewhere {pattern path plane : Str} {pieces : List Str}
    (shape : pattern.splitOn '/' = [] :: plane :: pieces)
    (static : plane.head? ≠ some ':' ∧ plane.head? ≠ some '*')
    (other : plane ∉ ["health".str, "metrics".str, "openapi.json".str, "v1".str, "me".str,
      "blobs".str])
    (matched : (matchPath pattern path).isSome = true) :
    localPlane (path.splitOn '/') = false := by
  obtain ⟨rest, segments, -⟩ := matched_plane shape static matched
  rw [segments]
  exact localPlane_other other rest

/-- A path without parameters is matched by itself. -/
theorem matched_nil {rest : List Str} (matched : (matchSegments [] rest).isSome = true) :
    rest = [] := by
  cases rest with
  | nil => rfl
  | cons segment rest => cases matched

/-- Both routes of a tenant's own blobs are local. -/
theorem localPlane_meBlobs {pattern path : Str} {pieces : List Str}
    (shape : pattern.splitOn '/' = [] :: "me".str :: "blobs".str :: pieces)
    (matched : (matchPath pattern path).isSome = true) :
    localPlane (path.splitOn '/') = true := by
  obtain ⟨below, segments, inside⟩ := matched_plane shape (by decide) matched
  obtain ⟨rest, rfl, -⟩ := matchSegments_static (by decide) inside
  have begins : Text.startsWith "blobs".str "blobs".str = true := by decide
  rw [segments]
  simp [localPlane, begins]

theorem localPlane_listBlobs {path : Str}
    (matched : (matchPath Route.listBlobs.pattern path).isSome = true) :
    localPlane (path.splitOn '/') = false := by
  obtain ⟨rest, segments, taken⟩ := @matched_plane _ path "blobs".str []
    (by decide) (by decide) matched
  obtain rfl := matched_nil taken
  rw [segments]
  decide

/-- The key of the directory of all tenants is nobody's. -/
theorem directory_unowned {path : Str}
    (directory : path.splitOn '/' = [[], "blobs".str, "tenants".str]) :
    Route.serveBlob.askedByIdentity path = false := by
  have spelled : path = "/blobs/tenants".str := by
    have rejoined : List.intercalate ['/'] (path.splitOn '/') = path :=
      List.intercalate_splitOn '/'
    rw [← rejoined, directory]
    decide
  rw [spelled]
  decide +kernel

/-- A blob with an owner is served locally when the first segment of its key is spelled out. -/
theorem localPlane_blob {path : Str}
    (matched : (matchPath Route.serveBlob.pattern path).isSome = true)
    (asked : Route.serveBlob.askedByIdentity path = true) :
    localPlane (path.splitOn '/') = true ↔ (path.splitOn '/')[2]? = some "tenants".str := by
  obtain ⟨rest, segments, taken⟩ := @matched_plane _ path "blobs".str ["*key".str]
    (by decide) (by decide) matched
  rw [segments]
  cases rest with
  | nil => cases taken
  | cons key more =>
    have kinds : "blobs".str ≠ "health".str ∧ "blobs".str ≠ "v1".str ∧ "blobs".str ≠ "me".str := by
      decide
    have plane : localPlane ([] :: "blobs".str :: key :: more) =
        (key == "tenants".str && !more.isEmpty) := by
      simp [localPlane, kinds]
    rw [plane]
    constructor
    · intro stays
      simp only [Bool.and_eq_true, beq_iff_eq] at stays
      simp [stays.1]
    · intro spelled
      obtain rfl : key = "tenants".str := by simpa using spelled
      cases more with
      | nil =>
        rw [directory_unowned segments] at asked
        cases asked
      | cons owner more => simp

/-- Of the reads that depend on the caller, exactly those of a tenant's own blobs, and what is
declared among the local paths, are kept from the peer and from the shared answers. -/
theorem staysOwn_iff (read : IdentityRead) : StaysOwn read ↔ Spelled read := by
  rw [staysOwn_iff_local]
  obtain ⟨route, request, reads, matched, asked⟩ := read
  cases route with
  | schemas | schemaTables | tableProfile | lineageRun | lineageRow | sources | tableSchemaJson
  | freshness | listProposals => cases asked
  | declared spec => exact Iff.rfl
  | meBlobsList => exact iff_of_true (@localPlane_meBlobs _ _ [] (by decide) matched) trivial
  | meBlobsFetch =>
    exact iff_of_true (@localPlane_meBlobs _ _ [":sha256".str] (by decide) matched) trivial
  | serveBlob => exact localPlane_blob matched asked
  | listBlobs => exact iff_of_false (by simp [localPlane_listBlobs matched]) id
  | writable | lineageRuns | submitters | usageMe | getProposal | getExport | llmBackendStats =>
    have elsewhere := localPlane_elsewhere rfl (by decide) (by decide) matched
    exact iff_of_false (by simp [elsewhere]) id

/-- A shadow of a hub that names the holder of the bearer it is asked with. -/
def namingShadow : Instance where
  readFederate := some "hub".str
  peer _ := some ⟨"hub".str, "https://hub".str, "shadow".str⟩
  retrievalPrefix := "retrievals".str
  forwardParts peer _ _ _ _ := some ⟨200, [], Text.utf8 peer.token⟩

/-- A caller asks for the usage that is theirs. -/
def usageOf (sub : Str) : IdentityRead where
  route := .usageMe
  request := ⟨.get, "/usage/me".str, none, some ⟨sub, "user".str, []⟩⟩
  reads := Or.inl rfl
  matched := (by decide : (matchPath Route.usageMe.pattern "/usage/me".str).isSome = true)
  asked := rfl

/-- One caller's usage is asked of the peer under the bearer of the instance, and the answer
is kept and given to the next caller. -/
theorem usage_shared : (¬∀ read : IdentityRead, StaysOwn read) ∧
    (shadowForward namingShadow (fun _ => none) (usageOf "alice".str).request).1 =
      .forwarded ⟨200, [], Text.utf8 "shadow".str⟩ ∧
    (shadowForward namingShadow
      (shadowForward namingShadow (fun _ => none) (usageOf "alice".str).request).2
      (usageOf "bob".str).request).1 = .cached ⟨200, [], Text.utf8 "shadow".str⟩ := by
  refine ⟨fun all => ?_, by decide +kernel, by decide +kernel⟩
  have stays : isLocalOnly "/usage/me".str = true := (all (usageOf "alice".str)).1
  exact absurd stays (by decide)

end LumidPlatform.Federation.LocalOnly
