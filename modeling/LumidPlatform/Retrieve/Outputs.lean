import Mathlib.Data.List.Flatten
import LumidPlatform.Blobs.Listing
import LumidPlatform.Federation.Routes
import LumidPlatform.Federation.Shadow
import LumidPlatform.Retrieve.Replayer

/-!
# Retrieval outputs under a configured prefix

The prefix that is configured for retrieval outputs is used as it is for the key and the address
of an output and for hiding it from listings, without slashes around it for telling that it is
kept by the instance itself, and cut into its parts by the object store and by the handler that
serves it. All of them agree on the prefixes that are spelled out.
-/

namespace LumidPlatform.Retrieve.Outputs

open Blobs Federation
open LumidPlatform.Read.Exec (hexDigit hexPair)

/-! ## Paths of the object store -/

/-- The characters that `object_store` percent-encodes in a part of a path. -/
def reserved (c : Char) : Bool :=
  c.toNat < 32 || 127 ≤ c.toNat || [0x2F, 0x5C, 0x7B, 0x5E, 0x7D, 0x25, 0x60, 0x5D, 0x22, 0x3E,
    0x5B, 0x7E, 0x3C, 0x23, 0x7C, 0x2A, 0x3F].contains c.toNat

/-- A part that `object_store` keeps as it is. -/
def isPlain (part : Str) : Bool :=
  part ≠ ['.'] && part ≠ ['.', '.'] && part.all (fun c => !reserved c)

/-- `object_store::path`: how a part of a path is encoded. -/
structure StorePaths where
  /-- `PathPart::from`. -/
  encode : Str → Str
  encode_injective : Function.Injective encode
  encode_segment : ∀ part, part ≠ [] → '/' ∉ part → encode part ≠ [] ∧ '/' ∉ encode part
  encode_eq_self : ∀ part, '/' ∉ part → (encode part = part ↔ isPlain part = true)

/-- The parts of a key that are not empty. -/
def nonempties (key : Str) : List Str := (key.splitOn '/').filter (· ≠ [])

variable (paths : StorePaths)

/-- `Path::from`: empty parts are dropped, the others encoded. -/
def StorePaths.path (key : Str) : Str := Text.join ['/'] ((nonempties key).map paths.encode)

theorem mem_nonempties {key part : Str} (member : part ∈ nonempties key) :
    part ≠ [] ∧ '/' ∉ part := by
  obtain ⟨inside, nonempty⟩ := List.mem_filter.mp member
  exact ⟨by simpa using nonempty, Paths.separator_not_mem inside⟩

/-- The parts of a path are the encoded parts of its key. -/
theorem splitOn_path {key : Str} (present : nonempties key ≠ []) :
    (paths.path key).splitOn '/' = (nonempties key).map paths.encode := by
  rw [StorePaths.path, Text.join]
  refine List.splitOn_intercalate '/' (fun part member => ?_) (by simpa using present)
  obtain ⟨plain, inside, rfl⟩ := List.mem_map.mp member
  obtain ⟨nonempty, whole⟩ := mem_nonempties inside
  exact (paths.encode_segment plain nonempty whole).2

/-- Keys with one path have the same parts. -/
theorem path_eq_iff {key other : Str} (present : nonempties key ≠ []) (others : nonempties other ≠ []) :
    paths.path key = paths.path other ↔ nonempties key = nonempties other := by
  constructor
  · intro same
    have parts := congrArg (List.splitOn '/') same
    rw [splitOn_path paths present, splitOn_path paths others] at parts
    exact List.map_injective_iff.mpr paths.encode_injective parts
  · intro same
    rw [StorePaths.path, StorePaths.path, same]

/-- The parts that `sanitize_key` keeps. -/
theorem sanitizeKey_parts (key : Str) :
    (key.splitOn '/').filter (fun part => part ≠ [] && part ≠ ['.']) =
      (nonempties key).filter (· ≠ ['.']) := by
  rw [nonempties, List.filter_filter]
  refine List.filter_congr (fun part _ => ?_)
  rw [Bool.and_comm]

/-- Parts put together are found again. -/
theorem nonempties_join {parts : List Str} (nonempty : parts ≠ [])
    (whole : ∀ part ∈ parts, part ≠ [] ∧ '/' ∉ part) :
    nonempties (Text.join ['/'] parts) = parts := by
  rw [nonempties, Text.join,
    List.splitOn_intercalate '/' (fun part member => (whole part member).2) nonempty]
  refine List.filter_eq_self.mpr (fun part member => ?_)
  simpa using (whole part member).1

/-- A sanitized key is its parts, which are those of the key without the dots. -/
theorem sanitizeKey_some {key clean : Str} (sanitized : sanitizeKey key = some clean) :
    key.head? ≠ some '/' ∧ nonempties clean = (nonempties key).filter (· ≠ ['.']) ∧
      ['.', '.'] ∉ nonempties clean ∧ nonempties clean ≠ [] ∧
        clean = Text.join ['/'] (nonempties clean) := by
  rw [sanitizeKey] at sanitized
  rw [sanitizeKey_parts] at sanitized
  split_ifs at sanitized with climbs empty
  obtain rfl := Option.some.inj sanitized
  rw [Bool.or_eq_true, not_or] at climbs
  have nonempty : (nonempties key).filter (· ≠ ['.']) ≠ [] := by simpa using empty
  rw [nonempties_join nonempty (fun part member => mem_nonempties (List.mem_filter.mp member).1)]
  refine ⟨by simpa using climbs.1, rfl, fun member => climbs.2 ?_, nonempty, rfl⟩
  exact List.any_eq_true.mpr ⟨['.', '.'], member, by simp⟩

/-- A relative key without dots keeps its parts. -/
theorem sanitizeKey_plain {key : Str} (relative : key.head? ≠ some '/')
    (plain : ∀ part ∈ nonempties key, part ≠ ['.'] ∧ part ≠ ['.', '.'])
    (present : nonempties key ≠ []) :
    ∃ clean, sanitizeKey key = some clean ∧ nonempties clean = nonempties key := by
  have kept : (nonempties key).filter (· ≠ ['.']) = nonempties key :=
    List.filter_eq_self.mpr (fun part member => by simpa using (plain part member).1)
  cases sanitized : sanitizeKey key with
  | some clean => exact ⟨clean, rfl, (sanitizeKey_some sanitized).2.1.trans kept⟩
  | none =>
    rw [sanitizeKey] at sanitized
    rw [sanitizeKey_parts, kept] at sanitized
    split_ifs at sanitized with climbs empty
    · rw [Bool.or_eq_true] at climbs
      rcases climbs with absolute | up
      · exact absurd (by simpa using absolute) relative
      · obtain ⟨part, member, same⟩ := List.any_eq_true.mp up
        exact absurd (by simpa using same) (plain part member).2
    · exact absurd (by simpa using empty) present

/-- An object store that keeps its objects under these paths. -/
def StorePaths.store : ObjectStore :=
  { ObjectStore.plain with
    path := paths.path
    path_injective := by
      intro raw raw' key key' sanitized sanitized' same
      obtain ⟨-, -, -, present, whole⟩ := sanitizeKey_some sanitized
      obtain ⟨-, -, -, others, otherWhole⟩ := sanitizeKey_some sanitized'
      have parts := (path_eq_iff paths present others).mp same
      rw [whole, otherWhole, parts] }

/-! ## Hiding the outputs -/

/-- The parts of a key under a prefix. -/
theorem nonempties_under {front : Str} {file : Str} :
    nonempties (front ++ '/' :: file) = nonempties front ++ nonempties file := by
  rw [nonempties, List.splitOn_append_cons_self, List.filter_append]
  rfl

/-- What is stored under a prefix is hidden exactly if the store keeps the prefix as it is. -/
theorem isHiddenKey_path {front file : Str} (nonempty : front ≠ [])
    (others : nonempties file ≠ []) :
    isHiddenKey (paths.path (front ++ '/' :: file)) front = true ↔
      ∀ part ∈ front.splitOn '/', part ≠ [] ∧ isPlain part = true := by
  have split : (paths.path (front ++ '/' :: file)).splitOn '/' =
      (nonempties front).map paths.encode ++ (nonempties file).map paths.encode := by
    rw [splitOn_path paths (by rw [nonempties_under]; simp [others]), nonempties_under,
      List.map_append]
  rw [isHiddenKey_iff nonempty, split]
  constructor
  · intro hidden
    have filled : ∀ part ∈ front.splitOn '/', part ≠ [] := by
      rintro part member rfl
      have encoded := hidden.subset member
      rw [← List.map_append, List.mem_map] at encoded
      obtain ⟨part, inside, same⟩ := encoded
      have known : part ≠ [] ∧ '/' ∉ part := by
        rcases List.mem_append.mp inside with inFront | inFile
        · exact mem_nonempties inFront
        · exact mem_nonempties inFile
      exact (paths.encode_segment part known.1 known.2).1 same
    have all : nonempties front = front.splitOn '/' :=
      List.filter_eq_self.mpr (fun part member => by simpa using filled part member)
    rw [all] at hidden
    have kept : front.splitOn '/' = (front.splitOn '/').map paths.encode :=
      List.IsPrefix.eq_of_length
        (List.prefix_of_prefix_length_le hidden (List.prefix_append _ _) (by simp)) (by simp)
    intro part member
    refine ⟨filled part member, ?_⟩
    rw [← paths.encode_eq_self part (Paths.separator_not_mem member)]
    obtain ⟨position, bound, rfl⟩ := List.mem_iff_getElem.mp member
    have same := List.getElem_of_eq kept bound
    rw [List.getElem_map] at same
    exact same.symm
  · intro plain
    have all : nonempties front = front.splitOn '/' :=
      List.filter_eq_self.mpr (fun part member => by simpa using (plain part member).1)
    have kept : (front.splitOn '/').map paths.encode = front.splitOn '/' := by
      refine (List.map_congr_left (fun part member => ?_)).trans (List.map_id _)
      exact (paths.encode_eq_self part (Paths.separator_not_mem member)).mpr (plain part member).2
    rw [all, kept]
    exact List.prefix_append _ _

/-- What is stored is hidden as a tenant's exactly if the first part of its key says so. -/
theorem isHiddenKey_tenants {key : Str} (present : nonempties key ≠ []) :
    isHiddenKey (paths.path key) tenantPrefix = true ↔
      (nonempties key).head? = some tenantPrefix := by
  have whole : tenantPrefix.splitOn '/' = [tenantPrefix] := List.splitOn_eq_singleton (by decide)
  have kept : paths.encode tenantPrefix = tenantPrefix :=
    (paths.encode_eq_self tenantPrefix (by decide)).mpr (by decide)
  rw [isHiddenKey_iff (by decide), whole, splitOn_path paths present]
  obtain ⟨first, rest, parts⟩ := List.exists_cons_of_ne_nil present
  rw [parts, List.map_cons, List.cons_prefix_cons, List.head?_cons, Option.some.injEq]
  constructor
  · rintro ⟨same, -⟩
    exact paths.encode_injective (same.symm.trans kept.symm)
  · rintro rfl
    exact ⟨kept.symm, List.nil_prefix⟩

/-- A path ends in a part. -/
theorem path_bare {key : Str} (present : nonempties key ≠ []) :
    Text.trimEndMatches '/' (paths.path key) = paths.path key := by
  have split := splitOn_path paths present
  rw [Text.trimEndMatches]
  cases reversed : (paths.path key).reverse with
  | nil => rw [List.reverse_eq_nil_iff.mp reversed]; rfl
  | cons c rest =>
    have ends : paths.path key = rest.reverse ++ c :: [] := by
      rw [← List.reverse_reverse (paths.path key), reversed, List.reverse_cons]
    by_cases slash : c = '/'
    · -- then the last part would be empty
      rw [ends, slash, List.splitOn_append_cons_self] at split
      have member : ([] : Str) ∈ (nonempties key).map paths.encode := by
        rw [← split]
        simp
      obtain ⟨part, inside, same⟩ := List.mem_map.mp member
      obtain ⟨nonempty, whole⟩ := mem_nonempties inside
      exact absurd same (paths.encode_segment part nonempty whole).1
    · rw [List.dropWhile_cons, if_neg (by simpa using slash), ← reversed, List.reverse_reverse]

/-! ## Reading an output back -/

/-- The characters that a client leaves as they are in a path. -/
def sentAsIs (c : Char) : Bool :=
  Text.isAsciiAlphanumeric c || "-._~!$&'()*+,;=:@/%".str.contains c

def hexUpper (n : Nat) : Char := Char.ofNat (if n < 10 then 48 + n else 55 + n)

/-- A character as it is sent in a path. -/
def sent (c : Char) : Str :=
  if sentAsIs c then [c]
  else (Text.utf8 [c]).flatMap
    (fun b => ['%', hexUpper (b.toNat / 16), hexUpper (b.toNat % 16)])

/-- The path of the request that a client makes for a URI of this instance: the URI up to a query
or a fragment, with what may not stand in a path percent-encoded. -/
def requestPath (uri : Str) : Str := (uri.takeWhile (fun c => c ≠ '?' && c ≠ '#')).flatMap sent

/-- Everything in the path of a request may stand there. -/
theorem sentAsIs_of_mem {uri : Str} {c : Char} (member : c ∈ requestPath uri) :
    sentAsIs c = true := by
  obtain ⟨original, -, inside⟩ := List.mem_flatMap.mp member
  rw [sent] at inside
  split_ifs at inside with plain
  · rw [List.mem_singleton.mp inside]
    exact plain
  · obtain ⟨b, -, digit⟩ := List.mem_flatMap.mp inside
    have digits : ∀ n, n < 16 → sentAsIs (hexUpper n) = true := by decide
    have high : b.toNat / 16 < 16 := by
      have := b.toNat_lt
      omega
    simp only [List.mem_cons, List.not_mem_nil, or_false] at digit
    rcases digit with rfl | rfl | rfl
    · decide
    · exact digits _ high
    · exact digits _ (Nat.mod_lt _ (by omega))

/-- What may stand in a path is sent as it is. -/
theorem requestPath_eq {uri : Str} (plain : ∀ c ∈ uri, sentAsIs c = true) :
    requestPath uri = uri := by
  have whole : uri.takeWhile (fun c => c ≠ '?' && c ≠ '#') = uri := by
    refine List.takeWhile_eq_self_iff.mpr (fun c member => ?_)
    have allowed := plain c member
    by_contra cut
    have reserved : c = '?' ∨ c = '#' := by
      by_contra neither
      rw [not_or] at neither
      exact cut (by simp [neither])
    rcases reserved with rfl | rfl
    · exact absurd allowed (by decide)
    · exact absurd allowed (by decide)
  rw [requestPath, whole]
  clear whole
  induction uri with
  | nil => rfl
  | cons c rest inductionHypothesis =>
    rw [List.flatMap_cons, sent, if_pos (plain c List.mem_cons_self),
      inductionHypothesis (fun d member => plain d (List.mem_cons_of_mem c member))]
    rfl

/-- A byte that begins no escape is kept. -/
theorem percentDecodeBytes_cons {b : UInt8} {rest : Bytes}
    (literal : b = 37 → ∀ high low more, rest = high :: low :: more → hexPair high low = none) :
    percentDecodeBytes (b :: rest) = b :: percentDecodeBytes rest := by
  match rest with
  | [] => rfl
  | [_] => rfl
  | high :: low :: more =>
    rw [percentDecodeBytes]
    by_cases percent : b = 37
    · rw [if_pos percent, literal percent high low more rfl]
    · rw [if_neg percent]

/-- Nothing is decoded where there is no percent sign. -/
theorem percentDecodeBytes_plain {bytes : Bytes} (plain : 37 ∉ bytes) :
    percentDecodeBytes bytes = bytes := by
  induction bytes with
  | nil => rfl
  | cons b rest inductionHypothesis =>
    rw [percentDecodeBytes_cons,
      inductionHypothesis (fun member => plain (List.mem_cons_of_mem b member))]
    rintro rfl
    exact absurd List.mem_cons_self plain

theorem hexPair_slash {high low : UInt8} (slash : high = 47 ∨ low = 47) :
    hexPair high low = none := by
  rcases slash with rfl | rfl
  · rfl
  · rw [hexPair]
    cases hexDigit high <;> rfl

/-- No escape reaches over a slash. -/
theorem percentDecodeBytes_slash (front rest : Bytes) :
    percentDecodeBytes (front ++ 47 :: rest) =
      percentDecodeBytes front ++ 47 :: percentDecodeBytes rest := by
  fun_induction percentDecodeBytes front with
  | case1 high low more byte pair inductionHypothesis =>
    rw [List.cons_append, List.cons_append, List.cons_append, percentDecodeBytes, if_pos rfl, pair]
    exact congrArg (byte :: ·) inductionHypothesis
  | case2 high low more pair inductionHypothesis =>
    rw [List.cons_append, percentDecodeBytes_cons, inductionHypothesis, List.cons_append]
    rintro - first second others same
    rw [List.cons_append, List.cons_append, List.cons.injEq, List.cons.injEq] at same
    rw [← same.1, ← same.2.1, pair]
  | case3 b high low more other inductionHypothesis =>
    rw [List.cons_append, percentDecodeBytes_cons (fun percent => absurd percent other),
      inductionHypothesis, List.cons_append]
  | case4 b more short inductionHypothesis =>
    rw [List.cons_append, percentDecodeBytes_cons, inductionHypothesis, List.cons_append]
    -- an escape would take the slash as one of its digits
    rintro - first second others same
    match more with
    | [] => exact hexPair_slash (Or.inl (List.cons.inj same).1.symm)
    | [_] => exact hexPair_slash (Or.inr (List.cons.inj (List.cons.inj same).2).1.symm)
    | high :: low :: rest => exact absurd rfl (short high low rest)
  | case5 =>
    refine percentDecodeBytes_cons (fun percent => ?_)
    exact absurd percent (by decide)

/-- What is decoded is the same, or has fewer bytes that are no slashes. -/
theorem percentDecodeBytes_shrinks (bytes : Bytes) : percentDecodeBytes bytes = bytes ∨
    (percentDecodeBytes bytes).countP (· ≠ 47) < bytes.countP (· ≠ 47) := by
  have onward (b : UInt8) (rest : Bytes) (holds : percentDecodeBytes rest = rest ∨
      (percentDecodeBytes rest).countP (· ≠ 47) < rest.countP (· ≠ 47)) :
      b :: percentDecodeBytes rest = b :: rest ∨
        (b :: percentDecodeBytes rest).countP (· ≠ 47) < (b :: rest).countP (· ≠ 47) := by
    rcases holds with same | smaller
    · exact Or.inl (by rw [same])
    · exact Or.inr (by rw [List.countP_cons, List.countP_cons]; omega)
  fun_induction percentDecodeBytes bytes with
  | case1 high low rest byte pair inductionHypothesis =>
    right
    have first : high ≠ 47 := fun slash =>
      absurd (hexPair_slash (Or.inl slash)) (by rw [pair]; exact Option.some_ne_none byte)
    have second : low ≠ 47 := fun slash =>
      absurd (hexPair_slash (Or.inr slash)) (by rw [pair]; exact Option.some_ne_none byte)
    have fewer : (percentDecodeBytes rest).countP (· ≠ 47) ≤ rest.countP (· ≠ 47) := by
      rcases inductionHypothesis with same | smaller
      · rw [same]
      · exact smaller.le
    rw [List.countP_cons, List.countP_cons_of_pos (by decide),
      List.countP_cons_of_pos (by simpa using first),
      List.countP_cons_of_pos (by simpa using second)]
    split_ifs <;> omega
  | case2 high low rest pair inductionHypothesis => exact onward 37 _ inductionHypothesis
  | case3 b high low rest other inductionHypothesis => exact onward b _ inductionHypothesis
  | case4 b rest short inductionHypothesis => exact onward b _ inductionHypothesis
  | case5 => exact Or.inl rfl

theorem slash_byte {c : Char} (ascii : c.toNat < 128) : UInt8.ofNat c.toNat = 47 ↔ c = '/' := by
  constructor
  · intro same
    have value := congrArg UInt8.toNat same
    rw [UInt8.toNat_ofNat', Nat.mod_eq_of_lt (by omega)] at value
    rw [← Char.ofNat_toNat c, value]
    rfl
  · rintro rfl
    rfl

/-- A character that is no slash has a byte that is none. -/
theorem countP_utf8 (s : Str) : s.countP (· ≠ '/') ≤ (Text.utf8 s).countP (· ≠ 47) := by
  induction s with
  | nil => exact le_refl 0
  | cons c rest inductionHypothesis =>
    rw [Text.utf8_cons, List.countP_append, List.countP_cons]
    by_cases slash : c = '/'
    · rw [if_neg (by simpa using slash)]
      omega
    · rw [if_pos (by simpa using slash)]
      have first : ∃ b ∈ String.utf8EncodeChar c, b ≠ 47 := by
        by_cases ascii : c.toNat < 128
        · rw [Text.utf8EncodeChar_ascii ascii]
          exact ⟨_, List.mem_singleton_self _, fun same => slash ((slash_byte ascii).mp same)⟩
        · have code : ¬c.val.toNat ≤ 127 := fun small => ascii (Nat.lt_succ_of_le small)
          have high (n : Nat) (above : 128 ≤ n) (below : n < 256) : UInt8.ofNat n ≠ 47 := by
            intro same
            have value := congrArg UInt8.toNat same
            rw [UInt8.toNat_ofNat', Nat.mod_eq_of_lt (by omega)] at value
            rw [value] at above
            exact absurd above (by decide)
          rw [String.utf8EncodeChar, if_neg code]
          split_ifs
          all_goals exact ⟨_, List.mem_cons_self, high _ (by omega) (by omega)⟩
      obtain ⟨b, member, other⟩ := first
      have one : 0 < (String.utf8EncodeChar c).countP (· ≠ 47) :=
        List.countP_pos_iff.mpr ⟨b, member, by simpa using other⟩
      omega

/-- An ASCII text has a byte that is no slash for each character that is none. -/
theorem countP_ascii {s : Str} (ascii : ∀ c ∈ s, c.toNat < 128) :
    (Text.utf8 s).countP (· ≠ 47) = s.countP (· ≠ '/') := by
  induction s with
  | nil => rfl
  | cons c rest inductionHypothesis =>
    have code := ascii c List.mem_cons_self
    rw [Text.utf8_cons, Text.utf8EncodeChar_ascii code, List.singleton_append, List.countP_cons,
      List.countP_cons,
      inductionHypothesis (fun d member => ascii d (List.mem_cons_of_mem c member))]
    congr 1
    simp only [ne_eq, slash_byte code]

/-- The key that a request for a blob names. -/
theorem blobKey_eq {key : Str} (nonempty : key ≠ []) :
    blobKey ("/blobs/".str ++ key) = (percentDecode key).bind sanitizeKey := by
  have pattern : Route.serveBlob.pattern.splitOn '/' = [[], "blobs".str, "*key".str] := by decide
  have split : ("/blobs/".str ++ key).splitOn '/' = [] :: "blobs".str :: key.splitOn '/' := by
    have spelled : "/blobs/".str ++ key = [] ++ '/' :: ("blobs".str ++ '/' :: key) := by
      have slashes : "/blobs/".str = '/' :: ("blobs".str ++ ['/']) := by decide
      simp [slashes]
    rw [spelled, List.splitOn_append_cons_self_of_not_mem (by simp),
      List.splitOn_append_cons_self_of_not_mem (by decide)]
  obtain ⟨segment, segments, cut⟩ := List.exists_cons_of_ne_nil (List.splitOn_ne_nil '/' key)
  have rest : Text.join ['/'] (segment :: segments) = key := by
    rw [← cut, Text.join]
    exact List.intercalate_splitOn '/'
  have matched : matchPath Route.serveBlob.pattern ("/blobs/".str ++ key) =
      some [("key".str, key)] := by
    rw [matchPath, pattern, split, cut]
    have star : "*key".str = '*' :: "key".str := by decide
    have named : "blobs".str = 'b' :: "lobs".str := by decide
    simp [star, named, matchSegments, rest, nonempty]
  rw [blobKey, matched]
  simp

/-- Characters that are sent as they are are ASCII. -/
theorem sentAsIs_ascii {c : Char} (plain : sentAsIs c = true) : c.toNat < 128 := by
  rw [sentAsIs, Bool.or_eq_true] at plain
  rcases plain with letter | mark
  · simp only [Text.isAsciiAlphanumeric, Text.isAsciiAlphabetic, Text.isAsciiUpper,
      Text.isAsciiLower, Text.isAsciiDigit, Bool.or_eq_true, Bool.and_eq_true,
      decide_eq_true_eq] at letter
    omega
  · have all : ("-._~!$&'()*+,;=:@/%".str.all (fun c => decide (c.toNat < 128))) = true := by
      decide
    exact of_decide_eq_true (List.all_eq_true.mp all c (List.contains_iff_mem.mp mark))

theorem flatten_nonempties (key : Str) : (nonempties key).flatten = key.filter (· ≠ '/') := by
  rw [← Paths.flatten_splitOn, nonempties]
  induction key.splitOn '/' with
  | nil => rfl
  | cons part parts inductionHypothesis =>
    by_cases empty : part = []
    · rw [List.filter_cons_of_neg (by simpa using empty), inductionHypothesis, empty]
      rfl
    · rw [List.filter_cons_of_pos (by simpa using empty), List.flatten_cons, List.flatten_cons,
        inductionHypothesis]

/-- The key that is read is the one that was written exactly if it is relative and without dots,
and nothing in it is decoded. -/
theorem readBack_iff {key : Str} (present : nonempties key ≠ [])
    (plain : ∀ c ∈ key, sentAsIs c = true) :
    (∃ k, blobKey ("/blobs/".str ++ key) = some k ∧ paths.path k = paths.path key) ↔
      key.head? ≠ some '/' ∧ (∀ part ∈ nonempties key, part ≠ ['.'] ∧ part ≠ ['.', '.']) ∧
        percentDecode key = some key := by
  have nonempty : key ≠ [] := by
    rintro rfl
    exact present rfl
  have ascii : ∀ c ∈ key, c.toNat < 128 := fun c member => sentAsIs_ascii (plain c member)
  rw [blobKey_eq nonempty]
  constructor
  · rintro ⟨k, read, same⟩
    obtain ⟨decoded, decodes, sanitized⟩ := Option.bind_eq_some_iff.mp read
    obtain ⟨relative, parts, climbs, others, -⟩ := sanitizeKey_some sanitized
    rw [path_eq_iff paths others present] at same
    rw [percentDecode, Text.fromUtf8] at decodes
    split_ifs at decodes with wellFormed
    rw [Option.some.inj decodes] at wellFormed
    -- a decoded escape would leave less than the parts that were written
    have enough : key.countP (· ≠ '/') ≤ decoded.countP (· ≠ '/') := by
      have less : ((nonempties key).flatten).length ≤ ((nonempties decoded).flatten).length := by
        rw [← same, parts]
        exact (List.filter_sublist.flatten).length_le
      rwa [flatten_nonempties, flatten_nonempties, ← List.countP_eq_length_filter,
        ← List.countP_eq_length_filter] at less
    have bytes : percentDecodeBytes (Text.utf8 key) = Text.utf8 key := by
      rcases percentDecodeBytes_shrinks (Text.utf8 key) with kept | fewer
      · exact kept
      · rw [← wellFormed, countP_ascii ascii] at fewer
        have held := countP_utf8 decoded
        omega
    have whole : percentDecode key = some key := by
      rw [percentDecode, bytes, Text.fromUtf8, Text.fromUtf8Lossy_utf8 ascii, if_pos rfl]
    obtain rfl : key = decoded := by
      rw [← Option.some.inj decodes, bytes, Text.fromUtf8Lossy_utf8 ascii]
    refine ⟨relative, fun part member => ⟨?_, ?_⟩, whole⟩
    · rintro rfl
      rw [← same, parts] at member
      simpa using (List.mem_filter.mp member).2
    · rintro rfl
      exact climbs (same ▸ member)
  · rintro ⟨relative, dots, whole⟩
    obtain ⟨clean, sanitized, parts⟩ := sanitizeKey_plain relative dots present
    refine ⟨clean, by rw [whole]; exact sanitized, ?_⟩
    rw [path_eq_iff paths (by rw [parts]; exact present) present, parts]

/-- Nothing is decoded in a key exactly if nothing is in what it begins with. -/
theorem percentDecode_under {front file : Str} (ascii : ∀ c ∈ front, c.toNat < 128)
    (fileAscii : ∀ c ∈ file, c.toNat < 128) (literal : '%' ∉ file) :
    percentDecode (front ++ '/' :: file) = some (front ++ '/' :: file) ↔
      percentDecode front = some front := by
  have kept : percentDecodeBytes (Text.utf8 file) = Text.utf8 file := by
    refine percentDecodeBytes_plain (fun member => ?_)
    obtain ⟨c, inside, code⟩ := Text.mem_utf8_ascii fileAscii member
    have value := congrArg UInt8.toNat code
    have small := fileAscii c inside
    rw [UInt8.toNat_ofNat', Nat.mod_eq_of_lt (by omega)] at value
    have percent : c = '%' := by
      rw [← Char.ofNat_toNat c, ← value]
      rfl
    exact literal (percent ▸ inside)
  have bytes : Text.utf8 (front ++ '/' :: file) = Text.utf8 front ++ 47 :: Text.utf8 file := by
    rw [Text.utf8_append, Text.utf8_cons]
    rfl
  have same (s : Str) (codes : ∀ c ∈ s, c.toNat < 128) :
      percentDecode s = some s ↔ percentDecodeBytes (Text.utf8 s) = Text.utf8 s := by
    rw [percentDecode, Text.fromUtf8]
    constructor
    · intro decoded
      split_ifs at decoded with wellFormed
      rw [← wellFormed, Option.some.inj decoded]
    · intro whole
      rw [whole, Text.fromUtf8Lossy_utf8 codes, if_pos rfl]
  have all : ∀ c ∈ front ++ '/' :: file, c.toNat < 128 := by
    intro c member
    rcases List.mem_append.mp member with inFront | behind
    · exact ascii c inFront
    · rcases List.mem_cons.mp behind with rfl | inFile
      · decide
      · exact fileAscii c inFile
  rw [same _ all, same _ ascii, bytes, percentDecodeBytes_slash, kept]
  exact List.append_left_inj _

/-- A text is what is left of it without the slashes it ends in, and those. -/
theorem trimEndMatches_split (s : Str) :
    ∃ slashes, s = Text.trimEndMatches '/' s ++ slashes ∧ ∀ c ∈ slashes, c = '/' := by
  refine ⟨(s.reverse.takeWhile (· == '/')).reverse, ?_, fun c member => ?_⟩
  · rw [Text.trimEndMatches, ← List.reverse_append, List.takeWhile_append_dropWhile,
      List.reverse_reverse]
  · simpa using List.mem_takeWhile_imp (List.mem_reverse.mp member)

/-- The prefix of what is recognised as the instance's own is sent as it is. -/
theorem sentAsIs_of_local {uri front : Str}
    (own : isLocalRetrievalBlob (requestPath uri) front = true) :
    ∀ c ∈ front, sentAsIs c = true := by
  rw [isLocalRetrievalBlob] at own
  split_ifs at own
  rw [Text.startsWith, List.isPrefixOf_iff_prefix] at own
  obtain ⟨slashes, split, all⟩ := trimEndMatches_split (front.dropWhile (· == '/'))
  intro c member
  rw [← List.takeWhile_append_dropWhile (p := (· == '/')) (l := front), split] at member
  rcases List.mem_append.mp member with leading | inside
  · have slash : c = '/' := by simpa using List.mem_takeWhile_imp leading
    rw [slash]
    decide
  · rcases List.mem_append.mp inside with trimmed | trailing
    · refine sentAsIs_of_mem (own.subset ?_)
      exact List.mem_append_left _ (List.mem_append_right _ trimmed)
    · rw [all c trailing]
      decide

/-- Under a relative prefix that is sent as it is, outputs are recognised as the instance's own. -/
theorem isLocalRetrievalBlob_of_sent {front file : Str} (relative : front.head? ≠ some '/')
    (nonempty : front ≠ []) (sentAll : requestPath ("/blobs/".str ++ (front ++ '/' :: file)) =
      "/blobs/".str ++ (front ++ '/' :: file)) :
    isLocalRetrievalBlob (requestPath ("/blobs/".str ++ (front ++ '/' :: file))) front = true := by
  have leading : front.dropWhile (· == '/') = front := by
    cases front with
    | nil => rfl
    | cons c rest => rw [List.dropWhile_cons, if_neg (by simpa using relative)]
  obtain ⟨slashes, split, all⟩ := trimEndMatches_split front
  have trimmed : Text.trimEndMatches '/' front ≠ [] := by
    intro empty
    rw [empty, List.nil_append] at split
    obtain ⟨c, rest, shape⟩ := List.exists_cons_of_ne_nil nonempty
    rw [shape] at split relative
    exact relative (congrArg some (all c (split ▸ List.mem_cons_self)))
  rw [sentAll, isLocalRetrievalBlob, leading, if_neg (by simpa using trimmed), Text.startsWith,
    List.isPrefixOf_iff_prefix, List.append_assoc, List.prefix_append_right_inj]
  cases slashes with
  | nil =>
    rw [List.append_nil] at split
    rw [← split]
    exact ⟨file, by simp⟩
  | cons c rest =>
    have slash := all c List.mem_cons_self
    refine ⟨rest ++ '/' :: file, ?_⟩
    conv_rhs => rw [split, slash]
    simp

/-! ## Outputs on all paths -/

/-- An output is unlisted, its URI names it, and its path is the instance's own. -/
def TreatedAlike (retrievalPrefix runId : Str) (path : Str → Str) (uri : Str)
    (written : Replayer.Written) : Prop :=
  Unlisted retrievalPrefix written.path (path (retrievalPrefix ++ '/' :: runId)) ∧
    (∃ key, blobKey (requestPath uri) = some key ∧ path key = written.path) ∧
    isLocalRetrievalBlob (requestPath uri) retrievalPrefix = true

/-- A prefix that is relative, without dots and escapes, and in characters that are sent as they
are; its parts are stored as they are, or its first one is that of the tenants. -/
def SpelledOut (retrievalPrefix : Str) : Prop :=
  (∀ c ∈ retrievalPrefix, sentAsIs c = true) ∧ retrievalPrefix.head? ≠ some '/' ∧
    (∀ part ∈ nonempties retrievalPrefix, part ≠ ['.'] ∧ part ≠ ['.', '.']) ∧
    percentDecode retrievalPrefix = some retrievalPrefix ∧
    ((∀ part ∈ retrievalPrefix.splitOn '/', part ≠ [] ∧ isPlain part = true) ∨
      (nonempties retrievalPrefix).head? = some tenantPrefix)

/-- A run is named by letters, digits and dashes. -/
def isRunId (runId : Str) : Bool :=
  runId ≠ [] && runId.all (fun c => Text.isAsciiAlphanumeric c || c == '-')

/-- What follows the prefix in the key of an output. -/
def outputFile (runId extension : Str) : Str := runId ++ "/result.".str ++ extension

theorem isRunId_sent {runId : Str} (named : isRunId runId = true) :
    runId ≠ [] ∧ ∀ c ∈ runId, sentAsIs c = true ∧ c ≠ '/' ∧ c ≠ '.' ∧ c ≠ '%' := by
  rw [isRunId, Bool.and_eq_true, decide_eq_true_eq, List.all_eq_true] at named
  refine ⟨named.1, fun c member => ?_⟩
  have allowed := named.2 c member
  refine ⟨?_, ?_, ?_, ?_⟩
  · rw [sentAsIs, Bool.or_eq_true]
    rcases Bool.or_eq_true_iff.mp allowed with letter | dash
    · exact Or.inl letter
    · rw [beq_iff_eq.mp dash]
      exact Or.inr (by decide)
  all_goals
    rintro rfl
    exact absurd allowed (by decide)

/-- The parts of the file of a run. -/
theorem nonempties_outputFile {runId : Str} (named : isRunId runId = true)
    (format : OutputFormat) :
    nonempties (outputFile runId format.extension) =
      [runId, "result.".str ++ format.extension] := by
  obtain ⟨nonempty, plain⟩ := isRunId_sent named
  have shape : outputFile runId format.extension =
      runId ++ '/' :: ("result.".str ++ format.extension) := by
    have slash : "/result.".str = '/' :: "result.".str := by decide
    rw [outputFile, slash]
    simp
  have file : '/' ∉ "result.".str ++ format.extension := by cases format <;> decide
  rw [shape, nonempties,
    List.splitOn_append_cons_self_of_not_mem (fun member => (plain '/' member).2.1 rfl),
    List.splitOn_eq_singleton file]
  refine List.filter_eq_self.mpr (fun part member => ?_)
  rcases List.mem_cons.mp member with rfl | last
  · simpa using nonempty
  · rw [List.mem_singleton.mp last]
    cases format <;> decide

/-- A relative text has a part. -/
theorem nonempties_ne_nil {key : Str} (relative : key.head? ≠ some '/') (nonempty : key ≠ []) :
    nonempties key ≠ [] := by
  intro none
  have gone := flatten_nonempties key
  obtain ⟨c, rest, rfl⟩ := List.exists_cons_of_ne_nil nonempty
  have other : c ≠ '/' := by simpa using relative
  rw [none, List.filter_cons_of_pos (by simpa using other)] at gone
  cases gone

/-- What is stored under a relative prefix is hidden exactly if the store keeps the prefix as it
is, or its first part is that of the tenants. -/
theorem hidden_iff {front file : Str} (present : nonempties front ≠ []) (nonempty : front ≠ [])
    (others : nonempties file ≠ []) :
    (isHiddenKey (paths.path (front ++ '/' :: file)) front ||
        isHiddenKey (paths.path (front ++ '/' :: file)) tenantPrefix) = true ↔
      (∀ part ∈ front.splitOn '/', part ≠ [] ∧ isPlain part = true) ∨
        (nonempties front).head? = some tenantPrefix := by
  have parts : nonempties (front ++ '/' :: file) = nonempties front ++ nonempties file :=
    nonempties_under
  rw [Bool.or_eq_true, isHiddenKey_path paths nonempty others,
    isHiddenKey_tenants paths (by rw [parts]; simp [others]), parts,
    List.head?_append_of_ne_nil _ present]

/-- The file of a run is sent as it is. -/
theorem outputFile_sent {runId : Str} (named : isRunId runId = true) (format : OutputFormat) :
    ∀ c ∈ outputFile runId format.extension, sentAsIs c = true ∧ c ≠ '%' := by
  intro c member
  rcases List.mem_append.mp member with inName | inExtension
  · rcases List.mem_append.mp inName with inRun | between
    · obtain ⟨sentAs, -, -, literal⟩ := (isRunId_sent named).2 c inRun
      exact ⟨sentAs, literal⟩
    · have all : "/result.".str.all (fun c => sentAsIs c && c != '%') = true := by decide
      simpa using List.all_eq_true.mp all c between
  · have all : format.extension.all (fun c => sentAsIs c && c != '%') = true := by
      cases format <;> decide
    simpa using List.all_eq_true.mp all c inExtension

/-- Where an output is stored, and how it is named. -/
theorem finish_ok {state : Replayer.RetrievalState} {format : OutputFormat}
    {moment : Replayer.Moment} {progress : Replayer.Progress}
    {result : Replayer.RetrievalResult} {written : Replayer.Written}
    (finished : Replayer.finish state format moment progress = .ok (result, written)) :
    result.materializedUri = "/blobs/".str ++ (state.settings.retrievalPrefix ++
        '/' :: outputFile moment.runId format.extension) ∧
      written.path = state.blobs.store.path (state.settings.retrievalPrefix ++
        '/' :: outputFile moment.runId format.extension) := by
  have key : state.settings.retrievalPrefix ++ '/' :: moment.runId ++ "/result.".str ++
      format.extension = state.settings.retrievalPrefix ++
        '/' :: outputFile moment.runId format.extension := by
    simp [outputFile]
  rw [Replayer.finish] at finished
  dsimp only at finished
  rw [key, writeToStore] at finished
  cases put : state.blobs.store.putWithOptionalAttrs (state.blobs.store.path
      (state.settings.retrievalPrefix ++ '/' :: outputFile moment.runId format.extension))
      progress.materializer.buf format.contentType with
  | error error =>
    rw [put] at finished
    cases finished
  | ok object =>
    rw [put] at finished
    obtain ⟨rfl, rfl⟩ := Prod.mk.inj (Except.ok.inj finished)
    exact ⟨rfl, rfl⟩

/-- An output is treated alike on all paths exactly if the prefix is spelled out. -/
theorem outputs_alike {state : Replayer.RetrievalState} {format : OutputFormat}
    {moment : Replayer.Moment} {progress : Replayer.Progress}
    {result : Replayer.RetrievalResult} {written : Replayer.Written}
    (stored : state.blobs.store.path = paths.path)
    (configured : state.settings.retrievalPrefix ≠ [])
    (named : isRunId moment.runId = true)
    (finished : Replayer.finish state format moment progress = .ok (result, written)) :
    TreatedAlike state.settings.retrievalPrefix moment.runId state.blobs.store.path
        result.materializedUri written ↔
      SpelledOut state.settings.retrievalPrefix := by
  obtain ⟨uri, path⟩ := finish_ok finished
  have fileSent := outputFile_sent named format
  have fileParts := nonempties_outputFile named format
  obtain ⟨nonempty, plain⟩ := isRunId_sent named
  have runParts : nonempties moment.runId = [moment.runId] := by
    rw [nonempties, List.splitOn_eq_singleton (fun member => (plain '/' member).2.1 rfl)]
    simpa using nonempty
  rw [uri, TreatedAlike, SpelledOut, path, stored]
  generalize state.settings.retrievalPrefix = front at configured
  generalize outputFile moment.runId format.extension = file at fileSent fileParts
  have parts : nonempties (front ++ '/' :: file) = nonempties front ++ nonempties file :=
    nonempties_under
  have present : nonempties (front ++ '/' :: file) ≠ [] := by
    rw [parts, fileParts]
    simp
  have fileDots : ∀ part ∈ nonempties file, part ≠ ['.'] ∧ part ≠ ['.', '.'] := by
    rw [fileParts, List.forall_mem_cons, List.forall_mem_singleton]
    refine ⟨⟨?_, ?_⟩, ?_⟩
    · intro dot
      exact (plain '.' (by rw [dot]; decide)).2.2.1 rfl
    · intro dots
      exact (plain '.' (by rw [dots]; decide)).2.2.1 rfl
    · cases format <;> decide
  have fileAscii : ∀ c ∈ file, c.toNat < 128 := fun c member => sentAsIs_ascii (fileSent c member).1
  have fileLiteral : '%' ∉ file := fun member => (fileSent '%' member).2 rfl
  -- what the three paths say of a prefix that is sent as it is
  have sentAll (frontSent : ∀ c ∈ front, sentAsIs c = true) :
      ∀ c ∈ front ++ '/' :: file, sentAsIs c = true := by
    intro c member
    rcases List.mem_append.mp member with inFront | behind
    · exact frontSent c inFront
    · rcases List.mem_cons.mp behind with rfl | inFile
      · decide
      · exact (fileSent c inFile).1
  have sentUri (frontSent : ∀ c ∈ front, sentAsIs c = true) :
      requestPath ("/blobs/".str ++ (front ++ '/' :: file)) =
        "/blobs/".str ++ (front ++ '/' :: file) := by
    refine requestPath_eq (fun c member => ?_)
    rcases List.mem_append.mp member with inRoute | inKey
    · exact List.all_eq_true.mp (by decide : "/blobs/".str.all sentAsIs = true) c inRoute
    · exact sentAll frontSent c inKey
  have hidden (present : nonempties front ≠ []) :
      Unlisted front (paths.path (front ++ '/' :: file))
          (paths.path (front ++ '/' :: moment.runId)) ↔
        (∀ part ∈ front.splitOn '/', part ≠ [] ∧ isPlain part = true) ∨
          (nonempties front).head? = some tenantPrefix := by
    rw [unlisted_iff (path_bare paths (by rw [nonempties_under, runParts]; simp)),
      hidden_iff paths present configured (by rw [fileParts]; simp),
      hidden_iff paths present configured (by rw [runParts]; simp), and_self]
  have read (frontSent : ∀ c ∈ front, sentAsIs c = true) :
      (∃ key, blobKey (requestPath ("/blobs/".str ++ (front ++ '/' :: file))) = some key ∧
          paths.path key = paths.path (front ++ '/' :: file)) ↔
        front.head? ≠ some '/' ∧
          (∀ part ∈ nonempties front, part ≠ ['.'] ∧ part ≠ ['.', '.']) ∧
            percentDecode front = some front := by
    rw [sentUri frontSent, readBack_iff paths present (sentAll frontSent),
      percentDecode_under (fun c member => sentAsIs_ascii (frontSent c member)) fileAscii
        fileLiteral, List.head?_append_of_ne_nil _ configured, parts]
    refine and_congr_right (fun _ => and_congr_left (fun _ => ?_))
    rw [List.forall_mem_append]
    exact and_iff_left fileDots
  constructor
  · rintro ⟨unlisted, readBack, own⟩
    have frontSent := sentAsIs_of_local own
    obtain ⟨relative, dots, whole⟩ := (read frontSent).mp readBack
    exact ⟨frontSent, relative, dots, whole,
      (hidden (nonempties_ne_nil relative configured)).mp unlisted⟩
  · rintro ⟨frontSent, relative, dots, whole, kept⟩
    refine ⟨(hidden (nonempties_ne_nil relative configured)).mpr kept,
      (read frontSent).mpr ⟨relative, dots, whole⟩, ?_⟩
    exact isLocalRetrievalBlob_of_sent relative configured (sentUri frontSent)

/-! ## Two prefixes -/

/-- Paths that keep a plain part and mark every other. -/
def markedPaths : StorePaths where
  encode part := if isPlain part then part else '%' :: part
  encode_injective := by
    have marked (part : Str) : isPlain ('%' :: part) = false := by
      have percent : reserved '%' = true := by decide
      simp [isPlain, percent]
    intro part other same
    dsimp only at same
    split_ifs at same with first second second
    · exact same
    · rw [same, marked] at first
      cases first
    · rw [← same, marked] at second
      cases second
    · exact (List.cons.inj same).2
  encode_segment part nonempty whole := by
    split_ifs
    · exact ⟨nonempty, whole⟩
    · exact ⟨List.cons_ne_nil _ _, by simpa using whole⟩
  encode_eq_self part _ := by
    split_ifs with first
    · simp [first]
    · simp [first]

/-- An instance with a prefix for its outputs. -/
def stateWith (retrievalPrefix : Str) : Replayer.RetrievalState where
  blobs :=
    { crates := Crates.plain
      blobRoot := "/app/blobs".str
      blobMaxBytes := 104857600
      store := markedPaths.store
      tables :=
        { contentTypeOf := fun _ => .ok none
          tenantRows := []
          tenantFails := none } }
  settings :=
    { retrievalStmtTimeoutMs := 30000
      retrievalRowCap := 1000000
      retrievalPrefix := retrievalPrefix
      retrievalDbRole := [] }
  query := fun _ _ => .ok []
  planFromValue := fun _ => .error "invalid plan".str

/-- The end of a run that has written nothing. -/
def emptyRun (retrievalPrefix : Str) : ApiResult (Replayer.RetrievalResult × Replayer.Written) :=
  Replayer.finish (stateWith retrievalPrefix) .jsonl ⟨"4f2a".str, fun _ => 0, 0⟩
    ⟨[], Materializer.new .jsonl, 0⟩

theorem retrievals_alike : ∃ result written, emptyRun "retrievals".str = .ok (result, written) ∧
    TreatedAlike "retrievals".str "4f2a".str markedPaths.path result.materializedUri written := by
  have spelled : SpelledOut (stateWith "retrievals".str).settings.retrievalPrefix := by
    refine ⟨List.all_eq_true.mp (by decide), by decide, by decide, by decide +kernel, Or.inl ?_⟩
    decide
  have ran : emptyRun "retrievals".str = .ok (_, _) := rfl
  exact ⟨_, _, ran, (outputs_alike markedPaths rfl (by decide) (by decide) ran).mpr spelled⟩

/-- Under a prefix with a slash at its end, an output is read back and kept from the peer, and
listed to everybody. -/
theorem trailingSlash_listed : ∃ result written,
    emptyRun "retrievals/".str = .ok (result, written) ∧
      written.path = "retrievals/4f2a/result.jsonl".str ∧
      ¬TreatedAlike "retrievals/".str "4f2a".str markedPaths.path result.materializedUri
        written := by
  refine ⟨_, _, rfl, by decide +kernel, fun alike => ?_⟩
  have object := ((unlisted_iff (by decide +kernel)).mp alike.1).1
  exact absurd object (by decide +kernel)

end LumidPlatform.Retrieve.Outputs
