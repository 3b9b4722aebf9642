import LumidPlatform.Blobs.Serve
import LumidPlatform.Lib.Mime

/-!
# What is served inline

`serve_blob` reads the type of an object up to its first semicolon and compares it with a
list; a browser splits the header at its commas and takes the last type that is valid. An
active type is sent as an attachment exactly where the two readings do not come apart on a
type outside the list, or on several types in one header.
-/

namespace LumidPlatform.Blobs.Inline

open Mime (Essence)

/-! ## How a browser reads the header -/

/-- The bytes of a header value, a character for each. -/
def sent (ct : Str) : Str := ct.flatMap Text.pushBytes

/-- The list of `is_active_content_type`. -/
def listed (essence : Essence) : Bool :=
  ["text/html".str, "application/xhtml+xml".str, "image/svg+xml".str, "text/javascript".str,
    "application/javascript".str].contains essence.text

/-- HTML, XHTML, SVG, an XML type or a JavaScript type. -/
def active (essence : Essence) : Bool :=
  ["text/html".str, "application/xhtml+xml".str, "image/svg+xml".str].contains essence.text ||
    essence.isXml || essence.isJavaScript

/-- An XML or JavaScript type that is not on the list. -/
def unlisted (essence : Essence) : Bool :=
  (essence.isXml || essence.isJavaScript) && !listed essence

/-- The active types are those on the list, and those off it. -/
theorem active_iff (essence : Essence) :
    active essence = true ↔ listed essence = true ∨ unlisted essence = true := by
  constructor
  · intro runs
    by_cases known : listed essence = true
    · exact .inl known
    · right
      rw [active, Bool.or_eq_true, Bool.or_eq_true, or_assoc] at runs
      rcases runs with markup | other
      · apply absurd _ known
        simp only [listed, List.contains_iff_mem, List.mem_cons, List.not_mem_nil,
          or_false] at markup ⊢
        rcases markup with same | same | same
        · exact .inl same
        · exact .inr (.inl same)
        · exact .inr (.inr (.inl same))
      · rw [unlisted, Bool.and_eq_true, Bool.or_eq_true]
        exact ⟨other, by simp [known]⟩
  · have markup (known : ["text/html".str, "application/xhtml+xml".str,
        "image/svg+xml".str].contains essence.text = true) : active essence = true := by
      rw [active, known, Bool.true_or, Bool.true_or]
    have script (known : essence.isJavaScript = true) : active essence = true := by
      rw [active, known, Bool.or_true]
    rintro (known | other)
    · simp only [listed, List.contains_iff_mem, List.mem_cons, List.not_mem_nil,
        or_false] at known
      rcases known with same | same | same | same | same
      · exact markup (by rw [same]; decide)
      · exact markup (by rw [same]; decide)
      · exact markup (by rw [same]; decide)
      · exact script (by rw [Essence.isJavaScript, same]; decide)
      · exact script (by rw [Essence.isJavaScript, same]; decide)
    · rw [unlisted, Bool.and_eq_true, Bool.or_eq_true] at other
      rw [active, Bool.or_eq_true, Bool.or_eq_true, or_assoc]
      exact .inr other.1

/-- A browser runs the body of the response if it shows it. -/
def Runs (response : Response) : Prop :=
  ∃ ct essence, response.header "content-type".str = some ct ∧
    Mime.extract (sent ct) = some essence ∧ active essence = true

def Attached (response : Response) : Prop :=
  response.header "content-disposition".str = some "attachment".str

/-! ## The condition -/

/-- The condition on a type: up to its first semicolon it is on the list; or what a browser
makes of it is not off the list, nor on it where the header has several parts. -/
def covered (ct : Str) : Bool :=
  isActiveContentType ct || (Mime.extract (sent ct)).all (fun essence => !unlisted essence &&
    (decide ((Mime.split (sent ct)).length ≤ 1) || !listed essence))

/-- The condition on an object: on its own type if that is valid, else on that of `raw.blobs`,
else its key does not end in `.xml`. -/
def coveredObject (stored db : Option Str) (key : Str) : Bool :=
  match stored.bind validContentType, db.bind validContentType with
  | some ct, _ => covered ct
  | none, some ct => covered ct
  | none, none =>
    Text.afterLast '.' key == key || Text.toAsciiLowercase (Text.afterLast '.' key) != "xml".str

/-! ## The two readings -/

/-- ASCII at the front of the bytes is at the front of the text. -/
theorem sent_prefix {front rest ct : Str} (ascii : ∀ c ∈ front, Text.isAscii c = true)
    (bytes : sent ct = front ++ rest) : ∃ left, ct = front ++ left ∧ sent left = rest := by
  induction front generalizing ct with
  | nil => exact ⟨ct, rfl, bytes⟩
  | cons c front inductionHypothesis =>
    cases ct with
    | nil => cases bytes
    | cons d ct =>
      have first := ascii c List.mem_cons_self
      rw [sent, List.flatMap_cons] at bytes
      have member : c ∈ Text.pushBytes d := by
        cases written : Text.pushBytes d with
        | nil => exact absurd written (Text.pushBytes_ne_nil d)
        | cons e more =>
          rw [written, List.cons_append, List.cons_append] at bytes
          obtain rfl := (List.cons.inj bytes).1
          exact List.mem_cons_self
      obtain rfl := (Text.mem_pushBytes first).mp member
      rw [Text.pushBytes_ascii first, List.cons_append, List.nil_append] at bytes
      obtain ⟨left, rfl, onward⟩ := inductionHypothesis
        (fun e inside => ascii e (List.mem_cons_of_mem _ inside)) (List.cons.inj bytes).2
      exact ⟨left, rfl, onward⟩

/-- The characters below 128. -/
theorem ascii_forall {p : Char → Bool}
    (below : (List.range 128).all (fun n => p (Char.ofNat n)) = true)
    {c : Char} (ascii : Text.isAscii c = true) : p c = true := by
  have code : c.toNat < 128 := by simpa [Text.isAscii] using ascii
  have here := List.all_eq_true.mp below c.toNat (List.mem_range.mpr code)
  rwa [Char.ofNat_toNat] at here

theorem token_ascii {c : Char} (token : Mime.isToken c = true) : Text.isAscii c = true := by
  simp only [Mime.isToken, Mime.isUpper, Bool.or_eq_true, Bool.and_eq_true, decide_eq_true_eq,
    List.contains_iff_mem] at token
  rcases token with ((upper | lower) | digit) | other
  · exact decide_eq_true (by omega)
  · exact decide_eq_true (by omega)
  · exact decide_eq_true (by omega)
  · exact List.all_eq_true.mp (by decide) c other

theorem blank_ascii {c : Char} (blank : Mime.isWhitespace c = true) : Text.isAscii c = true := by
  simp only [Mime.isWhitespace, Bool.or_eq_true, beq_iff_eq] at blank
  rcases blank with ((rfl | rfl) | rfl) | rfl <;> decide

/-- A character of a token is visible and no semicolon. -/
theorem token_visible {c : Char} (token : Mime.isToken c = true) :
    Text.isWhitespace c = false ∧ c ≠ ';' := by
  have here := ascii_forall (p := fun c => !Mime.isToken c || (!Text.isWhitespace c && c != ';'))
    (by decide) (token_ascii token)
  simpa [token] using here

theorem blank_space {c : Char} (blank : Mime.isWhitespace c = true) :
    Text.isWhitespace c = true ∧ c ≠ ';' := by
  simp only [Mime.isWhitespace, Bool.or_eq_true, beq_iff_eq] at blank
  rcases blank with ((rfl | rfl) | rfl) | rfl <;> decide

/-- What the list is compared with is the type a browser reads, where the header has one part. -/
theorem base_of_spells {ct : Str} {essence : Essence} (spells : Mime.Spells (sent ct) essence) :
    Text.toAsciiLowercase (Text.trim (ct.takeWhile (· ≠ ';'))) = essence.text := by
  obtain ⟨before, type, subtype, blank, parameters, bytes, lead, gap, inType, inSubtype, ends,
    rfl⟩ :=
    spells
  have inPart : ∀ c ∈ type ++ '/' :: subtype, Text.isAscii c = true ∧
      Text.isWhitespace c = false ∧ c ≠ ';' := by
    intro c member
    rcases List.mem_append.mp member with here | here
    · exact ⟨token_ascii (inType c here), token_visible (inType c here)⟩
    · rcases List.mem_cons.mp here with rfl | here
      · decide
      · exact ⟨token_ascii (inSubtype c here), token_visible (inSubtype c here)⟩
  have inFront : ∀ c ∈ before ++ (type ++ '/' :: subtype) ++ blank,
      Text.isAscii c = true ∧ c ≠ ';' := by
    intro c member
    rcases List.mem_append.mp member with here | here
    · rcases List.mem_append.mp here with here | here
      · exact ⟨blank_ascii (lead c here), (blank_space (lead c here)).2⟩
      · exact ⟨(inPart c here).1, (inPart c here).2.2⟩
    · exact ⟨blank_ascii (gap c here), (blank_space (gap c here)).2⟩
  obtain ⟨left, rfl, after⟩ := sent_prefix (fun c member => (inFront c member).1) bytes
  have stops : left.takeWhile (· ≠ ';') = [] := by
    rcases ends with rfl | ⟨rest, rfl⟩
    · cases left with
      | nil => rfl
      | cons c left =>
        rw [sent, List.flatMap_cons, List.append_eq_nil_iff] at after
        exact absurd after.1 (Text.pushBytes_ne_nil c)
    · obtain ⟨left, rfl, -⟩ : ∃ more, left = [';'] ++ more ∧ sent more = rest :=
        sent_prefix (List.forall_mem_singleton.mpr (by decide)) after
      simp
  have cut : (before ++ (type ++ '/' :: subtype) ++ blank ++ left).takeWhile (· ≠ ';') =
      before ++ (type ++ '/' :: subtype) ++ blank := by
    rw [List.takeWhile_append_of_pos (fun c member => by simpa using (inFront c member).2), stops,
      List.append_nil]
  have trimmed : Text.trim (before ++ (type ++ '/' :: subtype) ++ blank) = type ++ '/' :: subtype :=
    Mime.strip_around (fun c member => (blank_space (lead c member)).1)
      (fun c member => (inPart c member).2.1) (by simp)
        (fun c member => (blank_space (gap c member)).1)
  rw [cut, trimmed, Text.toAsciiLowercase, List.map_append, List.map_cons]
  rfl

/-- A browser makes nothing active of a type exactly if the type is covered, or the list has it. -/
theorem covered_iff (ct : Str) :
    covered ct = true ↔
      ((∃ essence, Mime.extract (sent ct) = some essence ∧ active essence = true) →
      isActiveContentType ct = true) := by
  rw [covered, Bool.or_eq_true]
  constructor
  · rintro (known | all) ⟨essence, extracted, runs⟩
    · exact known
    · simp only [extracted, Option.all_some, Bool.and_eq_true, Bool.or_eq_true, Bool.not_eq_true',
        decide_eq_true_eq] at all
      rcases (active_iff essence).mp runs with onList | offList
      · have single := all.2.resolve_right (by simp [onList])
        rw [isActiveContentType, base_of_spells (Mime.spells_of_extract single extracted)]
        exact onList
      · rw [all.1] at offList
        cases offList
  · intro attached
    by_cases known : isActiveContentType ct = true
    · exact .inl known
    · right
      rw [Option.all_eq_true]
      intro essence extracted
      have quiet : ¬ active essence = true :=
        fun runs => known (attached ⟨essence, extracted, runs⟩)
      rw [active_iff, not_or, Bool.not_eq_true, Bool.not_eq_true] at quiet
      simp [quiet.1, quiet.2]

/-! ## The type that is sent -/

/-- Of the guessed types, that of `.xml` alone is not covered. -/
theorem covered_guess (key : Str) :
    covered ((guessFromExtension key).getD "application/octet-stream".str) =
      (Text.afterLast '.' key == key ||
        Text.toAsciiLowercase (Text.afterLast '.' key) != "xml".str) := by
  have fallback : covered "application/octet-stream".str = true := by decide
  have entries : extensionTypes.all (fun entry =>
      covered entry.2 == !entry.1.contains "xml".str &&
        (!entry.1.contains "xml".str || entry.1 == ["xml".str])) = true := by
    unfold extensionTypes
    repeat rw [String.str_ofList]
    decide
  rw [guessFromExtension]
  by_cases bare : Text.afterLast '.' key = key
  · rw [if_pos bare, Option.getD_none, fallback, beq_iff_eq.mpr bare, Bool.true_or]
  · rw [if_neg bare, beq_eq_false_iff_ne.mpr bare, Bool.false_or]
    cases search : extensionTypes.find? (fun entry =>
        entry.1.contains (Text.toAsciiLowercase (Text.afterLast '.' key))) with
    | none =>
      rw [Option.map_none, Option.getD_none, fallback]
      symm
      rw [bne_iff_ne]
      intro same
      have missed := List.find?_eq_none.mp search (["xml".str], "application/xml".str)
        (by decide)
      rw [same] at missed
      exact missed (by decide)
    | some entry =>
      have holds := List.all_eq_true.mp entries entry (List.mem_of_find?_eq_some search)
      have found := List.find?_some search
      rw [Bool.and_eq_true, beq_iff_eq, Bool.or_eq_true, Bool.not_eq_true', beq_iff_eq] at holds
      rw [Option.map_some, Option.getD_some, holds.1]
      by_cases same : Text.toAsciiLowercase (Text.afterLast '.' key) = "xml".str
      · rw [same] at found ⊢
        rw [found]
        decide
      · have other : entry.1.contains "xml".str = false := by
          rcases holds.2 with absent | only
          · exact absent
          · rw [only] at found
            exact absurd (by simpa using found) same
        rw [other, bne_iff_ne.mpr same]
        rfl

/-- A type that passed the check is a header value as it is. -/
theorem headerValue_of_valid {raw ct : Str} (valid : validContentType raw = some ct) :
    headerValue ct = some ct := by
  rw [validContentType] at valid
  split_ifs at valid
  have same := valid
  rw [headerValue] at same
  split_ifs at same with plain
  obtain rfl := Option.some.inj same
  exact valid

theorem headerValue_guess (key : Str) :
    headerValue ((guessFromExtension key).getD "application/octet-stream".str) =
      some ((guessFromExtension key).getD "application/octet-stream".str) := by
  have entries : extensionTypes.all (fun entry => headerValue entry.2 == some entry.2) = true := by
    decide
  cases guessed : guessFromExtension key with
  | none => decide
  | some ct =>
    rw [guessFromExtension] at guessed
    split_ifs at guessed
    obtain ⟨entry, search, rfl⟩ := Option.map_eq_some_iff.mp guessed
    exact beq_iff_eq.mp (List.all_eq_true.mp entries entry (List.mem_of_find?_eq_some search))

/-- What the fallback chain ends with is a header value, and covered exactly if the object is. -/
theorem resolved_covered (stored db : Option Str) (key : Str) :
    headerValue (resolveContentType stored db key) = some (resolveContentType stored db key) ∧
      covered (resolveContentType stored db key) = coveredObject stored db key := by
  rw [resolveContentType, coveredObject]
  cases own : stored.bind validContentType with
  | some ct =>
    obtain ⟨raw, -, valid⟩ := Option.bind_eq_some_iff.mp own
    exact ⟨headerValue_of_valid valid, rfl⟩
  | none =>
    cases recorded : db.bind validContentType with
    | some ct =>
      obtain ⟨raw, -, valid⟩ := Option.bind_eq_some_iff.mp recorded
      exact ⟨headerValue_of_valid valid, rfl⟩
    | none => exact ⟨headerValue_guess key, covered_guess key⟩

/-- The type that is sent is the end of the fallback chain. -/
theorem serveObject_resolved {state : BlobState} {content : Content} {key : Str} {object : Object}
    {response : Response} (there : content (state.store.path key) = some object)
    (served : serveObject state content key = .ok response) :
    response = blobResponse (resolveContentType object.contentType
      (contentTypeForKey state.tables key).toOption.join key) object.bytes := by
  have got : state.store.get content (state.store.path key) = .ok object := by
    cases got : state.store.get content (state.store.path key) with
    | ok found =>
      have same := (ObjectStore.get_eq_ok.mp got).2
      rw [there] at same
      rw [Option.some.inj same]
    | error error =>
      rw [serveObject, got] at served
      cases error with
      | notFound text => cases served
      | notImplemented text => cases served
      | other text => cases served
  rw [serveObject, got] at served
  dsimp only at served
  cases own : object.contentType.bind validContentType with
  | some ct =>
    rw [own] at served
    rw [resolveContentType, own]
    exact (Except.ok.inj served).symm
  | none =>
    rw [own] at served
    obtain ⟨db, asked, rfl⟩ := ApiResult.map_eq_ok.mp served
    rw [asked, resolveContentType, resolveContentType, own]
    rfl

/-- A response that a browser would run is an attachment exactly if its type is covered. -/
theorem blobResponse_iff {ct : Str} (plain : headerValue ct = some ct) (bytes : Bytes) :
    (Runs (blobResponse ct bytes) → Attached (blobResponse ct bytes)) ↔ covered ct = true := by
  have type : (blobResponse ct bytes).header "content-type".str = some ct := by
    rw [blobResponse, plain]
    rfl
  have disposition : Attached (blobResponse ct bytes) ↔ isActiveContentType ct = true := by
    have header : (blobResponse ct bytes).header "content-disposition".str =
        if isActiveContentType ct then some "attachment".str else none := by
      rw [blobResponse]
      cases isActiveContentType ct with
      | true => rfl
      | false => rfl
    rw [Attached, header]
    simp
  have runs : Runs (blobResponse ct bytes) ↔
      ∃ essence, Mime.extract (sent ct) = some essence ∧ active essence = true := by
    rw [Runs, type]
    constructor
    · rintro ⟨found, essence, ⟨⟩, extracted, activates⟩
      exact ⟨essence, extracted, activates⟩
    · rintro ⟨essence, extracted, activates⟩
      exact ⟨ct, essence, rfl, extracted, activates⟩
  rw [covered_iff, runs, disposition]

/-- What a browser would run is sent as an attachment exactly if the type of the object, its row's
type, or the extension of its key is covered. -/
theorem active_attached {state : BlobState} {content : Content} {identity : Identity}
    {raw key : Str} {object : Object} {response : Response}
    (sanitized : sanitizeKey raw = some key)
    (there : content (state.store.path key) = some object)
    (served : serveBlob state content identity raw = .ok response) :
    (Runs response → Attached response) ↔
      coveredObject object.contentType (contentTypeForKey state.tables key).toOption.join key =
        true := by
  have answered : serveObject state content key = .ok response := by
    rw [serveBlob, sanitized] at served
    split_ifs at served
    dsimp only at served
    split_ifs at served
    exact served
  obtain rfl := serveObject_resolved there answered
  obtain ⟨plain, same⟩ := resolved_covered object.contentType
    (contentTypeForKey state.tables key).toOption.join key
  rw [blobResponse_iff plain, same]

def hall : BlobState :=
  ⟨Crates.plain, "blobs".str, 100, ObjectStore.plain, ⟨fun _ => .ok none, [], none⟩⟩

/-- One object of a type. -/
def shelf (type : Str) : Content := fun path =>
  if path = "page".str then some ⟨[60], some type⟩ else none

def visitor : Identity := ⟨"ana".str, "user".str, []⟩

/-- HTML goes out as an attachment. -/
theorem html_attached : ∃ response,
    serveBlob hall (shelf "text/html".str) visitor "page".str = .ok response ∧
      (Runs response → Attached response) := by
  have sanitized : sanitizeKey "page".str = some "page".str := by decide
  have there : shelf "text/html".str (hall.store.path "page".str) =
      some ⟨[60], some "text/html".str⟩ := rfl
  have served : serveBlob hall (shelf "text/html".str) visitor "page".str =
      .ok (blobResponse "text/html".str [60]) := rfl
  exact ⟨_, served, (active_attached sanitized there served).mpr (by decide)⟩

/-- Two types in one header: the first is compared with the list, the second is run. -/
theorem twoTypes_inline : ∃ response,
    serveBlob hall (shelf "text/plain, text/html".str) visitor "page".str = .ok response ∧
      Runs response ∧ ¬ Attached response :=
  ⟨blobResponse "text/plain, text/html".str [60], rfl,
    ⟨"text/plain, text/html".str, ⟨"text".str, "html".str⟩, by decide, by decide,
      by decide⟩, by rw [Attached]; decide⟩

end LumidPlatform.Blobs.Inline
