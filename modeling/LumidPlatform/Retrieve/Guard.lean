import LumidPlatform.Lib.SqlLexer
import LumidPlatform.Retrieve.Plan

/-!
# The SQL guard against PostgreSQL's own reading

The query that was checked is sent as it is, so PostgreSQL cuts it into tokens by its own
rules. The guard rejects a forbidden name, or a second statement, wherever it meets one.
What it does not meet is what its scanners take for a comment or a string, or glue to a
neighbour: these places are named here, and are the only ones an accepted query may hide
something in.
-/

namespace LumidPlatform.Retrieve.Guard

open Plan

variable {unicode : Unicode}

def forbiddenWords : List Str := forbiddenKeywords ++ forbiddenReadTokens

/-- A name that is one of the words, in any case. -/
def Forbidden (name : Str) : Prop := Text.toAsciiLowercase name ∈ forbiddenWords

instance (name : Str) : Decidable (Forbidden name) :=
  inferInstanceAs (Decidable (Text.toAsciiLowercase name ∈ forbiddenWords))

/-- As PostgreSQL reads it, the query has no forbidden name outside literals and comments,
and no token after a semicolon. -/
structure Clean (query : Str) : Prop where
  names : ∀ token ∈ SqlLexer.tokens query, ∀ before name after,
    token.asName = some (before, name, after) → ¬ Forbidden name
  single : (SqlLexer.tokens query).Pairwise (fun token _ => token.text ≠ [';'])

/-- The guard meets the name: the comment stripper copies it, an even number of quotes
is in the copy before it, and in lower case no word goes on at its two ends. -/
def NameSeen (unicode : Unicode) (query before name after : Str) : Prop :=
  ∃ kept, stripTo .text before.length query = some kept ∧ kept.count '\'' % 2 = 0 ∧
    boundary (unicode.lowerIn [] kept (name ++ stripFrom .text after)).getLast? = true ∧
    boundary (unicode.toLowercaseFrom (kept ++ name).reverse (stripFrom .text after)).head? = true

/-- A character that makes a statement more than an empty one. -/
def solid (c : Char) : Bool := !Text.isWhitespace c && c != ';'

/-- The guard meets the semicolon between two statements: the comment stripper copies it,
and something solid before and after it. -/
def SemicolonSeen (query before after : Str) : Prop :=
  ∃ kept, stripTo .text before.length query = some kept ∧ (∃ c ∈ kept, solid c = true) ∧
    ∃ c ∈ stripFrom .text after, solid c = true

/-- The guard meets every forbidden name, and every semicolon that another token follows. -/
structure Visible (unicode : Unicode) (query : Str) : Prop where
  names : ∀ token ∈ SqlLexer.tokens query, ∀ before name after,
    token.asName = some (before, name, after) → Forbidden name →
      NameSeen unicode query before name after
  semicolons : (SqlLexer.tokens query).Pairwise
    (fun token _ => token.text = [';'] → SemicolonSeen query token.before token.after)

/-! ## Forbidden words -/

/-- A forbidden name is ASCII, and begins no comment. -/
theorem Forbidden.plain {name : Str} (forbidden : Forbidden name) :
    ∀ c ∈ name, Text.isAscii c = true ∧ c ≠ '-' ∧ c ≠ '/' := by
  intro c member
  have inWord : Text.asciiLower c ∈ Text.toAsciiLowercase name := List.mem_map_of_mem member
  obtain ⟨ascii, -, others⟩ := (listed_plain forbidden).2 _ inWord
  refine ⟨Text.isAscii_of_asciiLower ascii, ?_, ?_⟩
  · rintro rfl
    exact others (by decide)
  · rintro rfl
    exact others (by decide)

/-! ## Statements -/

theorem boundary_of_suffix {s t : Str} (suffix : s <:+ t) (ends : boundary t.getLast? = true) :
    boundary s.getLast? = true := by
  obtain ⟨before, rfl⟩ := suffix
  cases last : s.getLast? with
  | none => rfl
  | some c => simpa [last] using ends

theorem boundary_of_start {s t : Str} (start : s <+: t) (ends : boundary t.head? = true) :
    boundary s.head? = true := by
  obtain ⟨after, rfl⟩ := start
  cases s with
  | nil => rfl
  | cons c rest => simpa using ends

/-- The one statement of a query holds what is visible in its text, between what stands
around it there. The statements that were dropped are blank, so no quote is missing. -/
theorem statement_around {query before word after single : Str}
    (lowered : unicode.toLowercase (stripSqlComments query) = before ++ word ++ after)
    (nonempty : word ≠ [])
    (plain : ∀ c ∈ word, Text.isWhitespace c = false ∧ c ≠ ';')
    (only : statements unicode query = [single]) :
    ∃ left right, Text.trim single = left ++ word ++ right ∧ left <:+ before ∧ right <+: after ∧
      left.count '\'' = before.count '\'' := by
  have visible : ∀ c ∈ word, Text.isWhitespace c = false := fun c member => (plain c member).1
  obtain ⟨earlier, left, right, later, split, inBefore, inAfter, counts⟩ :=
    @Text.splitOn_around before word after ';' (fun member => (plain _ member).2 rfl)
  obtain ⟨left1, right1, trimmed, inLeft, inRight, kept⟩ :=
    Text.trim_around left word right visible nonempty
  obtain ⟨left2, right2, trimmed2, inLeft2, inRight2, kept2⟩ :=
    Text.trim_around left1 word right1 visible nonempty
  rw [statements, lowered, split] at only
  have shown : Text.trim (left ++ word ++ right) ≠ [] := by
    rw [trimmed]
    simp [nonempty]
  simp only [List.map_append, List.map_cons, List.filter_append] at only
  rw [List.filter_cons_of_pos (by simpa using shown)] at only
  obtain ⟨none1, rest⟩ : (earlier.map Text.trim).filter (fun s => !s.isEmpty) = [] ∧
      Text.trim (left ++ word ++ right) = single := by
    cases first : (earlier.map Text.trim).filter (fun s => !s.isEmpty) with
    | nil =>
      rw [first, List.nil_append] at only
      exact ⟨rfl, (List.cons.inj only).1⟩
    | cons s more =>
      rw [first] at only
      have none2 := (List.cons.inj only).2
      simp at none2
  refine ⟨left2, right2, ?_, inLeft2.trans (inLeft.trans inBefore),
    inRight2.trans (inRight.trans inAfter), ?_⟩
  · rw [← rest, trimmed, trimmed2]
  · have blank : ∀ piece ∈ earlier, '\'' ∉ piece := by
      intro piece member quote
      have empty : Text.trim piece = [] := by
        have dropped := List.filter_eq_nil_iff.mp none1 _ (List.mem_map_of_mem member)
        simpa using dropped
      have white := Text.blank_of_trim empty _ quote
      exact absurd white (by decide)
    rw [kept2 '\'' (by decide), kept '\'' (by decide), counts '\'' (by decide) blank]

/-- A forbidden name the guard meets is rejected. -/
theorem nameSeen_rejected {query before name after : Str} (text : before ++ name ++ after = query)
    (forbidden : Forbidden name) (seen : NameSeen unicode query before name after) :
    isSafeSelect unicode query ≠ some true := by
  intro accepted
  obtain ⟨kept, stands, even, left, right⟩ := seen
  obtain ⟨single, only, absent⟩ := isSafeSelect_true accepted
  obtain ⟨nonempty, plain⟩ := listed_plain forbidden
  have here : query.drop before.length = name ++ after := by
    rw [← text, List.append_assoc, List.drop_left]
  have stripped : stripSqlComments query = kept ++ (name ++ stripFrom .text after) := by
    rw [stripSqlComments, stripFrom_eq stands, here,
      stripFrom_plain (fun c member => (forbidden.plain c member).2)]
  have lowered : unicode.toLowercase (stripSqlComments query) =
      unicode.lowerIn [] kept (name ++ stripFrom .text after) ++ Text.toAsciiLowercase name ++
        unicode.toLowercaseFrom (kept ++ name).reverse (stripFrom .text after) := by
    rw [stripped, Unicode.toLowercase, Unicode.toLowercaseFrom_append,
      Unicode.toLowercaseFrom_ascii_append _ _ _ _ (fun c member => (forbidden.plain c member).1)]
    simp
  obtain ⟨before', after', found, inBefore, inAfter, quotes⟩ := statement_around lowered nonempty
    (fun c member => ⟨(plain c member).2.1, fun same => (plain c member).2.2 (by simp [same])⟩) only
  have outside : before'.count '\'' % 2 = 0 := by
    rw [quotes, Unicode.count_lowerIn _ _ _ _ (by decide) (by decide)]
    exact even
  apply @wordPresentFrom_found _ false none _ _ _ found
    (fun quote => (plain _ quote).2.2 (by simp)) nonempty (by simpa using outside)
    (by simpa using boundary_of_suffix inBefore left) (boundary_of_start inAfter right)
  exact absent _ forbidden

/-- Something solid stays solid in lower case, and makes a statement. -/
theorem solid_lowered (unicode : Unicode) (before : Str) {s : Str} (after : Str) {c : Char}
    (member : c ∈ s)
    (visible : solid c = true) :
    ∃ piece ∈ (unicode.lowerIn before s after).splitOn ';', Text.trim piece ≠ [] := by
  obtain ⟨notBlank, notSemicolon⟩ : Text.isWhitespace c = false ∧ c ≠ ';' := by
    simpa [solid] using visible
  obtain ⟨near, far, all⟩ := unicode.lowerIn_mem before after member
  obtain ⟨d, inImage, shown⟩ := unicode.lowerAt_visible near far notBlank
  have other : d ≠ ';' := by
    rintro rfl
    have count := unicode.count_lowerAt near c far (d := ';') (by decide) (by decide)
    have positive := List.count_pos_iff.mpr inImage
    simp [notSemicolon, count] at positive
  obtain ⟨piece, inPieces, inPiece⟩ := Text.mem_splitOn (all d inImage) other
  refine ⟨piece, inPieces, fun empty => ?_⟩
  simp [Text.blank_of_trim empty d inPiece] at shown

/-- A semicolon the guard meets between two statements is rejected. -/
theorem semicolonSeen_rejected {query before after : Str} (text : before ++ [';'] ++ after = query)
    (seen : SemicolonSeen query before after) : isSafeSelect unicode query ≠ some true := by
  intro accepted
  obtain ⟨kept, stands, ⟨first, inKept, solidFirst⟩, second, inRest, solidSecond⟩ := seen
  obtain ⟨single, only, -⟩ := isSafeSelect_true accepted
  have here : query.drop before.length = [';'] ++ after := by
    rw [← text, List.append_assoc, List.drop_left]
  have stripped : stripSqlComments query = kept ++ ([';'] ++ stripFrom .text after) := by
    rw [stripSqlComments, stripFrom_eq stands, here, stripFrom_plain (by simp)]
  have lowered : unicode.toLowercase (stripSqlComments query) =
      unicode.lowerIn [] kept ([';'] ++ stripFrom .text after) ++ ';' ::
        unicode.lowerIn (';' :: kept.reverse) (stripFrom .text after) [] := by
    rw [stripped, Unicode.toLowercase, Unicode.toLowercaseFrom_append,
      Unicode.toLowercaseFrom_ascii_append _ _ _ _ (by simp; decide), Unicode.lowerIn_nil_after]
    simp [show Text.toAsciiLowercase [';'] = [';'] by decide]
  obtain ⟨piece, inPieces, shown⟩ := solid_lowered unicode []
    ([';'] ++ stripFrom .text after) inKept solidFirst
  obtain ⟨piece', inPieces', shown'⟩ := solid_lowered unicode (';' :: kept.reverse) []
    inRest solidSecond
  rw [statements, lowered, List.splitOn_append_cons_self, List.map_append,
    List.filter_append] at only
  have statement : ∀ {pieces : List Str} {piece : Str}, piece ∈ pieces → Text.trim piece ≠ [] →
      0 < ((pieces.map Text.trim).filter (fun s => !s.isEmpty)).length := by
    intro pieces piece member visible
    have kept := List.mem_filter (p := fun s : Str => !s.isEmpty).mpr
      ⟨List.mem_map_of_mem member, by simpa using visible⟩
    exact List.length_pos_of_mem kept
  have before1 := statement inPieces shown
  have after1 := statement inPieces' shown'
  have length := congrArg List.length only
  rw [List.length_append, List.length_singleton] at length
  omega

/-! ## Accepted queries -/

/-- An accepted query is clean in PostgreSQL's reading exactly when the guard meets all
that would make it unclean. -/
theorem accepted_clean_iff {query : Str} (accepted : isSafeSelect unicode query = some true) :
    Clean query ↔ Visible unicode query := by
  constructor
  · intro clean
    constructor
    · intro token member before name after named forbidden
      exact absurd forbidden (clean.names token member before name after named)
    · apply clean.single.imp
      intro token _ other semicolon
      exact absurd semicolon other
  · intro visible
    constructor
    · intro token member before name after named forbidden
      have seen := visible.names token member before name after named forbidden
      exact nameSeen_rejected (SqlLexer.asName_text member named) forbidden seen accepted
    · apply visible.semicolons.imp_of_mem
      intro token _ member _ seen semicolon
      have text := SqlLexer.mem_tokens member
      rw [semicolon] at text
      exact semicolonSeen_rejected text (seen semicolon) accepted

/-- A plain query is accepted, and nothing in it is hidden. -/
theorem plain_clean_iff :
    isSafeSelect Unicode.ascii "SELECT 'drop';".str = some true ∧
      (Clean "SELECT 'drop';".str ↔
        Visible Unicode.ascii "SELECT 'drop';".str) := by
  have accepted : isSafeSelect Unicode.ascii "SELECT 'drop';".str = some true := by
    unfold isSafeSelect containsDmlKeyword containsDangerousRead forbiddenKeywords
      forbiddenReadTokens
    repeat rw [String.str_ofList]
    decide +kernel
  exact ⟨accepted, accepted_clean_iff accepted⟩

/-- A comment marker inside a string hides the rest of the line from the guard. -/
theorem marker_hides_read :
    isSafeSelect Unicode.ascii "SELECT '--', pg_read_file('/etc/passwd')".str = some true ∧
      ¬ Clean "SELECT '--', pg_read_file('/etc/passwd')".str := by
  have accepted : isSafeSelect Unicode.ascii
      "SELECT '--', pg_read_file('/etc/passwd')".str = some true := by
    unfold isSafeSelect containsDmlKeyword containsDangerousRead forbiddenKeywords
      forbiddenReadTokens
    repeat rw [String.str_ofList]
    decide +kernel
  refine ⟨accepted, fun clean => ?_⟩
  have named : ∃ token ∈ SqlLexer.tokens "SELECT '--', pg_read_file('/etc/passwd')".str,
      token.asName.any (fun found => decide (Forbidden found.2.1)) = true := by
    rw [String.str_ofList]
    decide +kernel
  obtain ⟨token, member, found⟩ := named
  obtain ⟨⟨before, name, after⟩, read, forbidden⟩ := (Option.any_eq_true _ _).mp found
  exact clean.names token member before name after read (of_decide_eq_true forbidden)

end LumidPlatform.Retrieve.Guard
