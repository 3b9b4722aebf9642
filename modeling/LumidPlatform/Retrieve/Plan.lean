import LumidPlatform.Text

/-!
# Retrieval plans and the SQL guard

A plan is a list of reads. The guard accepts a query by scanning a copy without
comments, in lower case, for one statement that selects and has none of the forbidden
words outside single quotes.
-/

namespace LumidPlatform.Retrieve.Plan

/-- One step of a plan. -/
inductive RetrievalOp where
  | sql (query : Str)
  | storageGet (bucket : Option Str) (key : Str)
  deriving DecidableEq

structure RetrievalPlan where
  plan : List RetrievalOp
  expectedRowcountOrSize : Option Int := none
  rationale : Option Str := none
  deriving DecidableEq

/-- The record of one step: its row count or bytes, and its time in milliseconds. -/
structure AccessChainStep where
  op : Str
  query : Option Str
  bucket : Option Str
  key : Option Str
  rowsOrBytes : Nat
  ms : Nat
  deriving DecidableEq

/-! ## Comments -/

/-- The loop of `strip_sql_comments` and the two loops inside it. -/
inductive StripMode where
  | text
  | line
  | block
  deriving DecidableEq

/-- What `strip_sql_comments` pushes from here on. The line break that ends a comment is
pushed; an opened block that is never closed takes the rest along. -/
def stripFrom : StripMode → Str → Str
  | .text, '-' :: '-' :: rest => stripFrom .line rest
  | .text, '/' :: '*' :: rest => stripFrom .block rest
  | .text, c :: rest => c :: stripFrom .text rest
  | .line, c :: rest => if c = '\n' then c :: stripFrom .text rest else stripFrom .line rest
  | .block, '*' :: '/' :: rest => stripFrom .text rest
  | .block, _ :: rest => stripFrom .block rest
  | _, [] => []

def stripSqlComments (sql : Str) : Str := stripFrom .text sql

/-! ## Words -/

/-- A character that continues a word: ASCII letter, digit or underscore. -/
def isWordChar (c : Char) : Bool := Text.isAsciiAlphanumeric c || c == '_'

/-- No word goes on there: the text ends, or another character stands there. -/
def boundary (c : Option Char) : Bool := c.all (fun c => !isWordChar c)

def isWordPrefix (stmt word : Str) : Bool :=
  match Text.stripPrefix stmt word with
  | some rest => boundary rest.head?
  | none => false

def forbiddenKeywords : List Str := [
  "insert".str, "update".str, "delete".str, "merge".str, "copy".str, "create".str, "drop".str,
  "alter".str, "truncate".str, "grant".str, "revoke".str, "call".str, "execute".str]

def forbiddenReadTokens : List Str := [
  "pg_read_file".str, "pg_read_binary_file".str, "pg_stat_file".str,
  "pg_ls_dir".str, "pg_ls_logdir".str, "pg_ls_waldir".str, "pg_ls_tmpdir".str,
  "pg_ls_archive_statusdir".str,
  "lo_import".str, "lo_export".str, "lo_get".str,
  "dblink".str, "dblink_connect".str,
  "pg_authid".str, "pg_shadow".str, "pg_user_mappings".str, "pg_user_mapping".str,
  "pg_largeobject".str,
  "pg_sleep".str, "pg_sleep_for".str, "pg_sleep_until".str,
  "pg_advisory_lock".str, "pg_advisory_lock_shared".str,
  "pg_try_advisory_lock".str, "pg_try_advisory_lock_shared".str,
  "pg_advisory_unlock".str, "pg_advisory_unlock_shared".str, "pg_advisory_unlock_all".str,
  "pg_advisory_xact_lock".str, "pg_advisory_xact_lock_shared".str,
  "pg_try_advisory_xact_lock".str, "pg_try_advisory_xact_lock_shared".str,
  "pg_terminate_backend".str, "pg_cancel_backend".str, "pg_reload_conf".str,
  "pg_rotate_logfile".str]

/-- `word_present` from a position on, with the character before it. The scan goes byte by
byte, and slicing the statement inside a character panics: that is `none`. Inside single
quotes nothing is sliced. -/
def wordPresentFrom (word : Str) : Bool → Option Char → Str → Option Bool
  | _, _, [] => some false
  | true, _, '\'' :: '\'' :: rest => wordPresentFrom word true (some '\'') rest
  | true, _, c :: rest => wordPresentFrom word (c != '\'') (some c) rest
  | false, prev, c :: rest =>
    if c = '\'' then wordPresentFrom word true (some c) rest
    else if Text.startsWith (c :: rest) word && boundary prev &&
        boundary ((c :: rest).drop word.length).head? then some true
    else if Text.isAscii c then wordPresentFrom word false (some c) rest
    else none

def wordPresent (loweredStmt word : Str) : Option Bool :=
  wordPresentFrom word false none loweredStmt

def containsDmlKeyword (loweredStmt : Str) : Option Bool :=
  forbiddenKeywords.anyM (wordPresent loweredStmt)

def containsDangerousRead (loweredStmt : Str) : Option Bool :=
  forbiddenReadTokens.anyM (wordPresent loweredStmt)

/-- The statements of a query as the guard sees them: stripped, in lower case, trimmed,
without the empty ones. -/
def statements (unicode : Unicode) (query : Str) : List Str :=
  (((unicode.toLowercase (stripSqlComments query)).splitOn ';').map Text.trim).filter
    (fun s => !s.isEmpty)

/-- `is_safe_select`; `none` is a panic. -/
def isSafeSelect (unicode : Unicode) (query : Str) : Option Bool :=
  match statements unicode query with
  | [single] =>
    let stmt := Text.trim single
    if isWordPrefix stmt "select".str || isWordPrefix stmt "with".str then do
      if ← containsDmlKeyword stmt then some false
      else some (!(← containsDangerousRead stmt))
    else some false
  | _ => some false

/-- A search that ends without a hit has none at any member, and panics at none. -/
theorem anyM_eq_false {words : List Str} {found : Str → Option Bool}
    (none' : words.anyM found = some false) : ∀ word ∈ words, found word = some false := by
  induction words with
  | nil => simp
  | cons head rest inductionHypothesis =>
    rw [List.anyM_cons] at none'
    obtain ⟨hit, here, later⟩ := Option.bind_eq_some_iff.mp none'
    cases hit with
    | true => simp at later
    | false =>
      intro word member
      rcases List.mem_cons.mp member with rfl | inRest
      · exact here
      · exact inductionHypothesis later word inRest

/-- What an accepted query is: one statement, in which no forbidden word is present. -/
theorem isSafeSelect_true {unicode : Unicode} {query : Str}
    (accepted : isSafeSelect unicode query = some true) :
    ∃ single, statements unicode query = [single] ∧
      ∀ word ∈ forbiddenKeywords ++ forbiddenReadTokens,
        wordPresent (Text.trim single) word = some false := by
  rw [isSafeSelect] at accepted
  split at accepted
  · rename_i single only
    dsimp only at accepted
    split_ifs at accepted
    · obtain ⟨dml, scanned, later⟩ := Option.bind_eq_some_iff.mp accepted
      cases dml with
      | true => simp at later
      | false =>
        obtain ⟨read, scannedRead, safe⟩ := Option.bind_eq_some_iff.mp later
        obtain rfl : read = false := by simpa using safe
        refine ⟨single, only, fun word member => ?_⟩
        rcases List.mem_append.mp member with keyword | token
        · exact anyM_eq_false scanned word keyword
        · exact anyM_eq_false scannedRead word token
    · simp at accepted
  · simp at accepted

/-! ## What the scanners see -/

/-- What `strip_sql_comments` has pushed when its main loop stands before the character of
an index; `none` where it is inside a comment there, or passes over the index. -/
def stripTo : StripMode → Nat → Str → Option Str
  | .text, 0, _ => some []
  | _, 0, _ => none
  | .text, n + 1, '-' :: '-' :: rest =>
    match n with
    | 0 => none
    | n + 1 => stripTo .line n rest
  | .text, n + 1, '/' :: '*' :: rest =>
    match n with
    | 0 => none
    | n + 1 => stripTo .block n rest
  | .text, n + 1, c :: rest => (stripTo .text n rest).map (c :: ·)
  | .line, n + 1, c :: rest =>
    if c = '\n' then (stripTo .text n rest).map (c :: ·) else stripTo .line n rest
  | .block, n + 1, '*' :: '/' :: rest =>
    match n with
    | 0 => none
    | n + 1 => stripTo .text n rest
  | .block, n + 1, _ :: rest => stripTo .block n rest
  | _, _ + 1, [] => none

/-- A character that begins no comment is pushed. -/
theorem stripFrom_char {c : Char} {rest : Str}
    (noLine : ∀ more, c = '-' → rest = '-' :: more → False)
    (noBlock : ∀ more, c = '/' → rest = '*' :: more → False) :
    stripFrom .text (c :: rest) = c :: stripFrom .text rest := by
  rw [stripFrom]
  · exact noLine
  · exact noBlock

/-- A character inside a block that does not close it is dropped. -/
theorem stripFrom_inBlock {c : Char} {rest : Str}
    (open' : ∀ more, c = '*' → rest = '/' :: more → False) :
    stripFrom .block (c :: rest) = stripFrom .block rest := by
  rw [stripFrom]
  exact open'

/-- Where the main loop stands before an index, the stripped text is what was pushed and
what is pushed from there on. -/
theorem stripFrom_eq {mode : StripMode} {n : Nat} {s kept : Str}
    (stands : stripTo mode n s = some kept) :
    stripFrom mode s = kept ++ stripFrom .text (s.drop n) := by
  fun_induction stripTo mode n s generalizing kept with
  | case1 =>
    obtain rfl := Option.some.inj stands
    rfl
  | case2 => simp at stands
  | case3 => simp at stands
  | case4 rest n inductionHypothesis =>
    rw [stripFrom]
    exact inductionHypothesis stands
  | case5 => simp at stands
  | case6 rest n inductionHypothesis =>
    rw [stripFrom]
    exact inductionHypothesis stands
  | case7 n c rest noLine noBlock inductionHypothesis =>
    obtain ⟨pushed, before, rfl⟩ := Option.map_eq_some_iff.mp stands
    rw [stripFrom_char noLine noBlock, inductionHypothesis before]
    rfl
  | case8 n rest inductionHypothesis =>
    obtain ⟨pushed, before, rfl⟩ := Option.map_eq_some_iff.mp stands
    rw [stripFrom, if_pos rfl, inductionHypothesis before]
    rfl
  | case9 n c rest noBreak inductionHypothesis =>
    rw [stripFrom, if_neg noBreak]
    exact inductionHypothesis stands
  | case10 => simp at stands
  | case11 rest n inductionHypothesis =>
    rw [stripFrom]
    exact inductionHypothesis stands
  | case12 n c rest open' inductionHypothesis =>
    rw [stripFrom_inBlock open']
    exact inductionHypothesis stands
  | case13 => simp at stands

/-- A word of plain characters begins no comment, whatever follows it. -/
theorem stripFrom_plain {word rest : Str} (plain : ∀ c ∈ word, c ≠ '-' ∧ c ≠ '/') :
    stripFrom .text (word ++ rest) = word ++ stripFrom .text rest := by
  induction word with
  | nil => rfl
  | cons c more inductionHypothesis =>
    have this' := plain c List.mem_cons_self
    rw [List.cons_append, stripFrom_char (fun _ dash => absurd dash this'.1)
      (fun _ slash => absurd slash this'.2),
      inductionHypothesis (fun d member => plain d (List.mem_cons_of_mem c member))]
    rfl

theorem getLast?_cons_or (c : Char) (before : Str) (prev : Option Char) :
    ((c :: before).getLast?).or prev = (before.getLast?).or (some c) := by
  cases last : before.getLast? with
  | none => simp [List.getLast?_eq_none_iff.mp last]
  | some d => simp [List.getLast?_cons, last]

/-- A word that stands outside single quotes, between boundaries, is found, unless the scan
panics before it. -/
theorem wordPresentFrom_found {word : Str} {inString : Bool} {prev : Option Char}
    {s before after : Str} (whole : s = before ++ word ++ after) (letters : '\'' ∉ word)
    (nonempty : word ≠ []) (outside : (before.count '\'') % 2 = if inString then 1 else 0)
    (left : boundary ((before.getLast?).or prev) = true) (right : boundary after.head? = true) :
    wordPresentFrom word inString prev s ≠ some false := by
  have notQuote : ∀ rest, '\'' :: rest ≠ word ++ after := by
    intro rest same
    cases word with
    | nil => exact nonempty rfl
    | cons first more =>
      obtain ⟨rfl, -⟩ := List.cons.inj same
      exact letters List.mem_cons_self
  fun_induction wordPresentFrom word inString prev s generalizing before with
  | case1 =>
    have short := congrArg List.length whole
    simp only [List.length_nil, List.length_append] at short
    have long := List.length_pos_iff.mpr nonempty
    omega
  | case2 prev rest inductionHypothesis =>
    match before with
    | [] => simp at outside
    | [x] =>
      obtain ⟨-, tail⟩ := List.cons.inj whole
      exact absurd tail (notQuote rest)
    | x :: y :: before =>
      simp only [List.cons_append, List.cons.injEq] at whole
      obtain ⟨rfl, rfl, tail⟩ := whole
      apply inductionHypothesis tail
      · simp only [List.count_cons_self, if_true] at outside ⊢
        omega
      · rwa [getLast?_cons_or, getLast?_cons_or] at left
  | case3 prev c rest single inductionHypothesis =>
    match before with
    | [] => simp at outside
    | x :: before =>
      simp only [List.cons_append, List.cons.injEq] at whole
      obtain ⟨rfl, tail⟩ := whole
      apply inductionHypothesis tail
      · by_cases quote : c = '\''
        · simp only [quote, List.count_cons_self, if_true] at outside
          simp only [quote, bne_self_eq_false, Bool.false_eq_true, if_false]
          omega
        · simpa [List.count_cons, quote] using outside
      · rwa [getLast?_cons_or] at left
  | case4 prev rest inductionHypothesis =>
    match before with
    | [] => exact absurd whole (notQuote rest)
    | x :: before =>
      simp only [List.cons_append, List.cons.injEq] at whole
      obtain ⟨rfl, tail⟩ := whole
      apply inductionHypothesis tail
      · simp only [List.count_cons_self, Bool.false_eq_true, if_false] at outside
        simp only [if_true]
        omega
      · rwa [getLast?_cons_or] at left
  | case5 => simp
  | case6 prev c rest notQuoted absent ascii inductionHypothesis =>
    match before with
    | [] =>
      exfalso
      apply absent
      simp only [List.nil_append] at whole
      rw [whole]
      simpa [Text.startsWith, right] using left
    | x :: before =>
      simp only [List.cons_append, List.cons.injEq] at whole
      obtain ⟨rfl, tail⟩ := whole
      apply inductionHypothesis tail
      · simpa [List.count_cons, notQuoted] using outside
      · rwa [getLast?_cons_or] at left
  | case7 => simp

/-! ## The forbidden words -/

/-- The characters of a word are ASCII, visible, and none that the scanners look for. -/
theorem isWordChar_plain {c : Char} (word : isWordChar c = true) :
    Text.isAscii c = true ∧ Text.isWhitespace c = false ∧ c ∉ ['\'', ';', '-', '/'] := by
  have range : 48 ≤ c.toNat ∧ c.toNat ≤ 122 := by
    simp only [isWordChar, Text.isAsciiAlphanumeric, Text.isAsciiAlphabetic, Text.isAsciiUpper,
      Text.isAsciiLower, Text.isAsciiDigit, Bool.or_eq_true, Bool.and_eq_true,
      decide_eq_true_eq, beq_iff_eq] at word
    rcases word with ranges | rfl
    · omega
    · decide
  refine ⟨?_, ?_, ?_⟩
  · simp only [Text.isAscii, decide_eq_true_eq]
    omega
  · simp only [Text.isWhitespace, Bool.or_eq_false_iff, Bool.and_eq_false_iff,
      decide_eq_false_iff_not, beq_eq_false_iff_ne]
    omega
  · intro special
    have other : isWordChar c = false := by
      have all : ∀ d ∈ ['\'', ';', '-', '/'], isWordChar d = false := by simp; decide
      exact all c special
    simp [word] at other

theorem word_ofList {chars : List Char} (word : chars ≠ [] ∧ chars.all isWordChar = true) :
    (String.ofList chars).str ≠ [] ∧ (String.ofList chars).str.all isWordChar = true := by
  rwa [String.str_ofList]

theorem listed_word : ∀ word ∈ forbiddenKeywords ++ forbiddenReadTokens,
    word ≠ [] ∧ word.all isWordChar = true := by
  rw [List.forall_mem_append, forbiddenKeywords, forbiddenReadTokens]
  constructor
  all_goals
    repeat refine List.forall_mem_cons.mpr ⟨word_ofList (by decide), ?_⟩
    exact List.forall_mem_nil _

theorem listed_plain {word : Str} (member : word ∈ forbiddenKeywords ++ forbiddenReadTokens) :
    word ≠ [] ∧ ∀ c ∈ word,
      Text.isAscii c = true ∧ Text.isWhitespace c = false ∧ c ∉ ['\'', ';', '-', '/'] := by
  obtain ⟨nonempty, letters⟩ := listed_word word member
  exact ⟨nonempty, fun c inWord => isWordChar_plain (List.all_eq_true.mp letters c inWord)⟩

end LumidPlatform.Retrieve.Plan
