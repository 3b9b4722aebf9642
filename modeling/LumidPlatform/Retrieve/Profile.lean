import LumidPlatform.Lib.Assoc
import LumidPlatform.Lib.SqlSession
import LumidPlatform.Retrieve.Footprints
import LumidPlatform.Retrieve.Replayer

/-!
# Cost estimates

A request names a query and variants, which are labels with planner switches. For each variant
the query is explained in a transaction of its own: the transaction is configured, the switches
are set one by one, and the planner is asked. What the server answers is an argument; what is
sent is told whatever it answers. The texts that configure a transaction, here, for a retrieval
and for an elevated read, say what they are meant to say, up to what the server takes for the
name of a role.
-/

namespace LumidPlatform.Retrieve.Profile

open Plan Replayer SqlLexer

/-! ## Requests -/

/-- A label, and switches in the order in which the map gives them. -/
structure PlanVariant where
  planId : Str
  settings : List (Str × Str)

/-- A request for profiles: the query and the variants under which it is to be explained. -/
structure ProfileRequest where
  sql : Str
  plans : List PlanVariant

/-- `MAX_PROFILE_PLANS`. -/
def maxProfilePlans : Nat := 32

/-- `ALLOWED_GUC_KEYS`: the switches of the planner that a variant may set. -/
def allowedGucKeys : List Str := [
  "enable_seqscan".str, "enable_indexscan".str, "enable_bitmapscan".str, "enable_hashjoin".str,
  "enable_mergejoin".str, "enable_nestloop".str, "enable_indexonlyscan".str,
  "enable_material".str, "enable_sort".str]

/-- The form of a key is checked first, and then the list. Every key of the list has the form. -/
def isAllowedGucKey (key : Str) : Bool :=
  let structurallyOk := Text.startsWith key "enable_".str && 7 < Text.byteLen key &&
    (key.drop 7).all Text.isAsciiLower
  if !structurallyOk then false else allowedGucKeys.contains key

/-- The switches are on or off; no other spelling of a boolean is taken. -/
def isAllowedGucValue (value : Str) : Bool := value == "on".str || value == "off".str

/-- The loop over the switches of the variant at an index. -/
def checkSettings (index : Nat) : List (Str × Str) → ApiResult Unit
  | [] => .ok ()
  | (key, value) :: rest =>
    if !isAllowedGucKey key then
      .error (.badRequest ("plans[".str ++ Text.showNat index ++ "]: GUC key '".str ++ key ++
        "' is not allowed; only planner enable_* toggles are permitted".str))
    else if !isAllowedGucValue value then
      .error (.badRequest ("plans[".str ++ Text.showNat index ++ "]: GUC value '".str ++ value ++
        "' for key '".str ++ key ++
        "' is not allowed; only 'on' or 'off' are permitted".str))
    else checkSettings index rest

/-- One entry of `plans`. -/
def parseVariant (fromValue : Json → Except Str PlanVariant) (index : Nat) (item : Json) :
    ApiResult PlanVariant := do
  match fromValue item with
  | .error text =>
    .error (.badRequest ("plans[".str ++ Text.showNat index ++ "] is invalid: ".str ++ text))
  | .ok variant =>
    if (Text.trim variant.planId).isEmpty then
      .error (.badRequest ("plans[".str ++ Text.showNat index ++
        "].plan_id must not be empty".str))
    else
      checkSettings index variant.settings
      .ok variant

/-- The entries of `plans` in turn. The first that is not a variant ends the request, and its index
is in the message. -/
def parseVariants (fromValue : Json → Except Str PlanVariant) :
    Nat → List Json → ApiResult (List PlanVariant)
  | _, [] => .ok []
  | index, item :: rest => do
    let variant ← parseVariant fromValue index item
    let variants ← parseVariants fromValue (index + 1) rest
    .ok (variant :: variants)

/-- Without `plans` there is one variant, which sets nothing. -/
def parsePlans (fromValue : Json → Except Str PlanVariant) :
    Option Json → ApiResult (List PlanVariant)
  | none => .ok [⟨"default".str, []⟩]
  | some (.array items) =>
    if items.isEmpty then .error (.badRequest "'plans' must have at least one entry".str)
    else if maxProfilePlans < items.length then
      .error (.badRequest ("'plans' must have at most ".str ++ Text.showNat maxProfilePlans ++
        " entries; got ".str ++ Text.showNat items.length))
    else parseVariants fromValue 0 items
  | some _ => .error (.badRequest "'plans' must be an array".str)

/-- `parse_profile_request`; `none` is a panic of the guard. `fromValue` is the deserializer of
a variant. -/
def parseProfileRequest (unicode : Unicode) (fromValue : Json → Except Str PlanVariant)
    (body : Json) : Option (ApiResult ProfileRequest) :=
  let members := body.asObject?.getD []
  match JsonMap.get members "sql".str with
  | none => some (.error (.badRequest "'sql' is required".str))
  | some value =>
    match value.asStr? with
    | none => some (.error (.badRequest "'sql' must be a string".str))
    | some sql => do
      if ← isSafeSelect unicode sql then
        some ((parsePlans fromValue (JsonMap.get members "plans".str)).map
          (fun plans => ⟨sql, plans⟩))
      else
        some (.error (.badRequest
          ("SQL rejected: only a single read-only SELECT is allowed; got: ".str ++ sql.take 200)))

/-! ## Explaining a variant -/

/-- What the database does: it fails before a transaction begins, or answers the texts sent in
it so far with the first cells of the rows of the last one, where they are JSON. -/
structure Connection where
  begins : Option DbFailure
  answer : List Str → Except Str (List (Option Json))

/-- The first statements of the transaction. -/
def explainSetup (stmtTimeoutMs : Nat) (dbRole : Str) : Str :=
  "SET TRANSACTION READ ONLY; SET LOCAL statement_timeout = ".str ++
    Text.showNat stmtTimeoutMs ++
    (if (Text.trim dbRole).isEmpty then []
      else "; SET LOCAL ROLE ".str ++ quotePgIdent (Text.trim dbRole))

/-- One setting of a variant, as it is sent. -/
def setStmt (setting : Str × Str) : Str :=
  "SET LOCAL ".str ++ setting.1 ++ " = ".str ++ setting.2

/-- The cleaned query as it is sent, to be explained and not executed. -/
def explainStmt (sql : Str) : Str := "EXPLAIN (FORMAT JSON, VERBOSE) ".str ++ cleaned sql

/-- What is answered for one variant. -/
structure PlanCostEstimate where
  planId : Str
  rawCost : F64
  estimatedRows : Int64
  footprints : Tallies.Tally Str Int64
  explainJson : Json

/-- The loop over the switches, with the texts sent. -/
def sendSettings (answer : List Str → Except Str (List (Option Json))) :
    List Str → List (Str × Str) → ApiResult Unit × List Str
  | sent, [] => (.ok (), sent)
  | sent, setting :: rest =>
    let sent := sent ++ [setStmt setting]
    match answer sent with
    | .error text => (.error (.badRequest (setStmt setting ++ " failed: ".str ++ text)), sent)
    | .ok _ => sendSettings answer sent rest

/-- The estimate that the rows of the planner give. -/
def estimateOf (variant : PlanVariant) (rows : List (Option Json)) :
    ApiResult PlanCostEstimate :=
  match rows.head?.bind id with
  | none => .error (.internal "EXPLAIN returned no rows".str)
  | some raw =>
    match parseExplainJson raw with
    | none => .error (.internal "unexpected EXPLAIN JSON shape".str)
    | some (rawCost, estimatedRows, footprints) =>
      .ok ⟨variant.planId, rawCost, estimatedRows, footprints,
        (raw.asArray?.bind List.head?).getD .null⟩

/-- `explain_one_variant`, with the texts sent to the database. -/
def explainOneVariant (connection : Connection) (sql : Str) (variant : PlanVariant)
    (settings : Settings) : ApiResult PlanCostEstimate × List Str :=
  match connection.begins with
  | some failure => (.error (dbError settings failure), [])
  | none =>
    let setupText := explainSetup settings.retrievalStmtTimeoutMs settings.retrievalDbRole
    match connection.answer [setupText] with
    | .error text => (.error (dbError settings (.configure text)), [setupText])
    | .ok _ =>
      match sendSettings connection.answer [setupText] variant.settings with
      | (.error e, sent) => (.error e, sent)
      | (.ok (), sent) =>
        let sent := sent ++ [explainStmt sql]
        match connection.answer sent with
        | .error text => (.error (.badRequest ("EXPLAIN failed: ".str ++ text)), sent)
        | .ok rows => (estimateOf variant rows, sent)

/-- `query_rows_as_role` on Postgres: the texts before the query. -/
def adminSetup (role : Str) : Str :=
  "SET TRANSACTION READ ONLY; SET LOCAL ROLE ".str ++ quotePgIdent (Text.trim role)

/-! ## Sessions -/

/-- The code quotes a name as the language is printed. -/
theorem quotePgIdent_eq (ident : Str) : quotePgIdent ident = quoteName ident := rfl

/-- A number is written with digits only. -/
theorem isDigit_showNat {n : Nat} {c : Char} (member : c ∈ Text.showNat n) :
    isDigit c = true := by
  have digit := Text.isAsciiDigit_of_mem_showNat member
  simpa [Text.isAsciiDigit, isDigit] using digit

/-- A fixed part of a text that ends between words is read by itself. -/
theorem words_fixed {part : Str} (tamed : part.all tame = true)
    (ends : part.getLast?.all (fun c => !continuesName c && c != '.') = true) (rest : Str) :
    words (part ++ rest) = words part ++ words rest := by
  apply words_part (List.all_eq_true.mp tamed)
  left
  intro c last
  rw [Option.mem_def.mp last, Option.all_some, Bool.and_eq_true, Bool.not_eq_true',
    bne_iff_ne] at ends
  exact ends

/-- A keyword as a word of the language. -/
def key (name : String) : Word := ⟨.name, name.str⟩

/-- The sign between a setting and its value. -/
def equals : Word := ⟨.symbol, ['=']⟩

/-- The first statement of the setup is the five words that it looks like. -/
theorem words_readOnly : words "SET TRANSACTION READ ONLY; ".str =
    [key "SET", key "TRANSACTION", key "READ", key "ONLY", semicolon] := by
  decide

/-- The second is four words and the number that follows. -/
theorem words_timeout : words "SET LOCAL statement_timeout = ".str =
    [key "SET", key "LOCAL", key "statement_timeout", equals] := by
  decide

/-- The third is three words and the name that follows. -/
theorem words_role : words "SET LOCAL ROLE ".str =
    [key "SET", key "LOCAL", key "ROLE"] := by
  decide

section

variable (session : Session)

/-- A part without a zero leaves the zeros of what follows it. -/
theorem zero_append {part : Str} (clean : '\x00' ∉ part) (rest : Str) :
    '\x00' ∈ part ++ rest ↔ '\x00' ∈ rest := by
  rw [List.mem_append, or_iff_right clean]

/-- Quoting a name brings no NUL in. -/
theorem zero_quotePgIdent {name : Str} (clean : '\x00' ∉ name) : '\x00' ∉ quotePgIdent name := by
  have inside : '\x00' ∉ doubled name := by
    rw [doubled, List.mem_flatMap]
    rintro ⟨c, member, zero⟩
    split_ifs at zero
    · revert zero
      decide
    · rw [List.mem_singleton] at zero
      exact clean (zero ▸ member)
  rw [quotePgIdent_eq, quoteName, List.mem_append, List.mem_cons, not_or, not_or]
  exact ⟨⟨by decide, inside⟩, by decide⟩

/-- Nor does a number. -/
theorem zero_showNat (n : Nat) : '\x00' ∉ Text.showNat n := by
  intro member
  have digit := isDigit_showNat member
  revert digit
  decide

/-- The server reads the first statement, and goes on with the rest. -/
theorem execute_readOnly (rest : Str) :
    session.execute ("SET TRANSACTION READ ONLY; ".str ++ rest) =
      (session.perform .readOnly).execute rest := by
  let first : List Word := [key "SET", key "TRANSACTION", key "READ", key "ONLY"]
  have cut : words ("SET TRANSACTION READ ONLY; ".str ++ rest) =
      first ++ semicolon :: words rest := by
    rw [words_fixed (by decide) (by decide), words_readOnly]
    rfl
  exact Session.execute_cons (zero_append (by decide) rest) cut (List.cons_ne_nil _ _) (by decide)
    (by decide)

/-- The role of the transaction is the configured one, as far as it is a name. -/
theorem execute_role {role : Str} (named : role ≠ []) (clean : '\x00' ∉ role) :
    session.execute ("SET LOCAL ROLE ".str ++ quotePgIdent role) =
      some (session.perform (.setRole (clip nameRoom role))) := by
  have said : words ("SET LOCAL ROLE ".str ++ quotePgIdent role) =
      [key "SET", key "LOCAL", key "ROLE", ⟨.quotedName, quoteName role⟩] := by
    have quoted := @words_quoteName [] role (by simp)
    rw [List.append_nil] at quoted
    rw [words_fixed (by decide) (by decide), words_role, quotePgIdent_eq, quoted]
    rfl
  apply Session.execute_single
  · exact mt (zero_append (by decide) _).mp (zero_quotePgIdent clean)
  · rw [said]
    exact List.cons_ne_nil _ _
  · rw [said]
    simp [semicolon, key]
  · have ident : Word.ident ⟨.quotedName, quoteName role⟩ = some (clip nameRoom role) := by
      have full : ¬role.isEmpty = true := mt List.isEmpty_iff.mp named
      rw [Word.ident]
      dsimp only
      rw [unquote_quoteName, if_neg full]
    rw [said]
    change (Word.ident ⟨.quotedName, quoteName role⟩).map Command.setRole = _
    rw [ident]
    rfl

/-- The timeout, and what follows it. -/
theorem execute_timeout {timeout : Nat} (short : timeout < 2 ^ 31) :
    session.execute ("SET LOCAL statement_timeout = ".str ++ Text.showNat timeout) =
        some (session.perform (.setLocal "statement_timeout".str (Text.showNat timeout))) ∧
      ∀ rest, session.execute ("SET LOCAL statement_timeout = ".str ++ Text.showNat timeout ++
          ("; ".str ++ rest)) =
        (session.perform (.setLocal "statement_timeout".str (Text.showNat timeout))).execute
          rest := by
  have digits : ∀ c ∈ Text.showNat timeout, isDigit c = true := fun c => isDigit_showNat
  have something : Text.showNat timeout ≠ [] := Nat.toDigits_ne_nil
  let first : List Word := [key "SET", key "LOCAL", key "statement_timeout", equals,
    ⟨.number, Text.showNat timeout⟩]
  have value : Word.value ⟨.number, Text.showNat timeout⟩ = some (Text.showNat timeout) := by
    have said : Nat.ofDigitChars 10 (Text.showNat timeout) 0 = timeout :=
      Nat.ofDigitChars_ten_toDigits
    rw [Word.value]
    dsimp only
    rw [said, List.all_eq_true.mpr digits, Bool.true_and, if_pos (decide_eq_true short)]
  have read : command first = some
      (.setLocal "statement_timeout".str (Text.showNat timeout)) := by
    change (Word.ident (key "statement_timeout")).bind (fun name =>
      (Word.value ⟨.number, Text.showNat timeout⟩).map (Command.setLocal name)) = _
    rw [value]
    rfl
  have absent : semicolon ∉ first := by simp [first, semicolon, key, equals]
  constructor
  · have said : words ("SET LOCAL statement_timeout = ".str ++ Text.showNat timeout) = first := by
      rw [words_fixed (by decide) (by decide), words_timeout, words_digits digits something]
      rfl
    apply Session.execute_single
    · exact mt (zero_append (by decide) _).mp (zero_showNat timeout)
    · rw [said]
      exact List.cons_ne_nil _ _
    · rw [said]
      exact absent
    · rw [said]
      exact read
  · intro rest
    have zeros : '\x00' ∈ "SET LOCAL statement_timeout = ".str ++ Text.showNat timeout ++
        ("; ".str ++ rest) ↔ '\x00' ∈ rest := by
      rw [zero_append (mt (zero_append (by decide) _).mp (zero_showNat timeout)),
        zero_append (by decide)]
    apply Session.execute_cons zeros _ (List.cons_ne_nil _ _) absent read
    rw [List.append_assoc, words_fixed (by decide) (by decide), words_timeout,
      words_number digits something, words_fixed (by decide) (by decide)]
    · rfl
    · intro c head
      obtain rfl := Option.some.inj (show some ';' = some c from head)
      decide

/-- The role under which a transaction runs where a name is configured. -/
def configuredRole (session : Session) (dbRole : Str) : Option Str :=
  if (Text.trim dbRole).isEmpty then session.role else roleOf (clip nameRoom (Text.trim dbRole))

/-- The first statements make the transaction read-only, with the timeout and the role that are
configured and nothing else. -/
theorem execute_explainSetup {timeout : Nat} (short : timeout < 2 ^ 31) {dbRole : Str}
    (clean : '\x00' ∉ Text.trim dbRole) :
    session.execute (explainSetup timeout dbRole) =
      some ⟨true, configuredRole session dbRole,
        Function.update session.settings "statement_timeout".str
          (some (Text.showNat timeout))⟩ := by
  have opening : "SET TRANSACTION READ ONLY; SET LOCAL statement_timeout = ".str =
      "SET TRANSACTION READ ONLY; ".str ++ "SET LOCAL statement_timeout = ".str := by
    decide
  rw [explainSetup, opening, configuredRole]
  split_ifs with none
  · rw [List.append_nil, List.append_assoc, execute_readOnly, (execute_timeout _ short).1]
    rfl
  · have separator : "; SET LOCAL ROLE ".str = "; ".str ++ "SET LOCAL ROLE ".str := by
      decide
    have named : Text.trim dbRole ≠ [] := mt List.isEmpty_iff.mpr none
    rw [separator, List.append_assoc, List.append_assoc, List.append_assoc, execute_readOnly,
      ← List.append_assoc, (execute_timeout _ short).2, execute_role _ named clean]
    rfl

end

/-- An administrator's setup is read only and takes on the configured role, unless the name of the
role is blank. -/
theorem execute_adminSetup (session : Session) {role : Str} (named : Text.trim role ≠ [])
    (clean : '\x00' ∉ Text.trim role) :
    session.execute (adminSetup role) =
      some ⟨true, roleOf (clip nameRoom (Text.trim role)), session.settings⟩ := by
  have opening : "SET TRANSACTION READ ONLY; SET LOCAL ROLE ".str =
      "SET TRANSACTION READ ONLY; ".str ++ "SET LOCAL ROLE ".str := by
    decide
  rw [adminSetup, opening, List.append_assoc, execute_readOnly, execute_role _ named clean]
  rfl

/-- A role that a server can have under that name: it fits into a name, is not the word for no
role at all, and can be sent. -/
structure Nameable (role : Str) : Prop where
  fits : Text.byteLen role ≤ nameRoom
  named : role ≠ "none".str
  clean : '\x00' ∉ role

/-- A name that fits and is not the word for no role is read as the very role. -/
theorem Nameable.roleOf {role : Str} (nameable : Nameable role) :
    roleOf (clip nameRoom role) = some role := by
  have bytes (name : Str) : (name.map Char.utf8Size).sum = Text.byteLen name := by
    induction name with
    | nil => rfl
    | cons c rest inductionHypothesis =>
      rw [List.map_cons, List.sum_cons, inductionHypothesis, Text.byteLen_cons]
  exact roleOf_clip ((bytes role).le.trans nameable.fits) nameable.named

/-- A retrieval and an elevated read run in a read-only transaction, under the very role that is
configured, whatever else is in its name; of parameters the retrieval sets its timeout alone. -/
theorem readers_configured (session : Session) (settings : Settings)
    (short : settings.retrievalStmtTimeoutMs < 2 ^ 31) {role : Str}
    (retrieves : Nameable (Text.trim settings.retrievalDbRole))
    (elevates : Nameable (Text.trim role)) :
    session.execute (setup settings) =
        some ⟨true,
          if (Text.trim settings.retrievalDbRole).isEmpty then session.role
            else some (Text.trim settings.retrievalDbRole),
          Function.update session.settings "statement_timeout".str
            (some (Text.showNat settings.retrievalStmtTimeoutMs))⟩ ∧
      (Text.trim role ≠ [] →
        session.execute (adminSetup role) =
          some ⟨true, some (Text.trim role), session.settings⟩) := by
  constructor
  · have configured := execute_explainSetup session short retrieves.clean
    rw [configuredRole, retrieves.roleOf] at configured
    exact configured
  · intro named
    rw [execute_adminSetup session named elevates.clean, elevates.roleOf]

/-- Readers under a role with a quote in its name. -/
def readerSettings : Settings where
  retrievalStmtTimeoutMs := 5000
  retrievalRowCap := 100
  retrievalPrefix := "retrieved".str
  retrievalDbRole := "read\"er; RESET ROLE".str

/-- A name with a quote and a semicolon in it can be named. -/
theorem readerSettings_nameable : Nameable (Text.trim readerSettings.retrievalDbRole) :=
  ⟨by decide +kernel, by decide +kernel, by decide +kernel⟩

/-- The setup takes on a role whose name has a quote and a statement in it, and trims another that
differs from the word for no role in case. -/
theorem reader_configured :
    (Session.execute {} (setup readerSettings)).map Session.role =
        some (some "read\"er; RESET ROLE".str) ∧
      (Session.execute {} (adminSetup " None ".str)).map Session.role =
        some (some "None".str) := by
  have elevates : Nameable (Text.trim " None ".str) :=
    ⟨by decide +kernel, by decide +kernel, by decide +kernel⟩
  obtain ⟨retrieval, elevated⟩ := readers_configured {} readerSettings
    (by decide : readerSettings.retrievalStmtTimeoutMs < 2 ^ 31) readerSettings_nameable elevates
  rw [retrieval, elevated (by decide +kernel)]
  constructor <;> decide +kernel

/-! ## Switches -/

/-- An accepted key is on the list. -/
theorem key_of_allowed {key : Str} (allowed : isAllowedGucKey key = true) :
    key ∈ allowedGucKeys := by
  rw [isAllowedGucKey] at allowed
  split_ifs at allowed
  exact List.contains_iff_mem.mp allowed

/-- An accepted value is one of the two words. -/
theorem value_of_allowed {value : Str} (allowed : isAllowedGucValue value = true) :
    value ∈ ["on".str, "off".str] := by
  rw [isAllowedGucValue, Bool.or_eq_true, beq_iff_eq, beq_iff_eq] at allowed
  simpa using allowed

/-- A switch is set, and nothing else. -/
theorem execute_setStmt (session : Session) {setting : Str × Str}
    (allowedKey : isAllowedGucKey setting.1 = true)
    (allowedValue : isAllowedGucValue setting.2 = true) :
    session.execute (setStmt setting) =
      some (session.perform (.setLocal setting.1 setting.2)) := by
  have every : allowedGucKeys.all (fun name => ["on".str, "off".str].all (fun value =>
      decide ('\x00' ∉ setStmt (name, value) ∧ words (setStmt (name, value)) ≠ [] ∧
        semicolon ∉ words (setStmt (name, value)) ∧
          command (words (setStmt (name, value))) = some (.setLocal name value)))) = true := by
    decide
  have here := List.all_eq_true.mp (List.all_eq_true.mp every _ (key_of_allowed allowedKey)) _
    (value_of_allowed allowedValue)
  obtain ⟨clean, something, absent, read⟩ := of_decide_eq_true here
  exact Session.execute_single clean something absent read

/-- Switches that were checked. -/
def Allowed (settings : List (Str × Str)) : Prop :=
  ∀ setting ∈ settings, isAllowedGucKey setting.1 = true ∧ isAllowedGucValue setting.2 = true

/-- The settings of a variant that is accepted are on the lists, key and value. -/
theorem checkSettings_ok {index : Nat} {settings : List (Str × Str)}
    (checked : checkSettings index settings = .ok ()) : Allowed settings := by
  induction settings with
  | nil => exact fun setting member => by cases member
  | cons setting rest inductionHypothesis =>
    rw [checkSettings] at checked
    split_ifs at checked with key value
    rw [Bool.not_eq_true', Bool.not_eq_false] at key value
    intro other member
    rcases List.mem_cons.mp member with rfl | later
    · exact ⟨key, value⟩
    · exact inductionHypothesis checked other later

variable {fromValue : Json → Except Str PlanVariant}

/-- The settings of an entry that is parsed are on the lists. -/
theorem parseVariant_ok {index : Nat} {item : Json} {variant : PlanVariant}
    (parsed : parseVariant fromValue index item = .ok variant) :
    fromValue item = .ok variant ∧ Allowed variant.settings := by
  rw [parseVariant] at parsed
  cases read : fromValue item with
  | error text =>
    rw [read] at parsed
    cases parsed
  | ok own =>
    rw [read] at parsed
    dsimp only at parsed
    split_ifs at parsed
    obtain ⟨done, checked, same⟩ := ApiResult.bind_eq_ok.mp parsed
    obtain rfl := Except.ok.inj same
    exact ⟨rfl, checkSettings_ok checked⟩

/-- So are those of every entry of a request. -/
theorem parseVariants_ok {index : Nat} {items : List Json} {variants : List PlanVariant}
    (parsed : parseVariants fromValue index items = .ok variants) :
    ∀ variant ∈ variants, (∃ item, fromValue item = .ok variant) ∧ Allowed variant.settings := by
  induction items generalizing index variants with
  | nil =>
    obtain rfl := Except.ok.inj parsed
    exact fun variant member => by cases member
  | cons item rest inductionHypothesis =>
    rw [parseVariants] at parsed
    obtain ⟨first, one, more⟩ := ApiResult.bind_eq_ok.mp parsed
    obtain ⟨others, later, same⟩ := ApiResult.bind_eq_ok.mp more
    obtain rfl := Except.ok.inj same
    intro variant member
    rcases List.mem_cons.mp member with rfl | inRest
    · exact ⟨⟨item, (parseVariant_ok one).1⟩, (parseVariant_ok one).2⟩
    · exact inductionHypothesis later variant inRest

/-- An accepted request has passed the guard, and its variants the checks of their switches. -/
theorem parseProfileRequest_ok {unicode : Unicode} {body : Json} {request : ProfileRequest}
    (accepted : parseProfileRequest unicode fromValue body = some (.ok request)) :
    isSafeSelect unicode request.sql = some true ∧
      ∀ variant ∈ request.plans,
        (variant.settings = [] ∨ ∃ item, fromValue item = .ok variant) ∧
          Allowed variant.settings := by
  rw [parseProfileRequest] at accepted
  split at accepted
  · cases accepted
  split at accepted
  · cases accepted
  obtain ⟨safe, guarded, answered⟩ := Option.bind_eq_some_iff.mp accepted
  by_cases isSafe : safe = true
  case neg =>
    rw [if_neg isSafe] at answered
    cases Option.some.inj answered
  rw [if_pos isSafe] at answered
  obtain ⟨plans, parsed, rfl⟩ := ApiResult.map_eq_ok.mp (Option.some.inj answered)
  refine ⟨by rw [guarded, isSafe], fun variant member => ?_⟩
  rw [parsePlans.eq_def] at parsed
  split at parsed
  · obtain rfl := Except.ok.inj parsed
    obtain rfl := List.mem_singleton.mp member
    exact ⟨Or.inl rfl, fun setting inside => by cases inside⟩
  · split_ifs at parsed
    obtain ⟨given, allowed⟩ := parseVariants_ok parsed variant member
    exact ⟨Or.inr given, allowed⟩
  · cases parsed

/-! ## What a variant sends -/

/-- All texts up to the question to the planner. -/
def configuration (settings : Settings) (variant : PlanVariant) : List Str :=
  explainSetup settings.retrievalStmtTimeoutMs settings.retrievalDbRole ::
    variant.settings.map setStmt

/-- What is sent of the settings is a front part of them in their order, and all of them if none is
refused. By induction on the settings. -/
theorem sendSettings_sent (answer : List Str → Except Str (List (Option Json)))
    (sent : List Str) (settings : List (Str × Str)) :
    (sendSettings answer sent settings).2 <+: sent ++ settings.map setStmt ∧
      ((sendSettings answer sent settings).1 = .ok () →
        (sendSettings answer sent settings).2 = sent ++ settings.map setStmt) := by
  induction settings generalizing sent with
  | nil =>
    rw [sendSettings, List.map_nil, List.append_nil]
    exact ⟨List.prefix_rfl, fun _ => rfl⟩
  | cons setting rest inductionHypothesis =>
    have split : sent ++ (setting :: rest).map setStmt =
        (sent ++ [setStmt setting]) ++ rest.map setStmt := by
      rw [List.map_cons, List.append_assoc, List.singleton_append]
    rw [sendSettings, split]
    cases answer (sent ++ [setStmt setting]) with
    | error text => exact ⟨List.prefix_append _ _, fun done => by cases done⟩
    | ok rows => exact inductionHypothesis (sent ++ [setStmt setting])

/-- Whatever the server answers, the texts sent are those of the configuration and then the
question, as far as it comes. -/
theorem sent_start (connection : Connection) (sql : Str) (variant : PlanVariant)
    (settings : Settings) :
    (explainOneVariant connection sql variant settings).2 <+:
      configuration settings variant ++ [explainStmt sql] := by
  rw [explainOneVariant]
  cases connection.begins with
  | some failure => exact List.nil_prefix
  | none =>
    dsimp only
    cases connection.answer [explainSetup settings.retrievalStmtTimeoutMs
        settings.retrievalDbRole] with
    | error text => exact List.prefix_append [_] _
    | ok rows =>
      dsimp only
      obtain ⟨begun, whole⟩ := sendSettings_sent connection.answer
        [explainSetup settings.retrievalStmtTimeoutMs settings.retrievalDbRole] variant.settings
      cases outcome : sendSettings connection.answer
          [explainSetup settings.retrievalStmtTimeoutMs settings.retrievalDbRole]
          variant.settings with
      | mk result sent =>
        rw [outcome] at begun whole
        cases result with
        | error e => exact begun.trans (List.prefix_append _ _)
        | ok done =>
          obtain rfl := whole rfl
          dsimp only
          split <;> exact List.prefix_rfl

/-- The switches of a variant are set, and nothing else. -/
theorem executeAll_switches {settings : List (Str × Str)} (allowed : Allowed settings)
    (distinct : (settings.map Prod.fst).Nodup) (session : Session) :
    session.executeAll (settings.map setStmt) =
      some { session with settings := fun name =>
        (List.lookup name settings).or (session.settings name) } := by
  induction settings generalizing session with
  | nil => rfl
  | cons setting rest inductionHypothesis =>
    obtain ⟨key, value⟩ := allowed setting List.mem_cons_self
    rw [List.map_cons, List.nodup_cons] at distinct
    rw [List.map_cons, Session.executeAll, List.foldlM_cons, execute_setStmt session key value]
    have later := inductionHypothesis
      (fun other member => allowed other (List.mem_cons_of_mem _ member)) distinct.2
      (session.perform (.setLocal setting.1 setting.2))
    rw [Session.executeAll] at later
    refine later.trans (congrArg some ?_)
    rw [Session.perform, Session.mk.injEq]
    refine ⟨rfl, rfl, funext fun name => ?_⟩
    change (List.lookup name rest).or
      (Function.update session.settings setting.1 (some setting.2) name) = _
    by_cases same : name = setting.1
    · have absent : List.lookup name rest = none := by
        rw [List.lookup_eq_none_iff]
        intro entry member
        rw [bne_iff_ne, same]
        exact fun equal => distinct.1 (equal ▸ List.mem_map_of_mem member)
      rw [absent, same, Function.update_self, List.lookup_cons_self]
      rfl
    · rw [Function.update_of_ne same, List.lookup_cons, beq_eq_false_iff_ne.mpr same]

/-- The words before the query. -/
def questionWords : List Word := [key "EXPLAIN", ⟨.symbol, ['(']⟩, key "FORMAT", key "JSON",
  ⟨.symbol, [',']⟩, key "VERBOSE", ⟨.symbol, [')']⟩]

/-- The question has fixed options, whatever the query says. -/
theorem words_explainStmt (sql : Str) :
    words (explainStmt sql) = questionWords ++ words (cleaned sql) := by
  have opening : words "EXPLAIN (FORMAT JSON, VERBOSE) ".str = questionWords := by
    decide
  rw [explainStmt, words_fixed (by decide) (by decide), opening]

/-- Whatever the server answers, what a variant of an accepted request sends is a configuration
and then the question. The configuration makes the transaction read-only under the configured
role and timeout; besides these, it sets the switches of the variant and no other parameter. The
question is prepared, as the one statement that explains the query and nothing else; a query that
is several statements is refused. -/
theorem explained_as_asked {unicode : Unicode} {body : Json} {request : ProfileRequest}
    (distinct : ∀ item variant, fromValue item = .ok variant →
      (variant.settings.map Prod.fst).Nodup)
    (accepted : parseProfileRequest unicode fromValue body = some (.ok request))
    {variant : PlanVariant} (member : variant ∈ request.plans) (connection : Connection)
    {settings : Settings} (short : settings.retrievalStmtTimeoutMs < 2 ^ 31)
    (role : Nameable (Text.trim settings.retrievalDbRole)) :
    (explainOneVariant connection request.sql variant settings).2 <+:
        configuration settings variant ++ [explainStmt request.sql] ∧
      Session.executeAll {} (configuration settings variant) = some {
        readOnly := true
        role := if (Text.trim settings.retrievalDbRole).isEmpty then none
          else some (Text.trim settings.retrievalDbRole)
        settings := fun name => (List.lookup name variant.settings).or
          (if name = "statement_timeout".str
            then some (Text.showNat settings.retrievalStmtTimeoutMs) else none) } ∧
      (∀ statement, prepared (explainStmt request.sql) = some statement →
        statement = questionWords ++ (statements (cleaned request.sql)).flatten ∧
          (statements (cleaned request.sql)).length ≤ 1) ∧
      ('\x00' ∉ cleaned request.sql → semicolon ∉ words (cleaned request.sql) →
        prepared (explainStmt request.sql) =
          some (questionWords ++ words (cleaned request.sql))) := by
  have said := words_explainStmt request.sql
  have plain : semicolon ∉ questionWords := by decide
  refine ⟨sent_start connection request.sql variant settings, ?_,
    fun _ sent => prepared_front said plain (List.cons_ne_nil _ _) sent, fun clean one => ?_⟩
  · obtain ⟨given, allowed⟩ := (parseProfileRequest_ok accepted).2 variant member
    have keys : (variant.settings.map Prod.fst).Nodup := by
      rcases given with none | ⟨item, read⟩
      · rw [none]
        exact List.nodup_nil
      · exact distinct item variant read
    rw [configuration, Session.executeAll, List.foldlM_cons,
      execute_explainSetup _ short role.clean, configuredRole, role.roleOf]
    refine (executeAll_switches allowed keys _).trans (congrArg some ?_)
    rw [Session.mk.injEq]
    refine ⟨rfl, rfl, funext fun name => ?_⟩
    dsimp only
    by_cases timeout : name = "statement_timeout".str
    · rw [timeout, Function.update_self, if_pos rfl]
    · rw [Function.update_of_ne timeout, if_neg timeout]
  · exact prepared_of_front (mt (zero_append (by decide) _).mp clean) said plain
      (List.cons_ne_nil _ _) one

/-- The deserializer on a plain variant. -/
def plainVariant (item : Json) : Except Str PlanVariant :=
  let members := item.asObject?.getD []
  let settings := (((JsonMap.get members "settings".str).bind Json.asObject?).getD []).filterMap
    (fun entry => entry.2.asStr?.map (fun value => (entry.1, value)))
  match (JsonMap.get members "plan_id".str).bind Json.asStr? with
  | none => .error "missing field `plan_id`".str
  | some planId =>
    if (settings.map Prod.fst).Nodup then .ok ⟨planId, settings⟩
    else .error "duplicate field".str

/-- A variant that forbids sequential scans. -/
def withoutScans : PlanVariant := ⟨"index".str, [("enable_seqscan".str, "off".str)]⟩

/-- The setup, its setting and the question are sent, and are read as just these words. -/
theorem withoutScans_explained :
    (explainOneVariant ⟨none, fun _ => .ok []⟩ "SELECT 1".str withoutScans readerSettings).2 <+:
        configuration readerSettings withoutScans ++ [explainStmt "SELECT 1".str] ∧
      (Session.executeAll {} (configuration readerSettings withoutScans)).map Session.role =
        some (some "read\"er; RESET ROLE".str) ∧
      prepared (explainStmt "SELECT 1".str) =
        some (questionWords ++ [key "SELECT", ⟨.number, ['1']⟩]) := by
  have distinct : ∀ item variant, plainVariant item = .ok variant →
      (variant.settings.map Prod.fst).Nodup := by
    intro item variant read
    rw [plainVariant] at read
    split at read
    · cases read
    · split_ifs at read with keys
      obtain rfl := Except.ok.inj read
      exact keys
  have accepted : parseProfileRequest Unicode.ascii plainVariant
      (.object [("sql".str, .string "SELECT 1".str), ("plans".str, .array [.object [
        ("plan_id".str, .string "index".str),
        ("settings".str, .object [("enable_seqscan".str, .string "off".str)])]])]) =
      some (.ok ⟨"SELECT 1".str, [withoutScans]⟩) := by
    have safe : isSafeSelect Unicode.ascii "SELECT 1".str = some true := by decide +kernel
    rw [parseProfileRequest]
    change (isSafeSelect Unicode.ascii "SELECT 1".str >>= _) = _
    rw [safe]
    rfl
  obtain ⟨sent, configured, -, asked⟩ := explained_as_asked distinct accepted List.mem_cons_self
    ⟨none, fun _ => .ok []⟩ (by decide : readerSettings.retrievalStmtTimeoutMs < 2 ^ 31)
    readerSettings_nameable
  have query : words (cleaned "SELECT 1".str) = [key "SELECT", ⟨.number, ['1']⟩] := by
    decide +kernel
  refine ⟨sent, ?_, ?_⟩
  · rw [configured]
    decide +kernel
  · rw [asked (by decide +kernel) (by rw [query]; decide), query]

end LumidPlatform.Retrieve.Profile
