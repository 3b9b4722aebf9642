import LumidPlatform.Ingest.Gate

/-!
# The advertised write list

A caller is told which tables it can write. The list is made from the rules of its role, one
after the other: a rule for a table gives that table, a rule for a schema the base tables of
that schema, and a rule for everything the base tables of the schemas that were compiled in.
The gate of a write reads the same rules by looking up three keys, and it looks at the scopes
of the caller too. Both say the same of a table where no scope opens more than the rules, and
where everything that a rule for everything opens is in those schemas or has a rule of its own.
-/

namespace LumidPlatform.Ingest.Advertised

/-! ## The list -/

/-- `USER_SCHEMAS`. -/
def userSchemas : List Str := [
  "reference".str, "market".str, "fundamentals".str, "estimates".str, "ownership".str,
  "events".str, "news".str, "regulatory".str, "macro".str, "prediction_markets".str,
  "options".str, "raw".str, "provenance".str, "obs".str]

/-- `is_system_schema`. -/
def isSystemSchema (s : Str) : Bool :=
  "pg_".str.isPrefixOf s || "_timescaledb".str.isPrefixOf s || "timescaledb".str.isPrefixOf s ||
    s == "information_schema".str || s == "public".str

/-- What the list is made from beside the rules: the base tables of Postgres, the notes of the
rules, and the collation that texts are ordered by. -/
structure Catalog where
  baseTables : List TableName
  notes : AclRow → Option Str
  collate : Str → Str → Bool

/-- `ORDER BY` a schema and a table. -/
def collateNames (collate : Str → Str → Bool) (a b : TableName) : Bool :=
  if a.1 = b.1 then collate a.2 b.2 else collate a.1 b.1

inductive RuleSource where
  | wildcard
  | explicit (notes : Option Str)

/-- An entry of the list. -/
structure Entry where
  name : TableName
  ruleSource : RuleSource

def Entry.toJson (entry : Entry) : Json :=
  let url := "/catalog/tables/".str ++ entry.name.1 ++ '/' :: entry.name.2 ++ "/schema.json".str
  .object ([("schema".str, .string entry.name.1), ("table".str, .string entry.name.2)] ++
    (match entry.ruleSource with
      | .wildcard => [("rule_source".str, .string "wildcard".str)]
      | .explicit notes => [("rule_source".str, .string "explicit".str),
          ("notes".str, match notes with | some text => .string text | none => .null)]) ++
    [("schema_url".str, .string url)])

section

variable (catalog : Catalog) (acl : List AclRow)

/-- The rules that let a role write, as they are ordered. -/
def Catalog.rulesOf (role : Str) : List AclRow :=
  (acl.filter (fun rule => rule.role == role && rule.canWrite)).mergeSort (fun a b =>
    collateNames catalog.collate (a.targetSchema, a.targetTable) (b.targetSchema, b.targetTable))

/-- The base tables in a list of schemas. -/
def Catalog.tablesIn (schemas : List Str) : List TableName :=
  (catalog.baseTables.filter (fun name => schemas.contains name.1)).mergeSort
    (collateNames catalog.collate)

/-- What one rule gives. -/
def Catalog.expand (rule : AclRow) : List Entry :=
  if rule.targetSchema = "*".str ∧ rule.targetTable = "*".str then
    (catalog.tablesIn userSchemas).map (fun name => ⟨name, .wildcard⟩)
  else if rule.targetTable = "*".str then
    (catalog.tablesIn [rule.targetSchema]).map (fun name => ⟨name, .wildcard⟩)
  else [⟨(rule.targetSchema, rule.targetTable), .explicit (catalog.notes rule)⟩]

/-- `out.push`, where the pair was not `seen`. -/
def pushNew (out : List Entry) (entry : Entry) : List Entry :=
  if out.any (fun other => other.name == entry.name) then out else out ++ [entry]

/-- `list_writable_for_role`. -/
def listWritableForRole (role : Str) : List Entry :=
  ((catalog.rulesOf acl role).flatMap catalog.expand).foldl pushNew []

/-- `get_writable`. -/
def getWritable (identity : Identity) : Json :=
  let rows := listWritableForRole catalog acl identity.role
  .object [("role".str, .string identity.role), ("sub".str, .string identity.sub),
    ("count".str, .ofNat rows.length), ("tables".str, .array (rows.map Entry.toJson))]

/-- The pairs that are listed. -/
def listed (role : Str) : List TableName :=
  (listWritableForRole catalog acl role).map Entry.name

end

/-! ## The gate -/

variable {deployment : Deployment} {s : State} {identity : Identity} {name : TableName}

/-- What the gate answers when it reads the access list as it is. -/
def gate (deployment : Deployment) (s : State) (identity : Identity) (name : TableName) :
    ApiResult Bool :=
  (gateTarget deployment identity name { s with aclCache := none }).1

/-- The engine that holds a table finds columns of it. -/
def Found (deployment : Deployment) (s : State) (name : TableName) : Prop :=
  (tableMeta deployment name { s with aclCache := none }).1.isSome

/-- One of the three keys of `check_can_write` allows it. -/
def Allowed (acl : List AclRow) (role : Str) (name : TableName) : Prop :=
  rowAllows acl role name.1 name.2 ∨ rowAllows acl role name.1 "*".str ∨
    rowAllows acl role "*".str "*".str

/-- A rule of the role is expanded to the table. -/
def Ruled (acl : List AclRow) (role : Str) (name : TableName) : Prop :=
  (name.2 ≠ "*".str ∧ rowAllows acl role name.1 name.2) ∨
    (name.1 ≠ "*".str ∧ rowAllows acl role name.1 "*".str) ∨
      (name.1 ∈ userSchemas ∧ rowAllows acl role "*".str "*".str)

theorem cacheSnapshot_unread {s : State} (unread : s.aclCache = none) :
    (cacheSnapshot s).1 = s.db.acl := by
  rw [cacheSnapshot, unread]

theorem checkCanWrite_iff {unicode : Unicode} {role : Str} {s : State}
    (unread : s.aclCache = none) :
    (checkCanWrite unicode role name s).1 = .ok () ↔ Allowed s.db.acl role name := by
  rw [checkCanWrite]
  dsimp only
  rw [cacheSnapshot_unread unread, Allowed, ← Bool.or_eq_true, ← Bool.or_eq_true, ← Bool.or_assoc]
  split_ifs with allows
  · simp [allows]
  · simp [allows]

theorem canPropose_iff {role : Str} {s : State} (unread : s.aclCache = none) :
    (canPropose role s).1 = true ↔ ∃ row ∈ s.db.acl, row.role = role ∧ row.canWrite = true := by
  rw [canPropose]
  dsimp only
  rw [cacheSnapshot_unread unread]
  simp

/-- A table that is found is open to the scopes that grant it and to the rules that allow it. -/
theorem gate_found (found : Found deployment s name) :
    gate deployment s identity name = .ok true ∧
        (scopeGrantsWrite identity.scopes name = true ∨ Allowed s.db.acl identity.role name) ∨
      (∃ error, gate deployment s identity name = .error error) ∧
        ¬(scopeGrantsWrite identity.scopes name = true ∨
          Allowed s.db.acl identity.role name) := by
  obtain ⟨sameDb, sameAcl⟩ := @tableMeta_acl deployment name { s with aclCache := none }
  rw [Found] at found
  rw [gate, gateTarget]
  generalize tableMeta deployment name { s with aclCache := none } = looked at *
  obtain ⟨columns, s'⟩ := looked
  obtain ⟨columns, rfl⟩ := Option.isSome_iff_exists.mp found
  dsimp only at sameDb sameAcl ⊢
  have checked := @checkCanWrite_iff name deployment.crates.unicode identity.role s' sameAcl
  rw [sameDb] at checked
  split_ifs with granted
  · exact Or.inl ⟨rfl, Or.inl granted⟩
  · split
    · rename_i s'' allows
      rw [allows] at checked
      exact Or.inl ⟨rfl, Or.inr (checked.mp rfl)⟩
    · rename_i error s'' refuses
      rw [refuses] at checked
      refine Or.inr ⟨⟨error, rfl⟩, fun either => ?_⟩
      rcases either with scope | allowed
      · exact granted scope
      · cases checked.mpr allowed

/-- Where no table is found, a rule of the role lets its caller propose one. -/
theorem gate_unfound (unfound : ¬Found deployment s name) :
    gate deployment s identity name = .ok false ∨
      (∃ error, gate deployment s identity name = .error error) ∧
        ∀ row ∈ s.db.acl, row.role = identity.role → row.canWrite = false := by
  obtain ⟨sameDb, sameAcl⟩ := @tableMeta_acl deployment name { s with aclCache := none }
  rw [Found, Option.not_isSome_iff_eq_none] at unfound
  rw [gate, gateTarget]
  generalize tableMeta deployment name { s with aclCache := none } = looked at *
  obtain ⟨columns, s'⟩ := looked
  dsimp only at unfound sameDb sameAcl ⊢
  subst unfound
  dsimp only
  have may := @canPropose_iff identity.role s' sameAcl
  rw [sameDb] at may
  split
  · exact Or.inl rfl
  · rename_i s'' mayNot
    rw [mayNot] at may
    refine Or.inr ⟨⟨_, rfl⟩, fun row member role => ?_⟩
    by_contra writes
    cases may.mpr ⟨row, member, role, by simpa using writes⟩

/-! ## What is listed -/

variable {catalog : Catalog} {acl : List AclRow} {role : Str}

theorem pushNew_keys (out : List Entry) (entry : Entry) (key : TableName) :
    key ∈ (pushNew out entry).map Entry.name ↔ key ∈ out.map Entry.name ∨ key = entry.name := by
  rw [pushNew]
  split_ifs with seen
  · obtain ⟨other, member, same⟩ := List.any_eq_true.mp seen
    refine ⟨Or.inl, fun either => either.elim id ?_⟩
    rintro rfl
    exact List.mem_map.mpr ⟨other, member, beq_iff_eq.mp same⟩
  · simp

theorem pushNew_nodup {out : List Entry} (nodup : (out.map Entry.name).Nodup) (entry : Entry) :
    ((pushNew out entry).map Entry.name).Nodup := by
  rw [pushNew]
  split_ifs with seen
  · exact nodup
  · rw [List.map_append, List.map_singleton, List.nodup_append]
    refine ⟨nodup, List.nodup_singleton _, ?_⟩
    intro key member other single same
    obtain ⟨earlier, inOut, rfl⟩ := List.mem_map.mp member
    obtain rfl := List.mem_singleton.mp single
    exact seen (List.any_eq_true.mpr ⟨earlier, inOut, beq_iff_eq.mpr same⟩)

/-- All pairs of the entries are kept, each of them once. -/
theorem foldl_pushNew (entries out : List Entry) (nodup : (out.map Entry.name).Nodup) :
    ((entries.foldl pushNew out).map Entry.name).Nodup ∧
      ∀ key, key ∈ (entries.foldl pushNew out).map Entry.name ↔
        key ∈ out.map Entry.name ∨ key ∈ entries.map Entry.name := by
  induction entries generalizing out with
  | nil => simp [nodup]
  | cons entry rest inductionHypothesis =>
    obtain ⟨once, all⟩ := inductionHypothesis (pushNew out entry) (pushNew_nodup nodup entry)
    refine ⟨once, fun key => ?_⟩
    rw [List.foldl_cons, all, pushNew_keys, List.map_cons, List.mem_cons, or_assoc]

theorem mem_tablesIn {schemas : List Str} :
    name ∈ catalog.tablesIn schemas ↔ name ∈ catalog.baseTables ∧ name.1 ∈ schemas := by
  rw [Catalog.tablesIn, List.mem_mergeSort, List.mem_filter, List.contains_iff_mem]

/-- A rule gives its table, the tables of its schema, or those of the compiled-in schemas. -/
theorem mem_expand {rule : AclRow} : name ∈ (catalog.expand rule).map Entry.name ↔
    (rule.targetTable ≠ "*".str ∧ name = (rule.targetSchema, rule.targetTable)) ∨
      (rule.targetTable = "*".str ∧ rule.targetSchema ≠ "*".str ∧ name ∈ catalog.baseTables ∧
        name.1 = rule.targetSchema) ∨
      (rule.targetTable = "*".str ∧ rule.targetSchema = "*".str ∧ name ∈ catalog.baseTables ∧
        name.1 ∈ userSchemas) := by
  have keys (tables : List TableName) (source : RuleSource) :
      (tables.map (fun name => (⟨name, source⟩ : Entry))).map Entry.name = tables := by
    simp [Function.comp_def]
  rw [Catalog.expand]
  by_cases table : rule.targetTable = "*".str <;> by_cases schema : rule.targetSchema = "*".str
  · rw [if_pos ⟨schema, table⟩, keys, mem_tablesIn]
    simp [table, schema]
  · rw [if_neg (fun both => schema both.1), if_pos table, keys, mem_tablesIn]
    simp [table, schema]
  · rw [if_neg (fun both => table both.2), if_neg table]
    simp [table]
  · rw [if_neg (fun both => table both.2), if_neg table]
    simp [table]

theorem mem_rulesOf {rule : AclRow} : rule ∈ catalog.rulesOf acl role ↔
    rule ∈ acl ∧ rule.role = role ∧ rule.canWrite = true := by
  rw [Catalog.rulesOf, List.mem_mergeSort, List.mem_filter, Bool.and_eq_true, beq_iff_eq]

theorem mem_listed : name ∈ listed catalog acl role ↔
    ∃ rule ∈ acl, rule.role = role ∧ rule.canWrite = true ∧
      name ∈ (catalog.expand rule).map Entry.name := by
  rw [listed, listWritableForRole, (foldl_pushNew _ [] List.nodup_nil).2, List.map_flatMap,
    List.mem_flatMap]
  simp only [List.map_nil, List.not_mem_nil, false_or, mem_rulesOf, and_assoc]

theorem rowAllows_iff {schema table : Str} : rowAllows acl role schema table = true ↔
    ∃ rule ∈ acl, rule.role = role ∧ rule.canWrite = true ∧ rule.targetSchema = schema ∧
      rule.targetTable = table := by
  simp only [rowAllows, List.any_eq_true, Bool.and_eq_true, beq_iff_eq]
  refine exists_congr fun rule => and_congr_right fun _ => ?_
  tauto

/-- A base table is listed where a rule is expanded to it. -/
theorem listed_iff_ruled (base : name ∈ catalog.baseTables) :
    name ∈ listed catalog acl role ↔ Ruled acl role name := by
  simp only [mem_listed, mem_expand, Ruled, rowAllows_iff]
  constructor
  · rintro ⟨rule, member, rfl, writes, ⟨concrete, rfl⟩ | ⟨table, schema, -, same⟩ |
      ⟨table, schema, -, known⟩⟩
    · exact Or.inl ⟨concrete, rule, member, rfl, writes, rfl, rfl⟩
    · exact Or.inr (Or.inl ⟨same ▸ schema, rule, member, rfl, writes, same.symm, table⟩)
    · exact Or.inr (Or.inr ⟨known, rule, member, rfl, writes, schema, table⟩)
  · rintro (⟨concrete, rule, member, rfl, writes, schema, table⟩ |
      ⟨schema, rule, member, rfl, writes, same, table⟩ |
      ⟨known, rule, member, rfl, writes, schema, table⟩)
    · refine ⟨rule, member, rfl, writes, Or.inl ⟨table ▸ concrete, ?_⟩⟩
      rw [schema, table]
    · exact ⟨rule, member, rfl, writes, Or.inr (Or.inl ⟨table, same ▸ schema, base, same.symm⟩)⟩
    · exact ⟨rule, member, rfl, writes, Or.inr (Or.inr ⟨table, schema, base, known⟩)⟩

/-- What is listed is allowed, by a rule that lets the role write. -/
theorem allowed_of_listed (member : name ∈ listed catalog acl role) :
    Allowed acl role name ∧ ∃ row ∈ acl, row.role = role ∧ row.canWrite = true := by
  obtain ⟨rule, inAcl, sameRole, writes, expanded⟩ := mem_listed.mp member
  refine ⟨?_, rule, inAcl, sameRole, writes⟩
  simp only [Allowed, rowAllows_iff]
  rcases mem_expand.mp expanded with ⟨-, rfl⟩ | ⟨table, -, -, same⟩ | ⟨table, schema, -, -⟩
  · exact Or.inl ⟨rule, inAcl, sameRole, writes, rfl, rfl⟩
  · exact Or.inr (Or.inl ⟨rule, inAcl, sameRole, writes, same.symm, table⟩)
  · exact Or.inr (Or.inr ⟨rule, inAcl, sameRole, writes, schema, table⟩)

/-- What is allowed is listed, apart from what a rule for everything opens outside of the
compiled-in schemas. -/
theorem ruled_of_allowed (allowed : Allowed acl role name)
    (whole : rowAllows acl role "*".str "*".str = true → Ruled acl role name) :
    Ruled acl role name := by
  obtain ⟨schema, table⟩ := name
  by_cases everything : rowAllows acl role "*".str "*".str = true
  · exact whole everything
  · rcases allowed with own | own | own
    · by_cases star : table = "*".str
      · subst star
        refine Or.inr (Or.inl ⟨?_, own⟩)
        rintro rfl
        exact everything own
      · exact Or.inl ⟨star, own⟩
    · refine Or.inr (Or.inl ⟨?_, own⟩)
      rintro rfl
      exact everything own
    · exact absurd own everything

/-! ## Agreement -/

/-- The list says of the base tables outside of the system schemas which of them the gate opens;
it names nothing that the gate refuses, and nothing twice. -/
structure Enforced (deployment : Deployment) (catalog : Catalog) (s : State)
    (identity : Identity) : Prop where
  exact : ∀ name ∈ catalog.baseTables, isSystemSchema name.1 = false →
    (name ∈ listed catalog s.db.acl identity.role ↔ gate deployment s identity name = .ok true)
  opens : ∀ name ∈ listed catalog s.db.acl identity.role,
    ∀ error, gate deployment s identity name ≠ .error error
  once : (listed catalog s.db.acl identity.role).Nodup

/-- The rules of the role cover what its caller can write: tables with a rule are found by their
engine, and those that a scope or a rule for everything opens have a rule that is expanded to
them. -/
structure Covered (deployment : Deployment) (catalog : Catalog) (s : State)
    (identity : Identity) : Prop where
  held : ∀ name ∈ catalog.baseTables, isSystemSchema name.1 = false →
    Ruled s.db.acl identity.role name → Found deployment s name
  granted : ∀ name ∈ catalog.baseTables, isSystemSchema name.1 = false →
    Found deployment s name → scopeGrantsWrite identity.scopes name = true →
      Ruled s.db.acl identity.role name
  whole : ∀ name ∈ catalog.baseTables, isSystemSchema name.1 = false →
    Found deployment s name → rowAllows s.db.acl identity.role "*".str "*".str = true →
      Ruled s.db.acl identity.role name

/-- No pair that is listed is refused. -/
theorem not_refused (member : name ∈ listed catalog s.db.acl identity.role) (error : ApiError) :
    gate deployment s identity name ≠ .error error := by
  obtain ⟨allowed, row, inAcl, sameRole, writes⟩ := allowed_of_listed member
  intro refused
  by_cases found : Found deployment s name
  · rcases @gate_found deployment s identity name found with ⟨admits, -⟩ | ⟨-, closed⟩
    · rw [refused] at admits
      cases admits
    · exact closed (Or.inr allowed)
  · rcases @gate_unfound deployment s identity name found with proposes | ⟨-, idle⟩
    · rw [refused] at proposes
      cases proposes
    · rw [idle row inAcl sameRole] at writes
      cases writes

/-- The gate admits a write to a table that is found, under a scope or a rule. -/
theorem admits_iff : gate deployment s identity name = .ok true ↔ Found deployment s name ∧
    (scopeGrantsWrite identity.scopes name = true ∨ Allowed s.db.acl identity.role name) := by
  by_cases found : Found deployment s name
  · rcases @gate_found deployment s identity name found with
      ⟨admits, opened⟩ | ⟨⟨error, refused⟩, closed⟩
    · exact iff_of_true admits ⟨found, opened⟩
    · refine iff_of_false ?_ (fun both => closed both.2)
      rw [refused]
      simp
  · refine iff_of_false ?_ (fun both => found both.1)
    rcases @gate_unfound deployment s identity name found with proposes | ⟨⟨error, refused⟩, -⟩
    · rw [proposes]
      simp
    · rw [refused]
      simp

/-- The advertised list is the enforced one exactly where the rules of the role cover what its
caller can write. -/
theorem enforced_iff_covered (deployment : Deployment) (catalog : Catalog) (s : State)
    (identity : Identity) : Enforced deployment catalog s identity ↔
      Covered deployment catalog s identity := by
  constructor
  · intro enforced
    have ruled {name : TableName} (base : name ∈ catalog.baseTables)
        (user : isSystemSchema name.1 = false) : Ruled s.db.acl identity.role name ↔
          Found deployment s name ∧ (scopeGrantsWrite identity.scopes name = true ∨
            Allowed s.db.acl identity.role name) := by
      rw [← listed_iff_ruled base, enforced.exact name base user, admits_iff]
    refine ⟨fun name base user opened => ?_, fun name base user found scope => ?_,
      fun name base user found everything => ?_⟩
    · exact ((ruled base user).mp opened).1
    · exact (ruled base user).mpr ⟨found, Or.inl scope⟩
    · exact (ruled base user).mpr ⟨found, Or.inr (Or.inr (Or.inr everything))⟩
  · intro covered
    refine ⟨fun name base user => ?_, fun name member error => not_refused member error,
      (foldl_pushNew _ [] List.nodup_nil).1⟩
    rw [admits_iff]
    constructor
    · intro member
      exact ⟨covered.held name base user ((listed_iff_ruled base).mp member),
        Or.inr (allowed_of_listed member).1⟩
    · rintro ⟨found, scope | allowed⟩
      · exact (listed_iff_ruled base).mpr (covered.granted name base user found scope)
      · apply (listed_iff_ruled base).mpr
        exact ruled_of_allowed allowed (covered.whole name base user found)

/-- A database with one table that has one column, and with a list of rules. -/
def oneTable (only : TableName) (acl : List AclRow) : State where
  db := ⟨fun name => if name = only then some ["v".str] else none, fun _ => none, fun _ => none,
    acl, []⟩
  resolveCache _ := none
  metaCache _ := none
  aclCache := none

/-- The catalogue of that database, ordered by the bytes of the texts. -/
def oneTableCatalog (only : TableName) : Catalog := ⟨[only], fun _ => none, Text.le⟩

/-- Whether the only table of a database is listed, and whether a write to it is admitted. -/
def observed (only : TableName) (acl : List AclRow) (identity : Identity) : Bool × Bool :=
  ((listed (oneTableCatalog only) acl identity.role).contains only,
    match gate ⟨Crates.plain, false⟩ (oneTable only acl) identity only with
    | .ok found => found
    | .error _ => false)

/-- A table that is admitted and not listed. -/
theorem not_enforced {only : TableName} {acl : List AclRow} {identity : Identity}
    (user : isSystemSchema only.1 = false) (missed : observed only acl identity = (false, true)) :
    ¬Enforced ⟨Crates.plain, false⟩ (oneTableCatalog only) (oneTable only acl) identity := by
  intro enforced
  obtain ⟨unlisted, admitted⟩ := Prod.mk.inj missed
  have admits : gate ⟨Crates.plain, false⟩ (oneTable only acl) identity only = .ok true := by
    split at admitted
    · rename_i found answered
      rw [answered, admitted]
    · cases admitted
  rw [← Bool.not_eq_true, List.contains_iff_mem] at unlisted
  exact unlisted ((enforced.exact only (List.mem_singleton_self _) user).mpr admits)

/-- A caller with the scope for the mailbox, and one whose role may write everywhere, can write
a table that neither is shown. -/
theorem inbox_unlisted :
    ¬Enforced ⟨Crates.plain, false⟩ (oneTableCatalog ("mailbox".str, "lqt_inbox".str))
        (oneTable ("mailbox".str, "lqt_inbox".str) [])
        ⟨"ann".str, "trader".str, ["lqt:trading".str]⟩ ∧
      ¬Enforced ⟨Crates.plain, false⟩ (oneTableCatalog ("mailbox".str, "lqt_inbox".str))
        (oneTable ("mailbox".str, "lqt_inbox".str) [⟨"admin".str, "*".str, "*".str, true⟩])
        ⟨"eve".str, "admin".str, []⟩ :=
  ⟨not_enforced (by decide +kernel) (by decide +kernel),
    not_enforced (by decide +kernel) (by decide +kernel)⟩

end LumidPlatform.Ingest.Advertised
