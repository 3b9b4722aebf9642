import LumidPlatform.Ingest.Created
import LumidPlatform.Lib.SqlTables

/-!
# The text that creates a table

An approval sends Postgres the text of a `CREATE TABLE`, put together from names and types that
came out of a negotiation. Read as SQL it is one statement, and what it defines is the table of
the model above: no name ends its quotes and no type says more than a type.
-/

namespace LumidPlatform.Ingest

open LumidPlatform.Write LumidPlatform.Write.Engine SqlLexer

variable {deployment : Deployment} {unicode : Unicode}

/-! ## The text -/

/-- `build_create_table_ddl`: the normal names, and the text. -/
def buildCreateTableDdl (unicode : Unicode) (p : Proposal) : ApiResult (Str × Str × Str) := do
  match normIdent unicode p.declaredSchema, normIdent unicode p.declaredTable with
  | none, _ => .error (.badRequest "bad schema".str)
  | some _, none => .error (.badRequest "bad table".str)
  | some schemaN, some tableN =>
    let colDdl ← p.inferredSchema.mapM (fun entry =>
      match normIdent unicode entry.1 with
      | none => .error (.badRequest ("bad column ".str ++ unicode.debug entry.1))
      | some cN =>
        let ts := entry.2.asStr?.getD "text".str
        let tyS := if allowedTypes.contains ts then ts else "text".str
        .ok ("\"".str ++ cN ++ "\" ".str ++ tyS))
    let keyN := (p.inferredKey.filterMap (normIdent unicode)).filter
      (fun k => (JsonMap.get p.inferredSchema k).isSome)
    let pk :=
      if keyN.isEmpty then "  id bigint GENERATED ALWAYS AS IDENTITY PRIMARY KEY,\n".str else []
    let pkConstraint :=
      if keyN.isEmpty then []
      else ",\n  PRIMARY KEY (".str ++
        Text.join ", ".str ((keyN ++ ["source".str]).map (fun c => "\"".str ++ c ++ "\"".str)) ++
        ")".str
    .ok (schemaN, tableN,
      "CREATE TABLE IF NOT EXISTS \"".str ++ schemaN ++ "\".\"".str ++ tableN ++ "\" (\n".str ++
        pk ++ "  ".str ++ Text.join ",\n  ".str colDdl ++
        ",\nsource text NOT NULL,\n  source_endpoint text NOT NULL,\n".str ++
        "source_run_id uuid NOT NULL REFERENCES provenance.runs(run_id),\n".str ++
        "ingest_ts timestamptz NOT NULL DEFAULT now(),\n  raw jsonb".str ++ pkConstraint ++
        "\n)".str)

/-! ## What a definition creates -/

section

variable (definition : TableDefinition)

/-- The columns of the primary key, declared with one of them or after them. -/
def keyOf : List Str :=
  definition.elements.flatMap (fun element =>
    match element with
    | .primaryKey columns => columns
    | .column name _ limits => if limits.contains .primaryKey then [name] else [])

/-- A column of the definition in the catalogue of Postgres. -/
def catalogued : Element → Option TableColumn
  | .primaryKey _ => none
  | .column name type limits => some {
      name
      dataType := dataTypeOf ([' '].intercalate type)
      isNullable := !(limits.contains .notNull || (keyOf definition).contains name)
      hasDefault := limits.any (fun limit =>
        match limit with
        | .default _ => true
        | _ => false)
      isGenerated := false
      identityGeneration := if limits.contains .identityAlways then some .always else none }

/-- The table that Postgres creates for a definition in which no constraint has a name. -/
def catalogueOf : PgTable where
  columns := definition.elements.filterMap (catalogued definition)
  usages := (keyOf definition).map
    (fun name => ⟨name, "PRIMARY KEY".str, definition.name ++ "_pkey".str⟩)

end

/-! ## What the text says -/

/-- The columns of the provenance as they are defined. -/
def provenanceElements : List Element := [
  .column "source".str ["text".str] [.notNull],
  .column "source_endpoint".str ["text".str] [.notNull],
  .column "source_run_id".str ["uuid".str]
    [.notNull, .references "provenance".str "runs".str "run_id".str],
  .column "ingest_ts".str ["timestamptz".str] [.notNull, .default "now".str],
  .column "raw".str ["jsonb".str] []]

/-- What the text for columns and a key should define. -/
def elementsOf (columns : List (Str × Str)) (key : List Str) : List Element :=
  (if key = [] then [.column "id".str ["bigint".str] [.identityAlways, .primaryKey]] else []) ++
    columns.map (fun column => .column column.1 (column.2.splitOn ' ') []) ++
    provenanceElements ++
    (if key = [] then [] else [.primaryKey (key ++ ["source".str])])

/-- The tokens of the provenance columns. -/
def provenanceParts : List (List Token) := [
  phrase "source text not null",
  phrase "source_endpoint text not null",
  phrase "source_run_id uuid not null references provenance.runs(run_id)",
  phrase "ingest_ts timestamptz not null default now()",
  phrase "raw jsonb"]

/-- The tokens of the parts of the text. -/
def partsOf (columns : List (Str × Str)) (key : List Str) : List (List Token) :=
  (if key = [] then [phrase "id bigint generated always as identity primary key"] else []) ++
    columns.map (fun column => .quoted column.1 :: spelled column.2) ++
    provenanceParts ++
    (if key = [] then []
    else [phrase "primary key" ++ opening :: ([comma].intercalate
      ((key ++ ["source".str]).map (fun name => [.quoted name])) ++ [closing])])

/-- An allowed type is plain names, none of which begins a constraint. -/
theorem spelled_type {ty : Str} (allowed : ty ∈ allowedTypes) :
    ty.all tame = true ∧ spelled ty = (ty.splitOn ' ').map Token.plain ∧
      ∀ word ∈ ty.splitOn ' ', startsConstraint (.plain word) = false := by
  have checked : allowedTypes.all (fun ty => ty.all tame &&
      (spelled ty == (ty.splitOn ' ').map Token.plain) &&
      (ty.splitOn ' ').all (fun word => !startsConstraint (.plain word))) = true := by
    decide +kernel
  have each := List.all_eq_true.mp checked ty allowed
  rw [Bool.and_eq_true, Bool.and_eq_true, beq_iff_eq] at each
  refine ⟨each.1.1, each.1.2, fun word member => ?_⟩
  rw [← Bool.not_eq_true']
  exact List.all_eq_true.mp each.2 word member

theorem parts_read {columns : List (Str × Str)} (allowed : ∀ column ∈ columns,
    column.2 ∈ allowedTypes) (key : List Str) :
    List.Forall₂ Part (partsOf columns key) (elementsOf columns key) := by
  have surrogate : List.Forall₂ Part
      (if key = [] then [phrase "id bigint generated always as identity primary key"] else [])
      (if key = [] then [.column "id".str ["bigint".str] [.identityAlways, .primaryKey]]
        else []) := by
    unfold phrase
    rw [String.toList_ofList]
    split_ifs
    · exact .cons ⟨by decide +kernel, by decide +kernel, by decide +kernel⟩ .nil
    · exact .nil
  have negotiated : List.Forall₂ Part
      (columns.map (fun column => .quoted column.1 :: spelled column.2))
      (columns.map (fun column => .column column.1 (column.2.splitOn ' ') [])) := by
    rw [List.forall₂_map_left_iff, List.forall₂_map_right_iff, List.forall₂_same]
    intro column member
    obtain ⟨-, plain, free⟩ := spelled_type (allowed column member)
    rw [plain]
    exact part_column (List.splitOn_ne_nil _ _) free
  have provenance : List.Forall₂ Part provenanceParts provenanceElements := by
    unfold provenanceParts phrase
    repeat rw [String.toList_ofList]
    exact
      .cons ⟨by decide +kernel, by decide +kernel, by decide +kernel⟩ <|
      .cons ⟨by decide +kernel, by decide +kernel, by decide +kernel⟩ <|
      .cons ⟨by decide +kernel, by decide +kernel, by decide +kernel⟩ <|
      .cons ⟨by decide +kernel, by decide +kernel, by decide +kernel⟩ <|
      .cons ⟨by decide +kernel, by decide +kernel, by decide +kernel⟩ .nil
  have constraint : List.Forall₂ Part
      (if key = [] then []
      else [phrase "primary key" ++ opening :: ([comma].intercalate
        ((key ++ ["source".str]).map (fun name => [.quoted name])) ++ [closing])])
      (if key = [] then [] else [.primaryKey (key ++ ["source".str])]) := by
    split_ifs
    · exact .nil
    · exact .cons (part_primaryKey (List.concat_ne_nil _ _)) .nil
  exact List.rel_append (List.rel_append (List.rel_append surrogate negotiated) provenance)
    constraint

/-! ## How the text is read -/

/-- A column in the text. -/
def columnText (column : Str × Str) : Str := quoteName column.1 ++ ' ' :: column.2

/-- The text with its names quoted. -/
def statementText (schema table : Str) (columns : List (Str × Str)) (key : List Str) : Str :=
  "CREATE TABLE IF NOT EXISTS ".str ++ (quoteName schema ++ (".".str ++ (quoteName table ++
    (" (\n".str ++
      ((if key = [] then "  id bigint GENERATED ALWAYS AS IDENTITY PRIMARY KEY,\n".str else []) ++
      ("  ".str ++ (Text.join ",\n  ".str (columns.map columnText) ++
      (",\nsource text NOT NULL,\n  source_endpoint text NOT NULL,\n".str ++
        ("source_run_id uuid NOT NULL REFERENCES provenance.runs(run_id),\n".str ++
        ("ingest_ts timestamptz NOT NULL DEFAULT now(),\n  raw jsonb".str ++
      ((if key = [] then []
        else ",\n  PRIMARY KEY (".str ++
          (Text.join ", ".str ((key ++ ["source".str]).map quoteName) ++ ")".str)) ++
      "\n)".str)))))))))))

theorem quoteName_normal {name : Str} (normal : Normal unicode name) :
    quoteName name = "\"".str ++ name ++ "\"".str := by
  have letters : ∀ c ∈ name, isIdentChar c = true := by
    rw [Normal, normIdent] at normal
    split_ifs at normal with checked
    have same := Option.some.inj normal
    simp only [same, Bool.and_eq_true, List.all_eq_true] at checked
    exact checked.2
  have undoubled : doubled name = name := by
    calc doubled name
        = name.flatMap (fun c => [c]) := by
          apply List.flatMap_congr
          intro c member
          have plain : c ≠ '"' := by
            rintro rfl
            exact absurd (letters '"' member) (by decide)
          exact if_neg plain
      _ = name := List.flatMap_singleton' name
  rw [quoteName, undoubled]
  rfl

/-- The text for a clean proposal. -/
theorem buildCreateTableDdl_eq {p : Proposal} (clean : Clean unicode p)
    (schema : Normal unicode p.declaredSchema) (table : Normal unicode p.declaredTable) :
    buildCreateTableDdl unicode p = .ok (p.declaredSchema, p.declaredTable,
      statementText p.declaredSchema p.declaredTable (p.inferredSchema.map typed)
        p.inferredKey) := by
  have columns : p.inferredSchema.mapM (fun entry : Str × Json =>
        (match normIdent unicode entry.1 with
        | none => .error (.badRequest ("bad column ".str ++ unicode.debug entry.1))
        | some cN =>
          let ts := entry.2.asStr?.getD "text".str
          let tyS := if allowedTypes.contains ts then ts else "text".str
          .ok ("\"".str ++ cN ++ "\" ".str ++ tyS) : ApiResult Str)) =
      .ok (p.inferredSchema.map (columnText ∘ typed)) := by
    apply mapM_eq_ok
    intro entry member
    have normal := (clean.names entry.1 (List.mem_map_of_mem member)).1
    have quoteSpace : "\" ".str = "\"".str ++ " ".str := by decide
    rw [normal]
    dsimp only
    rw [Function.comp_apply, columnText, typed, quoteName_normal normal, quoteSpace,
      List.append_assoc, List.append_assoc, List.append_assoc, List.append_assoc,
      List.append_assoc]
    rfl
  rw [buildCreateTableDdl, schema, table]
  refine ApiResult.bind_eq_ok.mpr ⟨_, columns, ?_⟩
  have key : (p.inferredKey ++ ["source".str]).map (fun c => "\"".str ++ c ++ "\"".str) =
      (p.inferredKey ++ ["source".str]).map quoteName := by
    apply List.map_congr_left
    intro name member
    rcases List.mem_append.mp member with inKey | isSource
    · exact (quoteName_normal (clean.names name (clean.key name inKey)).1).symm
    · obtain rfl := List.mem_singleton.mp isSource
      decide
  have create : "CREATE TABLE IF NOT EXISTS \"".str =
      "CREATE TABLE IF NOT EXISTS ".str ++ "\"".str := by decide
  have dot : "\".\"".str = "\"".str ++ (".".str ++ "\"".str) := by decide
  have body : "\" (\n".str = "\"".str ++ " (\n".str := by decide
  rw [clean.key_normal]
  dsimp only
  rw [key, statementText, quoteName_normal schema, quoteName_normal table, create,
    dot, body]
  simp only [List.isEmpty_iff, List.append_assoc, List.map_map]

theorem prints_column {column : Str × Str} (allowed : column.2 ∈ allowedTypes) :
    Prints (columnText column) (.quoted column.1 :: spelled column.2) := by
  intro tail stop
  have tamed : (' ' :: column.2).all tame = true := by
    rw [List.all_cons, (spelled_type allowed).1]
    rfl
  have spaced : spelled (' ' :: column.2) = spelled column.2 := by
    rw [spelled, words_space (by decide)]
    rfl
  rw [columnText, List.append_assoc, spelled_quoteName _ (by rintro c ⟨⟩; decide),
    prints_part tamed tail stop, spaced]
  rfl

/-- The end of the text, with the key. -/
theorem spelled_key (key : List Str) :
    spelled ((if key = [] then [] else ",\n  PRIMARY KEY (".str ++
        (Text.join ", ".str ((key ++ ["source".str]).map quoteName) ++ ")".str)) ++ "\n)".str) =
      (if key = [] then [] else comma :: (phrase "primary key" ++ opening :: ([comma].intercalate
        ((key ++ ["source".str]).map (fun name => [.quoted name])) ++ [closing]))) ++
        [closing] := by
  have last : spelled "\n)".str = [closing] := by decide +kernel
  split_ifs
  · exact last
  · have front : spelled ",\n  PRIMARY KEY (".str =
        comma :: (phrase "primary key" ++ [opening]) := by
      decide +kernel
    have close : spelled (")".str ++ "\n)".str) = [closing, closing] := by decide +kernel
    have listed : Prints (Text.join ", ".str ((key ++ ["source".str]).map quoteName))
        ([comma].intercalate ((key ++ ["source".str]).map (fun name => [.quoted name]))) :=
      Prints.join (show [' '].all isSpace = true by decide) fun name _ => prints_quoteName name
    rw [List.append_assoc, List.append_assoc,
      spelled_fixed (by decide +kernel) (by decide +kernel), front,
      listed _ (by rintro c ⟨⟩; decide), close]
    simp

/-- The tokens of the parts, in the order of the text. -/
theorem intercalate_partsOf {columns : List (Str × Str)} (something : columns ≠ [])
    (key : List Str) :
    [comma].intercalate (partsOf columns key) =
      (if key = [] then phrase "id bigint generated always as identity primary key" ++ [comma]
        else []) ++
      ([comma].intercalate (columns.map (fun column => .quoted column.1 :: spelled column.2)) ++
      (comma :: [comma].intercalate provenanceParts ++
      (if key = [] then [] else comma :: (phrase "primary key" ++ opening :: ([comma].intercalate
        ((key ++ ["source".str]).map (fun name => [.quoted name])) ++ [closing])))) ) := by
  have filled : columns.map (fun column => Token.quoted column.1 :: spelled column.2) ≠ [] := by
    rwa [ne_eq, List.map_eq_nil_iff]
  have provided : provenanceParts ≠ [] := List.cons_ne_nil _ _
  rw [partsOf]
  split_ifs
  · rw [List.append_nil, List.append_assoc,
      intercalate_append (List.cons_ne_nil _ _) (List.append_ne_nil_of_left_ne_nil filled _),
      intercalate_append filled provided, List.intercalate_singleton]
    simp
  · rw [List.nil_append, intercalate_append (List.append_ne_nil_of_left_ne_nil filled _)
      (List.cons_ne_nil _ _), intercalate_append filled provided, List.intercalate_singleton]
    simp

/-- The text has the tokens of its parts. -/
theorem spelled_statementText {schema table : Str} {columns : List (Str × Str)}
    (something : columns ≠ []) (allowed : ∀ column ∈ columns, column.2 ∈ allowedTypes)
    (key : List Str) :
    spelled (statementText schema table columns key) = phrase "create table if not exists" ++
      .quoted schema :: .mark ['.'] :: .quoted table :: opening ::
        ([comma].intercalate (partsOf columns key) ++ [closing]) := by
  have header : spelled "CREATE TABLE IF NOT EXISTS ".str =
      phrase "create table if not exists" := by
    rw [String.str_ofList, phrase, String.toList_ofList]
    decide +kernel
  have dot (tail : Str) :
      spelled (".".str ++ (quoteName table ++ tail)) =
        .mark ['.'] :: spelled (quoteName table ++ tail) := by
    have read : spelled ".".str = [.mark ['.']] := by decide +kernel
    have stop : ∀ c ∈ (quoteName table ++ tail).head?, continuesName c = false ∧ c ≠ '\'' := by
      rintro c ⟨⟩
      decide
    rw [spelled_part (List.all_eq_true.mp (by decide +kernel)) (Or.inr stop), read]
    rfl
  have body : spelled " (\n".str = [opening] := by decide +kernel
  have indent : spelled "  ".str = [] := by decide +kernel
  have surrogate (tail : Str) : spelled ((if key = [] then
        "  id bigint GENERATED ALWAYS AS IDENTITY PRIMARY KEY,\n".str else []) ++ tail) =
      (if key = [] then phrase "id bigint generated always as identity primary key" ++ [comma]
        else []) ++ spelled tail := by
    have read : spelled "  id bigint GENERATED ALWAYS AS IDENTITY PRIMARY KEY,\n".str =
        phrase "id bigint generated always as identity primary key" ++ [comma] := by
      rw [String.str_ofList, phrase, String.toList_ofList]
      decide +kernel
    split_ifs
    · rw [spelled_fixed (by decide +kernel) (by decide +kernel), read]
    · rfl
  have listed : Prints (Text.join ",\n  ".str (columns.map columnText)) ([comma].intercalate
      (columns.map (fun column => .quoted column.1 :: spelled column.2))) :=
    Prints.join (show "\n  ".str.all isSpace = true by decide +kernel)
      fun column member => prints_column (allowed column member)
  have provenance (tail : Str) (stop : ∀ c ∈ tail.head?, c ∈ stops) :
      spelled (",\nsource text NOT NULL,\n  source_endpoint text NOT NULL,\n".str ++
        ("source_run_id uuid NOT NULL REFERENCES provenance.runs(run_id),\n".str ++
        ("ingest_ts timestamptz NOT NULL DEFAULT now(),\n  raw jsonb".str ++ tail))) =
      comma :: [comma].intercalate provenanceParts ++ spelled tail := by
    have read : spelled ",\nsource text NOT NULL,\n  source_endpoint text NOT NULL,\n".str ++
        (spelled "source_run_id uuid NOT NULL REFERENCES provenance.runs(run_id),\n".str ++
        spelled "ingest_ts timestamptz NOT NULL DEFAULT now(),\n  raw jsonb".str) =
        comma :: [comma].intercalate provenanceParts := by
      unfold provenanceParts phrase
      repeat rw [String.str_ofList]
      repeat rw [String.toList_ofList]
      decide +kernel
    rw [spelled_fixed (by decide +kernel) (by decide +kernel),
      spelled_fixed (by decide +kernel) (by decide +kernel),
      prints_part (by decide +kernel) tail stop, ← List.append_assoc,
      ← List.append_assoc, List.append_assoc (spelled _), read]
  have ending : ∀ c ∈ ((if key = [] then [] else ",\n  PRIMARY KEY (".str ++
      (Text.join ", ".str ((key ++ ["source".str]).map quoteName) ++ ")".str)) ++
      "\n)".str).head?, c ∈ stops := by
    split_ifs
    · rintro c ⟨⟩
      decide
    · rintro c ⟨⟩
      decide
  rw [statementText, spelled_fixed (by decide +kernel) (by decide +kernel), header,
    spelled_quoteName _ (by rintro c ⟨⟩; decide), dot,
    spelled_quoteName _ (by rintro c ⟨⟩; decide),
    spelled_fixed (by decide +kernel) (by decide +kernel), body, surrogate,
    spelled_fixed (by decide +kernel) (by decide +kernel), indent,
    listed _ (by rintro c ⟨⟩; decide), provenance _ ending, spelled_key,
    intercalate_partsOf something]
  simp only [List.append_assoc, List.cons_append, List.nil_append]

/-! ## The table that the text creates -/

theorem validate_columns_ne_nil {columns : Json} {key : List Str} {result : JsonMap × List Str}
    (validated : validate unicode columns key = .ok result) : result.1 ≠ [] := by
  rw [validate] at validated
  split at validated
  · cases validated
  · dsimp only at validated
    split_ifs at validated with empty
    obtain rfl := Except.ok.inj validated
    exact fun none => empty (List.isEmpty_iff.mpr none)

/-- A negotiated schema has a column. -/
theorem Negotiated.columns_ne_nil {p : Proposal} (negotiated : Negotiated deployment p) :
    p.inferredSchema ≠ [] := by
  induction negotiated with
  | created made appended =>
    obtain ⟨-, -, -, -, names⟩ := create_clean made appended
    rw [create] at made
    dsimp only at made
    split at made
    · cases made
    · cases made
    · split_ifs at made with empty
      intro none
      rw [none, List.map_nil, eq_comm, List.map_eq_nil_iff] at names
      rw [names] at empty
      exact empty rfl
  | countered earlier row validated made row' inductionHypothesis =>
    rcases counter_row row validated made row' with rfl | ⟨columns, key, result, valid, rfl⟩
    · exact inductionHypothesis
    · exact validate_columns_ne_nil valid

theorem keyOf_elementsOf (schema table : Str) (columns : List (Str × Str)) (key : List Str) :
    keyOf ⟨schema, table, elementsOf columns key⟩ =
      if key = [] then ["id".str] else key ++ ["source".str] := by
  have negotiated : (columns.map (fun column =>
      Element.column column.1 (column.2.splitOn ' ') [])).flatMap (fun element =>
        match element with
        | .primaryKey columns => columns
        | .column name _ limits => if limits.contains .primaryKey then [name] else []) = [] := by
    rw [List.flatMap_eq_nil_iff]
    intro element member
    obtain ⟨column, -, rfl⟩ := List.mem_map.mp member
    rfl
  rw [keyOf, elementsOf]
  simp only [List.flatMap_append]
  rw [negotiated]
  split_ifs
  · rfl
  · simp [provenanceElements]

/-- The provenance that the statement requires. -/
def requiredCols : List Str :=
  ["source".str, "source_endpoint".str, "source_run_id".str, "ingest_ts".str]

/-- A column without constraints is in the catalogue as that of the statement. -/
theorem catalogued_plain {definition : TableDefinition} {ddl : CreateTable}
    (key : keyOf definition = ddl.primaryKey) {name type : Str} (free : name ∉ requiredCols) :
    catalogued definition (.column name (type.splitOn ' ') []) =
      some (ddl.column (name, type)) := by
  have optional : (ddl.primaryKey ++ requiredCols).contains name =
      ddl.primaryKey.contains name := by
    rw [Bool.eq_iff_iff, List.contains_iff_mem, List.contains_iff_mem, List.mem_append,
      or_iff_left free]
  have noDefault : (name == "ingest_ts".str) = false := by
    rw [beq_eq_false_iff_ne]
    intro same
    exact free (same ▸ by decide)
  have joined : [' '].intercalate (type.splitOn ' ') = type := List.intercalate_splitOn ' '
  rw [requiredCols] at optional
  rw [catalogued, CreateTable.column, optional, noDefault, key, joined]
  rfl

/-- So is a required column of the provenance. -/
theorem catalogued_required {definition : TableDefinition} {ddl : CreateTable} {name type : Str}
    {limits : List Constraint} (required : name ∈ requiredCols)
    (notNull : limits.contains .notNull = true)
    (default : limits.any (fun limit =>
      match limit with
      | .default _ => true
      | _ => false) = (name == "ingest_ts".str))
    (plain : limits.contains .identityAlways = false) :
    catalogued definition (.column name [type] limits) = some (ddl.column (name, type)) := by
  have inKey : (ddl.primaryKey ++ requiredCols).contains name = true :=
    List.contains_iff_mem.mpr (List.mem_append_right _ required)
  rw [requiredCols] at inKey
  rw [catalogued, CreateTable.column, inKey, notNull, default, plain, List.intercalate_singleton]
  rfl

/-- The definition for a clean proposal is in the catalogue as the statement of the model. -/
theorem catalogueOf_elementsOf {p : Proposal} (clean : Clean unicode p) {ddl : CreateTable}
    (columns : ddl.columns = p.inferredSchema.map typed ++
      [("source".str, "text".str), ("source_endpoint".str, "text".str),
        ("source_run_id".str, "uuid".str), ("ingest_ts".str, "timestamptz".str),
        ("raw".str, "jsonb".str)])
    (primaryKey : ddl.primaryKey =
      if p.inferredKey = [] then ["id".str] else p.inferredKey ++ ["source".str]) :
    catalogueOf ⟨ddl.schema, ddl.table, elementsOf (p.inferredSchema.map typed) p.inferredKey⟩ =
      ddl.pgTable := by
  have key := (keyOf_elementsOf ddl.schema ddl.table (p.inferredSchema.map typed)
    p.inferredKey).trans primaryKey.symm
  generalize same : (⟨ddl.schema, ddl.table, elementsOf (p.inferredSchema.map typed)
    p.inferredKey⟩ : TableDefinition) = definition at key ⊢
  have elements : definition.elements = elementsOf (p.inferredSchema.map typed) p.inferredKey := by
    rw [← same]
  have named : definition.name = ddl.table := by rw [← same]
  have surrogate : (if p.inferredKey = [] then
        [Element.column "id".str ["bigint".str] [.identityAlways, .primaryKey]]
        else []).filterMap (catalogued definition) =
      if ddl.primaryKey = ["id".str] then [surrogateId] else [] := by
    by_cases keyless : p.inferredKey = []
    · rw [if_pos keyless] at primaryKey ⊢
      have read : catalogued definition
          (.column "id".str ["bigint".str] [.identityAlways, .primaryKey]) = some surrogateId := by
        rw [catalogued, key, primaryKey]
        decide +kernel
      rw [if_pos primaryKey, List.filterMap_cons_some read, List.filterMap_nil]
    · rw [if_neg keyless] at primaryKey ⊢
      have other : ddl.primaryKey ≠ ["id".str] := by
        intro single
        rw [primaryKey] at single
        have last := congrArg List.getLast? single
        rw [List.getLast?_concat] at last
        exact absurd last (by decide)
      rw [if_neg other]
      rfl
  have negotiated : ((p.inferredSchema.map typed).map (fun column =>
        Element.column column.1 (column.2.splitOn ' ') [])).filterMap (catalogued definition) =
      (p.inferredSchema.map typed).map ddl.column := by
    have each : ∀ column ∈ p.inferredSchema.map typed, catalogued definition
        (.column column.1 (column.2.splitOn ' ') []) = some (ddl.column column) := by
      intro column member
      obtain ⟨entry, inSchema, rfl⟩ := List.mem_map.mp member
      have free := (clean.names entry.1 (List.mem_map_of_mem inSchema)).2
      have inside : requiredCols ⊆ provenanceCols := by decide
      exact catalogued_plain key fun required => free (inside required)
    rw [List.filterMap_map]
    exact (List.filterMap_congr each).trans (congrFun List.filterMap_eq_map' _)
  have provenance : provenanceElements.filterMap (catalogued definition) =
      [("source".str, "text".str), ("source_endpoint".str, "text".str),
        ("source_run_id".str, "uuid".str), ("ingest_ts".str, "timestamptz".str),
        ("raw".str, "jsonb".str)].map ddl.column := by
    have unspaced : "jsonb".str.splitOn ' ' = ["jsonb".str] := by decide
    have free : "raw".str ∉ requiredCols := by decide
    have raw : catalogued definition (.column "raw".str ["jsonb".str] []) =
        some (ddl.column ("raw".str, "jsonb".str)) := unspaced ▸ catalogued_plain key free
    rw [provenanceElements,
      List.filterMap_cons_some (catalogued_required (by decide) rfl (by decide) rfl),
      List.filterMap_cons_some (catalogued_required (by decide) rfl (by decide) rfl),
      List.filterMap_cons_some (catalogued_required (by decide) rfl (by decide) rfl),
      List.filterMap_cons_some (catalogued_required (by decide) rfl (by decide) rfl),
      List.filterMap_cons_some raw]
    rfl
  have constraint : (if p.inferredKey = [] then []
      else [Element.primaryKey (p.inferredKey ++ ["source".str])]).filterMap
        (catalogued definition) = [] := by
    split_ifs <;> rfl
  rw [catalogueOf, CreateTable.pgTable, elements, elementsOf, List.filterMap_append,
    List.filterMap_append, List.filterMap_append, surrogate, negotiated, provenance, constraint,
    List.append_nil, List.append_assoc, ← List.map_append, ← columns, key, named]

/-- The text that an approval sends is one statement. Read as SQL, it defines the table of the
negotiated names, with the columns, types, defaults and the primary key of the model. -/
theorem created_as_text {p : Proposal} (negotiated : Negotiated deployment p) :
    ∃ ddl text definition, buildCreateTable deployment.crates.unicode p = .ok ddl ∧
      buildCreateTableDdl deployment.crates.unicode p =
        .ok (p.declaredSchema, p.declaredTable, text) ∧
      statements text = [words text] ∧ tableDefinition (words text) = some definition ∧
      (definition.schema, definition.name) = p.target ∧ catalogueOf definition = ddl.pgTable := by
  obtain ⟨clean, schema, table⟩ := negotiated.clean
  have something : p.inferredSchema.map typed ≠ [] := by
    rw [ne_eq, List.map_eq_nil_iff]
    exact negotiated.columns_ne_nil
  have allowed : ∀ column ∈ p.inferredSchema.map typed, column.2 ∈ allowedTypes := by
    intro column member
    obtain ⟨entry, -, rfl⟩ := List.mem_map.mp member
    rw [typed]
    dsimp only
    split_ifs with inList
    · exact List.contains_iff_mem.mp inList
    · exact List.mem_cons_self
  have parts : partsOf (p.inferredSchema.map typed) p.inferredKey ≠ [] := by
    simp [partsOf, provenanceParts]
  obtain ⟨defined, single⟩ := tableDefinition_parts parts
    (spelled_statementText something allowed p.inferredKey) (parts_read allowed p.inferredKey)
  have built := buildCreateTable_eq clean schema table
  refine ⟨_, _, _, built, buildCreateTableDdl_eq clean schema table, statements_single ?_ single,
    defined, rfl, @catalogueOf_elementsOf _ _ clean ⟨_, _, _, _⟩ rfl rfl⟩
  intro empty
  rw [empty] at defined
  cases defined

/-- Prices with a symbol and a nested note, as they are proposed in any case. -/
def notedPrices : List Json :=
  [.object [("Price".str, .number (.float (F64.ofInt 7))), ("note".str, .array []),
    ("symbol_id".str, .string "A".str)]]

/-- The table for the prices has a key, and a column with a type of two words. -/
theorem notedPrices_created : ∃ answer db p ddl text definition,
    create WriteAuthority.postgresOnly WriteAuthority.tradesDb "md".str "Quote".str
      "producer".str "bob".str notedPrices "p1".str = .ok (answer, db) ∧ db.proposals = [p] ∧
      p.inferredSchema.map typed = [("note".str, "jsonb".str),
        ("price".str, "double precision".str), ("symbol_id".str, "text".str)] ∧
      p.inferredKey = ["symbol_id".str] ∧
      buildCreateTable Crates.plain.unicode p = .ok ddl ∧
      buildCreateTableDdl Crates.plain.unicode p = .ok ("md".str, "quote".str, text) ∧
      statements text = [words text] ∧ tableDefinition (words text) = some definition ∧
      (definition.schema, definition.name) = p.target ∧ catalogueOf definition = ddl.pgTable := by
  have ran : ((create WriteAuthority.postgresOnly WriteAuthority.tradesDb "md".str "Quote".str
      "producer".str "bob".str notedPrices "p1".str).toOption.map (fun made =>
        made.2.proposals.map (fun p => decide (p.target = ("md".str, "quote".str) ∧
          p.inferredSchema.map typed = [("note".str, "jsonb".str),
            ("price".str, "double precision".str), ("symbol_id".str, "text".str)] ∧
          p.inferredKey = ["symbol_id".str])))) = some [true] := by
    decide +kernel
  obtain ⟨⟨answer, db⟩, succeeded, observed⟩ := Option.map_eq_some_iff.mp ran
  obtain ⟨p, one, shown⟩ := List.map_eq_singleton_iff.mp observed
  have made : create WriteAuthority.postgresOnly WriteAuthority.tradesDb "md".str "Quote".str
      "producer".str "bob".str notedPrices "p1".str = .ok (answer, db) := by
    revert succeeded
    cases create WriteAuthority.postgresOnly WriteAuthority.tradesDb "md".str "Quote".str
      "producer".str "bob".str notedPrices "p1".str with
    | error failed => exact fun none => nomatch none
    | ok result => exact fun same => congrArg Except.ok (Option.some.inj same)
  obtain ⟨target, columns, key⟩ := of_decide_eq_true shown
  obtain ⟨schema, table⟩ := Prod.mk.inj target
  obtain ⟨ddl, text, definition, built, printed, rest⟩ := created_as_text
    (Negotiated.created made one)
  rw [schema, table] at printed
  exact ⟨answer, db, p, ddl, text, definition, made, one, columns, key, built, printed, rest⟩

end LumidPlatform.Ingest
