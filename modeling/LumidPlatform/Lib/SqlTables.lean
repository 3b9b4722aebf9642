import LumidPlatform.Lib.SqlSession

/-!
# Definitions of tables

A `CREATE TABLE` statement is read from its words: the name, and between the parentheses the
columns with their types and constraints, and the primary key. The parts are cut at the commas
outside of inner parentheses.
-/

namespace SqlLexer

/-- A word as the grammar takes it: a plain name, folded, a quoted name, or anything else. -/
inductive Token where
  | plain (name : List Char)
  | quoted (name : List Char)
  | mark (text : List Char)
  deriving DecidableEq

/-- A word as the parser sees it: an unquoted name is folded, and a quoted one stripped of its
quotes. -/
def Word.token (word : Word) : Token :=
  match word.kind with
  | .name => .plain (folded word.text)
  | .quotedName => .quoted (unquote word.text)
  | _ => .mark word.text

/-- The name that a token is, in either form. -/
def Token.ident : Token → Option (List Char)
  | .plain name => some name
  | .quoted name => some name
  | .mark _ => none

/-- The name that a token is, where it must not be quoted. -/
def Token.plainName : Token → Option (List Char)
  | .plain name => some name
  | _ => none

/-- The tokens of a text. -/
def phrase (text : String) : List Token := (words text.toList).map Word.token

/-- The sign between the parts of a list. -/
def comma : Token := .mark [',']

/-- The sign that opens a list. -/
def opening : Token := .mark ['(']

/-- The sign that closes a list. -/
def closing : Token := .mark [')']

/-! ## Parts -/

/-- A list is continued at its first part. -/
def prepend (front : List Token) : List (List Token) → List (List Token)
  | [] => [front]
  | first :: rest => (front ++ first) :: rest

/-- The depth after a token. -/
def deeper (depth : Nat) (token : Token) : Nat :=
  if token = opening then depth + 1 else if token = closing then depth - 1 else depth

/-- What stands between the commas outside of parentheses. -/
def parts : Nat → List Token → List (List Token)
  | _, [] => [[]]
  | depth, token :: rest =>
    if token = comma ∧ depth = 0 then [] :: parts 0 rest
    else prepend [token] (parts (deeper depth token) rest)

/-! ## Definitions -/

/-- The constraints of a column that are read. -/
inductive Constraint where
  | notNull
  | primaryKey
  | identityAlways
  | default (function : List Char)
  | references (schema table column : List Char)
  deriving DecidableEq

/-- A part of a table's definition. -/
inductive Element where
  | column (name : List Char) (type : List (List Char)) (constraints : List Constraint)
  | primaryKey (columns : List (List Char))
  deriving DecidableEq

/-- What a statement that creates a table says. -/
structure TableDefinition where
  schema : List Char
  name : List Char
  elements : List Element
  deriving DecidableEq

/-- A constraint begins here, so the type of the column ends. -/
def startsConstraint (token : Token) : Bool :=
  ["not", "primary", "generated", "default", "references"].any
    (fun key => token = .plain key.toList)

/-- The constraints of a column, one after the other. -/
def constraints : Nat → List Token → Option (List Constraint)
  | _, [] => some []
  | 0, _ => none
  | fuel + 1, tokens =>
    if (phrase "not null").isPrefixOf tokens then
      (constraints fuel (tokens.drop 2)).map (.notNull :: ·)
    else if (phrase "primary key").isPrefixOf tokens then
      (constraints fuel (tokens.drop 2)).map (.primaryKey :: ·)
    else if (phrase "generated always as identity").isPrefixOf tokens then
      (constraints fuel (tokens.drop 4)).map (.identityAlways :: ·)
    else
      match tokens with
      | .plain start :: .plain function :: .mark ['('] :: .mark [')'] :: rest =>
        if start = "default".toList then (constraints fuel rest).map (.default function :: ·)
        else none
      | .plain start :: .plain schema :: .mark ['.'] :: .plain table :: .mark ['('] ::
          .plain column :: .mark [')'] :: rest =>
        if start = "references".toList then
          (constraints fuel rest).map (.references schema table column :: ·)
        else none
      | _ => none

/-- The names in parentheses. -/
def names : List Token → Option (List (List Char))
  | .mark ['('] :: rest =>
    if rest.getLast? = some closing then
      (parts 0 rest.dropLast).mapM (fun part =>
        match part with
        | [token] => token.ident
        | _ => none)
    else none
  | _ => none

/-- One part of the definition. -/
def element (part : List Token) : Option Element :=
  if (phrase "primary key").isPrefixOf part then (names (part.drop 2)).map .primaryKey
  else
    match part with
    | [] => none
    | first :: rest => do
      let name ← first.ident
      let type ← (rest.takeWhile (fun token => !startsConstraint token)).mapM Token.plainName
      let limits ← constraints rest.length (rest.dropWhile (fun token => !startsConstraint token))
      if type.isEmpty then none else some (.column name type limits)

/-- The table that a statement defines, unless it exists. -/
def tableDefinition (statement : List Word) : Option TableDefinition :=
  match statement.map Word.token with
  | create :: table :: condition :: not :: existing :: schema :: .mark ['.'] :: name ::
      .mark ['('] :: rest =>
    if [create, table, condition, not, existing] = phrase "create table if not exists" ∧
        rest.getLast? = some closing then do
      let schemaName ← schema.ident
      let tableName ← name.ident
      let elements ← (parts 0 rest.dropLast).mapM element
      some ⟨schemaName, tableName, elements⟩
    else none
  | _ => none

/-! ## Cutting -/

/-- What is put in front in two parts is put in front in one. -/
theorem prepend_append (front more : List Token) (list : List (List Token)) :
    prepend (front ++ more) list = prepend front (prepend more list) := by
  cases list with
  | nil => rfl
  | cons first rest => rw [prepend, prepend, prepend, List.append_assoc]

/-- Nothing in front changes nothing. -/
theorem prepend_nil {list : List (List Token)} (something : list ≠ []) :
    prepend [] list = list := by
  cases list with
  | nil => exact absurd rfl something
  | cons first rest => rfl

/-- A list has at least one part. -/
theorem parts_ne_nil (depth : Nat) (tokens : List Token) : parts depth tokens ≠ [] := by
  cases tokens with
  | nil => exact List.cons_ne_nil _ _
  | cons token rest =>
    rw [parts]
    split_ifs
    · exact List.cons_ne_nil _ _
    · cases parts (deeper depth token) rest with
      | nil => exact List.cons_ne_nil _ _
      | cons first more => exact List.cons_ne_nil _ _

/-- The depth after tokens that no cut goes through. -/
def depthAfter : Nat → List Token → Option Nat
  | depth, [] => some depth
  | depth, token :: rest =>
    if token = comma ∧ depth = 0 then none else depthAfter (deeper depth token) rest

/-- The depth is counted from left to right. -/
theorem depthAfter_append (depth : Nat) (front back : List Token) :
    depthAfter depth (front ++ back) =
      (depthAfter depth front).bind (fun after => depthAfter after back) := by
  induction front generalizing depth with
  | nil => rfl
  | cons token front inductionHypothesis =>
    rw [List.cons_append, depthAfter, depthAfter]
    split_ifs
    · rfl
    · exact inductionHypothesis _

/-- Without a parenthesis, and a comma outside of them, the depth stays. -/
theorem depthAfter_level {depth : Nat} {tokens : List Token}
    (level : ∀ token ∈ tokens, token ≠ opening ∧ token ≠ closing ∧ (token = comma → depth ≠ 0)) :
    depthAfter depth tokens = some depth := by
  induction tokens with
  | nil => rfl
  | cons token rest inductionHypothesis =>
    obtain ⟨notOpening, notClosing, notCut⟩ := level token List.mem_cons_self
    rw [depthAfter, if_neg (fun both => notCut both.1 both.2), deeper, if_neg notOpening,
      if_neg notClosing,
      inductionHypothesis (fun later member => level later (List.mem_cons_of_mem _ member))]

/-- Tokens that do not cut the list at its top stay in front of its first part. -/
theorem parts_uncut {depth after : Nat} {front : List Token}
    (uncut : depthAfter depth front = some after) (rest : List Token) :
    parts depth (front ++ rest) = prepend front (parts after rest) := by
  induction front generalizing depth with
  | nil =>
    obtain rfl := Option.some.inj uncut
    exact (prepend_nil (parts_ne_nil depth rest)).symm
  | cons token front inductionHypothesis =>
    rw [depthAfter] at uncut
    split_ifs at uncut with cut
    rw [List.cons_append, parts, if_neg cut, inductionHypothesis uncut, ← prepend_append]
    rfl

/-- Uncut parts with commas between them are cut at these. -/
theorem parts_intercalate {list : List (List Token)} (something : list ≠ [])
    (uncut : ∀ part ∈ list, depthAfter 0 part = some 0) :
    parts 0 ([comma].intercalate list) = list := by
  induction list with
  | nil => exact absurd rfl something
  | cons part rest inductionHypothesis =>
    have first := parts_uncut (uncut part List.mem_cons_self)
    cases rest with
    | nil =>
      have own := first []
      rw [List.append_nil] at own
      rw [List.intercalate_singleton, own]
      exact congrArg (fun last => [last]) (List.append_nil part)
    | cons next more =>
      have cut (tail : List Token) : parts 0 (comma :: tail) = [] :: parts 0 tail := by
        rw [parts, if_pos ⟨rfl, rfl⟩]
      rw [List.intercalate_cons_cons, List.append_assoc, first, List.singleton_append, cut,
        inductionHypothesis (List.cons_ne_nil _ _)
          (fun later member => uncut later (List.mem_cons_of_mem _ member))]
      exact congrArg (· :: next :: more) (List.append_nil part)

/-! ## Definitions of parts -/

/-- Tokens that make one part of a definition, and the element that it is. -/
structure Part (tokens : List Token) (read : Element) : Prop where
  uncut : depthAfter 0 tokens = some 0
  single : Token.mark [';'] ∉ tokens
  element : element tokens = some read

/-- A list of quoted names in brackets is read as the names. -/
theorem names_quoted {columns : List (List Char)} (something : columns ≠ []) :
    names (opening :: ([comma].intercalate (columns.map (fun column => [.quoted column])) ++
      [closing])) = some columns := by
  have nonempty : columns.map (fun column => [Token.quoted column]) ≠ [] := by
    rwa [ne_eq, List.map_eq_nil_iff]
  have inner : parts 0 ([comma].intercalate (columns.map (fun column => [.quoted column]))) =
      columns.map (fun column => [.quoted column]) := by
    apply parts_intercalate nonempty
    intro part member
    obtain ⟨column, -, rfl⟩ := List.mem_map.mp member
    rfl
  rw [opening, names, if_pos List.getLast?_concat, List.dropLast_concat, inner]
  clear inner nonempty something
  induction columns with
  | nil => rfl
  | cons column rest inductionHypothesis =>
    rw [List.map_cons, List.mapM_cons, inductionHypothesis]
    rfl

/-- A token of a joined list is a comma or one of a part. -/
theorem mem_intercalate {token : Token} {list : List (List Token)}
    (member : token ∈ [comma].intercalate list) :
    token = comma ∨ ∃ part ∈ list, token ∈ part := by
  induction list with
  | nil => cases member
  | cons part rest inductionHypothesis =>
    have onward (later : token ∈ [comma].intercalate rest) :
        token = comma ∨ ∃ part' ∈ part :: rest, token ∈ part' := by
      rcases inductionHypothesis later with same | ⟨part', inRest, inPart⟩
      · exact Or.inl same
      · exact Or.inr ⟨part', List.mem_cons_of_mem _ inRest, inPart⟩
    cases rest with
    | nil =>
      rw [List.intercalate_singleton] at member
      exact Or.inr ⟨part, List.mem_cons_self, member⟩
    | cons next more =>
      rw [List.intercalate_cons_cons, List.append_assoc, List.mem_append, List.mem_append,
        List.mem_singleton] at member
      rcases member with here | same | later
      · exact Or.inr ⟨part, List.mem_cons_self, here⟩
      · exact Or.inl same
      · exact onward later

/-- Two lists that are joined have a comma between them. -/
theorem intercalate_append {front back : List (List Token)} (first : front ≠ [])
    (second : back ≠ []) :
    [comma].intercalate (front ++ back) =
      [comma].intercalate front ++ comma :: [comma].intercalate back := by
  induction front with
  | nil => exact absurd rfl first
  | cons part rest inductionHypothesis =>
    cases rest with
    | nil =>
      rw [List.singleton_append, List.intercalate_cons_of_ne_nil second,
        List.intercalate_singleton, List.append_assoc, List.singleton_append]
    | cons next more =>
      have later := inductionHypothesis (List.cons_ne_nil _ _)
      rw [List.cons_append, List.cons_append, List.intercalate_cons_cons, ← List.cons_append,
        later, List.intercalate_cons_cons, List.append_assoc, List.append_assoc, List.append_assoc]

/-- A primary key with quoted names. -/
theorem part_primaryKey {columns : List (List Char)} (something : columns ≠ []) :
    Part (phrase "primary key" ++ opening ::
        ([comma].intercalate (columns.map (fun column => [.quoted column])) ++ [closing]))
      (.primaryKey columns) := by
  have first : phrase "primary key" = [.plain "primary".toList, .plain "key".toList] := by
    decide +kernel
  have inside : ∀ token ∈ [comma].intercalate (columns.map (fun column => [Token.quoted column])),
      token = comma ∨ ∃ column, token = .quoted column := by
    intro token member
    rcases mem_intercalate member with same | ⟨part, inList, inPart⟩
    · exact Or.inl same
    · obtain ⟨column, -, rfl⟩ := List.mem_map.mp inList
      exact Or.inr ⟨column, List.mem_singleton.mp inPart⟩
  refine ⟨?_, ?_, ?_⟩
  · have level : depthAfter 1
        ([comma].intercalate (columns.map (fun column => [Token.quoted column]))) = some 1 := by
      apply depthAfter_level
      intro token member
      rcases inside token member with rfl | ⟨column, rfl⟩
      · decide
      · exact ⟨Token.noConfusion, Token.noConfusion, Token.noConfusion⟩
    have opened : depthAfter 0 (phrase "primary key" ++ [opening]) = some 1 := by decide +kernel
    have closed : depthAfter 1 [closing] = some 0 := by decide
    rw [← List.singleton_append, ← List.append_assoc, depthAfter_append, opened, Option.bind_some,
      depthAfter_append, level, Option.bind_some, closed]
  · have absent : Token.mark [';'] ∉ phrase "primary key" := by decide +kernel
    rw [List.mem_append, List.mem_cons, List.mem_append]
    rintro (inFirst | same | inNames | same)
    · exact absent inFirst
    · exact absurd same (by decide)
    · rcases inside _ inNames with same | ⟨column, same⟩
      · exact absurd same (by decide)
      · cases same
    · exact absurd same (by decide)
  · rw [element.eq_def, if_pos (List.isPrefixOf_iff_prefix.mpr (List.prefix_append _ _)), first]
    exact congrArg (Option.map Element.primaryKey) (names_quoted something)

/-- A column with a quoted name and a type without constraints. -/
theorem part_column {name : List Char} {type : List (List Char)} (something : type ≠ [])
    (free : ∀ word ∈ type, startsConstraint (.plain word) = false) :
    Part (.quoted name :: type.map .plain) (.column name type []) := by
  have notMark {text : List Char} {token : Token}
      (member : token ∈ Token.quoted name :: type.map .plain) : token ≠ .mark text := by
    rcases List.mem_cons.mp member with rfl | inType
    · exact Token.noConfusion
    · obtain ⟨word, -, rfl⟩ := List.mem_map.mp inType
      exact Token.noConfusion
  refine ⟨?_, fun member => notMark member rfl, ?_⟩
  · apply depthAfter_level
    exact fun token member => ⟨notMark member, notMark member,
      fun same => absurd same (notMark member)⟩
  · have notKey : ¬(phrase "primary key").isPrefixOf (.quoted name :: type.map .plain) = true := by
      have first : phrase "primary key" = [.plain "primary".toList, .plain "key".toList] := by
        decide +kernel
      rw [first]
      exact Bool.false_ne_true
    have inType : ∀ token ∈ type.map Token.plain, (!startsConstraint token) = true := by
      intro token member
      obtain ⟨word, inType, rfl⟩ := List.mem_map.mp member
      rw [free word inType]
      rfl
    have named : (type.map Token.plain).mapM Token.plainName = some type := by
      clear something free notMark notKey inType
      induction type with
      | nil => rfl
      | cons word rest inductionHypothesis =>
        rw [List.map_cons, List.mapM_cons, inductionHypothesis]
        rfl
    have limits (fuel : Nat) : constraints fuel [] = some [] := by cases fuel <;> rfl
    rw [element.eq_def, if_neg notKey]
    dsimp only
    rw [List.takeWhile_eq_self_iff.mpr inType, List.dropWhile_eq_nil_iff.mpr inType, named, limits]
    change (if type.isEmpty = true then none else _) = _
    rw [if_neg (fun empty => something (List.isEmpty_iff.mp empty))]

/-- The statement with these parts defines their elements, and nothing follows it. -/
theorem tableDefinition_parts {statement : List Word} {schema name : List Char}
    {list : List (List Token)} {elements : List Element} (something : list ≠ [])
    (tokens : statement.map Word.token = phrase "create table if not exists" ++
      .quoted schema :: .mark ['.'] :: .quoted name :: opening ::
        ([comma].intercalate list ++ [closing]))
    (read : List.Forall₂ Part list elements) :
    tableDefinition statement = some ⟨schema, name, elements⟩ ∧ semicolon ∉ statement := by
  have header : phrase "create table if not exists" = ["create", "table", "if", "not", "exists"].map
      (fun key => .plain key.toList) := by
    decide +kernel
  have made : ∀ part ∈ list, ∃ element, Part part element := by
    clear something tokens
    induction read with
    | nil => exact fun part member => by cases member
    | cons first _ inductionHypothesis =>
      intro part member
      rcases List.mem_cons.mp member with rfl | later
      · exact ⟨_, first⟩
      · exact inductionHypothesis part later
  have cut : parts 0 ([comma].intercalate list) = list :=
    parts_intercalate something fun part member =>
      (made part member).elim fun _ found => found.uncut
  have elementwise : list.mapM element = some elements := by
    clear something tokens made cut
    induction read with
    | nil => rfl
    | cons first _ inductionHypothesis =>
      rw [List.mapM_cons, first.element, inductionHypothesis]
      rfl
  constructor
  · rw [tableDefinition.eq_def, tokens, header]
    change (if _ ∧ _ then _ else _) = _
    rw [if_pos ⟨header.symm, List.getLast?_concat⟩, List.dropLast_concat, cut, elementwise]
    rfl
  · intro member
    have marked : Token.mark [';'] ∈ statement.map Word.token :=
      List.mem_map.mpr ⟨semicolon, member, rfl⟩
    have absent : Token.mark [';'] ∉ phrase "create table if not exists" := by decide +kernel
    rw [tokens] at marked
    simp only [List.mem_append, List.mem_cons, reduceCtorEq, false_or, List.not_mem_nil,
      or_false] at marked
    rcases marked with inHeader | same | same | inParts | same
    · exact absent inHeader
    · exact absurd same (by decide)
    · exact absurd same (by decide)
    · rcases mem_intercalate inParts with same | ⟨part, inList, inPart⟩
      · exact absurd same (by decide)
      · obtain ⟨read, found⟩ := made part inList
        exact found.single inPart
    · exact absurd same (by decide)

/-! ## Printed parts -/

/-- The tokens of a text. -/
def spelled (s : List Char) : List Token := (words s).map Word.token

/-- A part that cannot run into what follows is lexed by itself. -/
theorem spelled_part {u tail : List Char} (part : ∀ c ∈ u, tame c = true)
    (apart : Apart u tail) : spelled (u ++ tail) = spelled u ++ spelled tail := by
  rw [spelled, words_part part apart, List.map_append]
  rfl

/-- A fixed part that ends between words. -/
theorem spelled_fixed {u : List Char} (tamed : u.all tame = true)
    (ends : u.getLast?.all (fun c => !continuesName c && c != '.') = true) (tail : List Char) :
    spelled (u ++ tail) = spelled u ++ spelled tail := by
  apply spelled_part (List.all_eq_true.mp tamed)
  left
  intro c last
  rw [Option.mem_def.mp last, Option.all_some, Bool.and_eq_true, Bool.not_eq_true', bne_iff_ne]
    at ends
  exact ends

/-- A quoted name is one token, unless another quote follows it. -/
theorem spelled_quoteName {tail : List Char} (name : List Char)
    (stop : ∀ c ∈ tail.head?, c ≠ '"') :
    spelled (quoteName name ++ tail) = .quoted name :: spelled tail := by
  rw [spelled, words_quoteName name stop, List.map_cons, Word.token]
  exact congrArg (fun inner => Token.quoted inner :: spelled tail) (unquote_quoteName name)

/-- What may follow a piece. -/
def stops : List Char := [',', ')', ' ', '\n']

/-- The signs of the statement end a name and open nothing. -/
theorem apart_of_stops {c : Char} (stop : c ∈ stops) :
    continuesName c = false ∧ c ≠ '\'' ∧ c ≠ '"' := by
  simp only [stops, List.mem_cons, List.not_mem_nil, or_false] at stop
  rcases stop with rfl | rfl | rfl | rfl <;> decide

/-- A piece of a text that is read as these tokens wherever one of the stops follows. -/
def Prints (piece : List Char) (tokens : List Token) : Prop :=
  ∀ tail, (∀ c ∈ tail.head?, c ∈ stops) → spelled (piece ++ tail) = tokens ++ spelled tail

/-- A part of ordinary characters prints its own tokens. -/
theorem prints_part {u : List Char} (tamed : u.all tame = true) : Prints u (spelled u) :=
  fun _ stop => spelled_part (List.all_eq_true.mp tamed) (Or.inr fun c first =>
    ⟨(apart_of_stops (stop c first)).1, (apart_of_stops (stop c first)).2.1⟩)

/-- A quoted name prints as itself. -/
theorem prints_quoteName (name : List Char) : Prints (quoteName name) [.quoted name] :=
  fun _ stop => spelled_quoteName name fun c first => (apart_of_stops (stop c first)).2.2

/-- Printed pieces with commas between them. -/
theorem Prints.join {space : List Char} (spaces : space.all isSpace = true)
    {α : Type} {piece : α → List Char} {tokens : α → List Token} {items : List α}
    (printed : ∀ item ∈ items, Prints (piece item) (tokens item)) :
    Prints ((',' :: space).intercalate (items.map piece))
      ([comma].intercalate (items.map tokens)) := by
  have cut (tail : List Char) : spelled (',' :: (space ++ tail)) = comma :: spelled tail := by
    have skipped : words (space ++ tail) = words tail := by
      induction space with
      | nil => rfl
      | cons c rest inductionHypothesis =>
        rw [List.all_cons, Bool.and_eq_true] at spaces
        rw [List.cons_append, words_space spaces.1, inductionHypothesis spaces.2]
    rw [spelled, words_visible (scan_separator (by decide) _) rfl, List.map_cons]
    exact congrArg (fun later => comma :: later.map Word.token) skipped
  induction items with
  | nil => exact fun tail _ => rfl
  | cons item rest inductionHypothesis =>
    intro tail stop
    have first := printed item List.mem_cons_self
    have others := inductionHypothesis (fun later member =>
      printed later (List.mem_cons_of_mem _ member))
    cases rest with
    | nil => simpa using first tail stop
    | cons next more =>
      have follows : ∀ c ∈ (',' :: (space ++ ((',' :: space).intercalate
          ((next :: more).map piece) ++ tail))).head?, c ∈ stops := by
        rintro c ⟨⟩
        decide
      rw [List.map_cons, List.map_cons, List.map_cons, List.map_cons, List.intercalate_cons_cons,
        List.intercalate_cons_cons, List.append_assoc, List.append_assoc, List.cons_append,
        ← List.map_cons, first _ follows, cut, others tail stop]
      simp

end SqlLexer
