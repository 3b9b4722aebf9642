import LumidPlatform.Read.Bind
import LumidPlatform.Read.Rendered

/-!
# Lowering as a substitution of texts

The template of an endpoint is meant to be filled and lowered as a text: fragments take the
place of their markers, placeholders that of the binds outside string literals, and nothing else
changes. The two scanners walk bytes and write each byte as a character, and neither looks for
literals. They do what is meant exactly on texts in ASCII without a bind inside a literal.
-/

namespace LumidPlatform.Read.Lexical

open LumidPlatform.Read.Spec LumidPlatform.Read.Dialect LumidPlatform.Read.Bind Rendered

/-! ## The substitution that is meant -/

/-- The template with its fragments in place of their markers. -/
def fillFrom (fragments : HashMap Str) : Nat → Str → Str
  | _, [] => []
  | skipped + 1, _ :: rest => fillFrom fragments skipped rest
  | 0, c :: rest =>
    match marker (c :: rest) with
    | some (name, length) => (fragments.lookup name).getD [] ++ fillFrom fragments length rest
    | none => c :: fillFrom fragments 0 rest

def fill (template : Str) (fragments : HashMap Str) : Str := fillFrom fragments 0 template

/-- A text cut at its binds outside single-quoted literals. -/
def outsideFrom (quoted prevColon : Bool) (skipped : Nat) : Str → List Piece
  | [] => []
  | c :: rest =>
    match skipped with
    | left + 1 => outsideFrom quoted (c == ':') left rest
    | 0 =>
      match (if quoted then none else bindAt prevColon c rest) with
      | some name => .bind name :: outsideFrom quoted true name.length rest
      | none => .char c :: outsideFrom (quoted != (c == '\'')) (c == ':') 0 rest

/-- Placeholders for the binds, from a number on, with their values. `none` where a bind has no
value. -/
def replace (values : HashMap BindValue) : Nat → List Piece → Option (Str × List BindValue)
  | _, [] => some ([], [])
  | n, .char c :: rest => (replace values n rest).map (fun later => (c :: later.1, later.2))
  | n, .bind name :: rest =>
    match values.lookup name with
    | some v => (replace values (n + 1) rest).map (fun later =>
        (pgPlaceholder n v ++ later.1, v :: later.2))
    | none => none

/-- The statement that a template stands for, if every bind of it has a value. -/
def meant (template : Str) (fragments : HashMap Str) (values : HashMap BindValue) :
    Option BoundSql :=
  (replace values 1 (outsideFrom false false 0 (fill template fragments))).map
    (fun text => ⟨text.1, text.2⟩)

/-- Whether a bind begins inside a single-quoted literal. -/
def quotedBindFrom (quoted prevColon : Bool) (skipped : Nat) : Str → Bool
  | [] => false
  | c :: rest =>
    match skipped with
    | left + 1 => quotedBindFrom quoted (c == ':') left rest
    | 0 =>
      match bindAt prevColon c rest with
      | some name => quoted || quotedBindFrom quoted true name.length rest
      | none => quotedBindFrom (quoted != (c == '\'')) (c == ':') 0 rest

def quotedBind (sql : Str) : Bool := quotedBindFrom false false 0 sql

/-! ## Characters beyond ASCII -/

/-- How many characters of a text are not ASCII. -/
def foreign (s : Str) : Nat := s.countP (fun c => !Text.isAscii c)

theorem foreign_append (s t : Str) : foreign (s ++ t) = foreign s + foreign t :=
  List.countP_append

theorem foreign_cons (c : Char) (s : Str) :
    foreign (c :: s) = foreign s + if Text.isAscii c then 0 else 1 := by
  rw [foreign, List.countP_cons, foreign]
  cases Text.isAscii c with
  | true => rfl
  | false => rfl

theorem foreign_eq_zero {s : Str} : foreign s = 0 ↔ ∀ c ∈ s, Text.isAscii c = true := by
  rw [foreign, List.countP_eq_zero]
  simp only [Bool.not_eq_true', Bool.not_eq_false]

/-- A character beyond ASCII is written as at least two. -/
theorem foreign_pushBytes (c : Char) :
    2 * (if Text.isAscii c then 0 else 1) ≤ foreign (Text.pushBytes c) := by
  by_cases ascii : Text.isAscii c = true
  · rw [if_pos ascii]
    exact Nat.zero_le _
  · rw [if_neg ascii]
    have beyond := Text.pushBytes_foreign (Bool.eq_false_iff.mpr ascii)
    have all : foreign (Text.pushBytes c) = (Text.pushBytes c).length := by
      rw [foreign, List.countP_eq_length]
      intro d member
      rw [beyond d member]
      rfl
    have code : ¬c.val.toNat ≤ 127 := by
      simp only [Text.isAscii, decide_eq_true_eq, not_lt] at ascii
      exact Nat.not_le.mpr ascii
    rw [all, Text.pushBytes, List.length_map, String.utf8EncodeChar, if_neg code]
    split_ifs
    all_goals simp

theorem isAscii_of_isIdent {c : Char} (ident : isIdent c = true) : Text.isAscii c = true := by
  simp only [isIdent, Text.isAsciiAlphanumeric, Text.isAsciiAlphabetic, Text.isAsciiLower,
    Text.isAsciiUpper, Text.isAsciiDigit, Bool.or_eq_true, Bool.and_eq_true, decide_eq_true_eq,
    beq_iff_eq] at ident
  rw [Text.isAscii, decide_eq_true_eq]
  rcases ident with ((upper | lower) | digit) | rfl
  · omega
  · omega
  · omega
  · decide

/-- A placeholder is ASCII. -/
theorem foreign_pgPlaceholder (n : Nat) (v : BindValue) : foreign (pgPlaceholder n v) = 0 := by
  have digits : foreign (Text.showNat n) = 0 := by
    refine foreign_eq_zero.mpr fun c member => ?_
    have digit := Text.isDigit_of_mem_showNat member
    simp only [Char.isDigit, Bool.and_eq_true, decide_eq_true_eq] at digit
    rw [Text.isAscii, decide_eq_true_eq]
    have below : c.val.toNat ≤ 57 := digit.2
    exact Nat.lt_of_le_of_lt below (by omega)
  have number : foreign ('$' :: Text.showNat n) = 0 := by
    rw [foreign_cons, digits]
    rfl
  have cast (suffix : Str) (plain : foreign suffix = 0) :
      foreign ('$' :: Text.showNat n ++ suffix) = 0 := by
    rw [foreign_append, number, plain]
  cases v with
  | int i => exact cast "::int8".str rfl
  | float x => exact cast "::float8".str rfl
  | _ => exact cast [] rfl

/-! ## What is copied -/

/-- The characters among pieces. -/
def pieceChars : List Piece → Str
  | [] => []
  | .char c :: rest => c :: pieceChars rest
  | .bind _ :: rest => pieceChars rest

theorem skips_of_bindAt {prevColon : Bool} {c : Char} {rest name : Str}
    (found : bindAt prevColon c rest = some name) :
    c = ':' ∧ ∀ d ∈ rest.take name.length, isIdent d = true := by
  rw [bindAt] at found
  split_ifs at found with here
  refine ⟨here.1, ?_⟩
  cases rest with
  | nil => cases found
  | cons d more =>
    rw [bindAfterColon] at found
    split_ifs at found with begins
    obtain rfl := Option.some.inj found
    intro e member
    rw [← List.takeWhile_append_dropWhile (p := isIdent) (l := d :: more), List.take_left']
      at member
    · exact List.mem_takeWhile_imp member
    · rw [List.takeWhile_append_dropWhile]

/-- A bind covers no character beyond ASCII. -/
theorem foreign_pieceChars {prevColon : Bool} {skipped : Nat} {sql : Str}
    (skips : ∀ c ∈ sql.take skipped, isIdent c = true) :
    foreign (pieceChars (piecesFrom prevColon skipped sql)) = foreign sql := by
  induction sql generalizing prevColon skipped with
  | nil => rfl
  | cons c rest inductionHypothesis =>
    rw [foreign_cons]
    cases skipped with
    | succ left =>
      have ascii := isAscii_of_isIdent (skips c List.mem_cons_self)
      rw [if_pos ascii, Nat.add_zero, piecesFrom]
      exact inductionHypothesis (fun d member => skips d (List.mem_cons_of_mem _ member))
    | zero =>
      cases found : bindAt prevColon c rest with
      | none =>
        simp only [piecesFrom, found, pieceChars]
        rw [foreign_cons, inductionHypothesis (by simp)]
      | some name =>
        obtain ⟨rfl, covered⟩ := skips_of_bindAt found
        simp only [piecesFrom, found, pieceChars]
        rw [inductionHypothesis covered, if_pos (by decide), Nat.add_zero]

theorem foreign_pieceChars_outside {quoted prevColon : Bool} {skipped : Nat} {sql : Str}
    (skips : ∀ c ∈ sql.take skipped, isIdent c = true) :
    foreign (pieceChars (outsideFrom quoted prevColon skipped sql)) = foreign sql := by
  induction sql generalizing quoted prevColon skipped with
  | nil => rfl
  | cons c rest inductionHypothesis =>
    rw [foreign_cons]
    cases skipped with
    | succ left =>
      have ascii := isAscii_of_isIdent (skips c List.mem_cons_self)
      rw [if_pos ascii, Nat.add_zero, outsideFrom]
      exact inductionHypothesis (fun d member => skips d (List.mem_cons_of_mem _ member))
    | zero =>
      cases found : (if quoted then none else bindAt prevColon c rest) with
      | none =>
        simp only [outsideFrom, found, pieceChars]
        rw [foreign_cons, inductionHypothesis (by simp)]
      | some name =>
        have here : bindAt prevColon c rest = some name := by
          split_ifs at found
          exact found
        obtain ⟨rfl, covered⟩ := skips_of_bindAt here
        simp only [outsideFrom, found, pieceChars]
        rw [inductionHypothesis covered, if_pos (by decide), Nat.add_zero]

/-- The characters beyond ASCII of what is meant are those of the text. -/
theorem foreign_replace {values : HashMap BindValue} {n : Nat} {ps : List Piece}
    {result : Str × List BindValue} (replaced : replace values n ps = some result) :
    foreign result.1 = foreign (pieceChars ps) := by
  induction ps generalizing n result with
  | nil =>
    obtain rfl := Option.some.inj replaced
    rfl
  | cons piece rest inductionHypothesis =>
    cases piece with
    | char c =>
      obtain ⟨later, more, rfl⟩ := Option.map_eq_some_iff.mp replaced
      rw [pieceChars, foreign_cons, foreign_cons, inductionHypothesis more]
    | bind name =>
      rw [replace] at replaced
      split at replaced
      · obtain ⟨later, more, rfl⟩ := Option.map_eq_some_iff.mp replaced
        rw [pieceChars, foreign_append, foreign_pgPlaceholder, inductionHypothesis more,
          Nat.zero_add]
      · cases replaced

/-- In what is lowered they are at least doubled. -/
theorem foreign_lowerPieces {values : HashMap BindValue} {out : Str} {ordered : List BindValue}
    {ps : List Piece} {result : Str × List BindValue}
    (lowered : lowerPieces pgPlaceholder values out ordered ps = .ok result) :
    foreign out + 2 * foreign (pieceChars ps) ≤ foreign result.1 := by
  induction ps generalizing out ordered with
  | nil =>
    obtain rfl := Except.ok.inj lowered
    exact Nat.le_refl _
  | cons piece rest inductionHypothesis =>
    cases piece with
    | char c =>
      have later := inductionHypothesis lowered
      have doubled := foreign_pushBytes c
      rw [foreign_append] at later
      rw [pieceChars, foreign_cons]
      omega
    | bind name =>
      rw [lowerPieces] at lowered
      split at lowered
      · have later := inductionHypothesis lowered
        rw [foreign_append, foreign_pgPlaceholder] at later
        rw [pieceChars]
        omega
      · cases lowered

/-! ## Binds inside literals -/

/-- Without a bind inside a literal the two cuts are the same. -/
theorem outsideFrom_eq_piecesFrom {quoted prevColon : Bool} {skipped : Nat} {sql : Str}
    (none : quotedBindFrom quoted prevColon skipped sql = false) :
    outsideFrom quoted prevColon skipped sql = piecesFrom prevColon skipped sql := by
  induction sql generalizing quoted prevColon skipped with
  | nil => rfl
  | cons c rest inductionHypothesis =>
    cases skipped with
    | succ left => exact inductionHypothesis none
    | zero =>
      rw [quotedBindFrom] at none
      cases found : bindAt prevColon c rest with
      | none =>
        simp only [found] at none
        simp only [outsideFrom, piecesFrom, found, ite_self]
        rw [inductionHypothesis none]
      | some name =>
        simp only [found, Bool.or_eq_false_iff] at none
        obtain ⟨rfl, later⟩ := none
        simp only [outsideFrom, piecesFrom, found, Bool.false_eq_true, if_false]
        rw [inductionHypothesis later]

/-- Inside a literal, identifier characters are copied and make no bind. -/
theorem outsideFrom_quoted {prevColon : Bool} {skipped : Nat} {sql : Str}
    (skips : ∀ c ∈ sql.take skipped, isIdent c = true) :
    pieceNames (outsideFrom true prevColon 0 sql) =
      pieceNames (outsideFrom true prevColon skipped sql) := by
  induction sql generalizing prevColon skipped with
  | nil => rfl
  | cons c rest inductionHypothesis =>
    cases skipped with
    | zero => rfl
    | succ left =>
      have ident := skips c List.mem_cons_self
      have inside : (true != (c == '\'')) = true := by
        rw [bne_iff_ne]
        intro quote
        obtain rfl := beq_iff_eq.mp quote.symm
        exact absurd ident (by decide)
      simp only [outsideFrom, if_true, pieceNames, inside]
      exact inductionHypothesis (fun d member => skips d (List.mem_cons_of_mem _ member))

/-- A bind inside a literal is lowered, and is none of those that are meant. -/
theorem names_outsideFrom {quoted prevColon : Bool} {skipped : Nat} {sql : Str}
    (skips : ∀ c ∈ sql.take skipped, isIdent c = true) :
    (pieceNames (outsideFrom quoted prevColon skipped sql)).length +
        (quotedBindFrom quoted prevColon skipped sql).toNat ≤
      (pieceNames (piecesFrom prevColon skipped sql)).length := by
  induction sql generalizing quoted prevColon skipped with
  | nil => exact Nat.le_refl 0
  | cons c rest inductionHypothesis =>
    cases skipped with
    | succ left =>
      exact inductionHypothesis (fun d member => skips d (List.mem_cons_of_mem _ member))
    | zero =>
      cases found : bindAt prevColon c rest with
      | none =>
        simp only [outsideFrom, piecesFrom, quotedBindFrom, found, ite_self, pieceNames]
        exact inductionHypothesis (by simp)
      | some name =>
        obtain ⟨rfl, covered⟩ := skips_of_bindAt found
        cases quoted with
        | false =>
          have later : (pieceNames (outsideFrom false true name.length rest)).length +
              (quotedBindFrom false true name.length rest).toNat ≤
                (pieceNames (piecesFrom true name.length rest)).length :=
            inductionHypothesis covered
          simp only [outsideFrom, piecesFrom, quotedBindFrom, found, pieceNames,
            Bool.false_eq_true, if_false, Bool.false_or, List.length_cons]
          omega
        | true =>
          have later : (pieceNames (outsideFrom true true name.length rest)).length +
              (quotedBindFrom true true name.length rest).toNat ≤
                (pieceNames (piecesFrom true name.length rest)).length :=
            inductionHypothesis covered
          have same : pieceNames (outsideFrom true true 0 rest) =
              pieceNames (outsideFrom true true name.length rest) := outsideFrom_quoted covered
          simp only [outsideFrom, piecesFrom, quotedBindFrom, found, pieceNames, if_true,
            Bool.true_or, Bool.toNat_true, List.length_cons]
          rw [show (true != (':' == '\'')) = true by decide, show (':' == ':') = true by decide,
            same]
          omega

/-! ## Fragments -/

/-- Substitution does not lose a character beyond ASCII. -/
theorem foreign_fillFrom (fragments : HashMap Str) (skipped : Nat) (template : Str) :
    foreign (fillFrom fragments skipped template) ≤
      foreign (substituteFrom fragments skipped template) := by
  induction template generalizing skipped with
  | nil => exact Nat.le_of_eq (by rw [fillFrom, substituteFrom])
  | cons c rest inductionHypothesis =>
    cases skipped with
    | succ left =>
      rw [fillFrom, substituteFrom]
      exact inductionHypothesis left
    | zero =>
      cases found : marker (c :: rest) with
      | some fragment =>
        have later := inductionHypothesis fragment.2
        simp only [fillFrom, substituteFrom, found]
        rw [foreign_append, foreign_append]
        omega
      | none =>
        have later := inductionHypothesis 0
        have doubled := foreign_pushBytes c
        simp only [fillFrom, substituteFrom, found]
        rw [foreign_cons, foreign_append]
        omega

/-- In ASCII the substitution is what is meant. -/
theorem substituteFrom_eq_fillFrom {fragments : HashMap Str} {skipped : Nat} {template : Str}
    (ascii : ∀ c ∈ fillFrom fragments skipped template, Text.isAscii c = true) :
    substituteFrom fragments skipped template = fillFrom fragments skipped template := by
  induction template generalizing skipped with
  | nil => rw [fillFrom, substituteFrom]
  | cons c rest inductionHypothesis =>
    cases skipped with
    | succ left =>
      rw [fillFrom] at ascii
      rw [fillFrom, substituteFrom, inductionHypothesis ascii]
    | zero =>
      cases found : marker (c :: rest) with
      | some fragment =>
        simp only [fillFrom, substituteFrom, found] at ascii ⊢
        rw [inductionHypothesis (fun d member => ascii d (List.mem_append_right _ member))]
      | none =>
        simp only [fillFrom, substituteFrom, found] at ascii ⊢
        rw [inductionHypothesis (fun d member => ascii d (List.mem_cons_of_mem _ member)),
          Text.pushBytes_ascii (ascii c List.mem_cons_self), List.singleton_append]

/-! ## Lowering -/

/-- Of pieces in ASCII the code makes what is meant. -/
theorem lowerPieces_eq_replace {values : HashMap BindValue} {out : Str}
    {ordered : List BindValue} {ps : List Piece} {result : Str × List BindValue}
    (ascii : ∀ c ∈ pieceChars ps, Text.isAscii c = true)
    (replaced : replace values (ordered.length + 1) ps = some result) :
    lowerPieces pgPlaceholder values out ordered ps =
      .ok (out ++ result.1, ordered ++ result.2) := by
  induction ps generalizing out ordered result with
  | nil =>
    obtain rfl := Option.some.inj replaced
    rw [lowerPieces, List.append_nil, List.append_nil]
  | cons piece rest inductionHypothesis =>
    cases piece with
    | char c =>
      obtain ⟨later, more, rfl⟩ := Option.map_eq_some_iff.mp replaced
      rw [lowerPieces, inductionHypothesis (fun d member => ascii d (List.mem_cons_of_mem _ member))
        more, Text.pushBytes_ascii (ascii c List.mem_cons_self), List.append_assoc,
        List.singleton_append]
    | bind name =>
      rw [replace] at replaced
      split at replaced
      · rename_i v resolved
        obtain ⟨later, more, rfl⟩ := Option.map_eq_some_iff.mp replaced
        have counted : (ordered ++ [v]).length + 1 = ordered.length + 1 + 1 := by
          rw [List.length_append, List.length_singleton]
        rw [← counted] at more
        simp only [lowerPieces, resolved]
        rw [inductionHypothesis ascii more, List.append_assoc, List.append_assoc,
          List.singleton_append]
      · cases replaced

/-- As many values as binds. -/
theorem length_replace {values : HashMap BindValue} {n : Nat} {ps : List Piece}
    {result : Str × List BindValue} (replaced : replace values n ps = some result) :
    result.2.length = (pieceNames ps).length := by
  induction ps generalizing n result with
  | nil =>
    obtain rfl := Option.some.inj replaced
    rfl
  | cons piece rest inductionHypothesis =>
    cases piece with
    | char c =>
      obtain ⟨later, more, rfl⟩ := Option.map_eq_some_iff.mp replaced
      have counted := inductionHypothesis more
      exact counted
    | bind name =>
      rw [replace] at replaced
      split at replaced
      · obtain ⟨later, more, rfl⟩ := Option.map_eq_some_iff.mp replaced
        rw [pieceNames, List.length_cons, List.length_cons, inductionHypothesis more]
      · cases replaced

/-- A template whose binds have values is lowered to what it stands for exactly where it is in
ASCII, with its fragments in place, and has no bind inside a single-quoted literal. -/
theorem lowered_iff_plain {template : Str} {fragments : HashMap Str} {values : HashMap BindValue}
    {bound : BoundSql} (defined : meant template fragments values = some bound) :
    lowerBinds (substituteFragments template fragments) values = .ok bound ↔
      (∀ c ∈ fill template fragments, Text.isAscii c = true) ∧
        quotedBind (fill template fragments) = false := by
  obtain ⟨text, replaced, rfl⟩ := Option.map_eq_some_iff.mp defined
  rw [lowerBinds, lowerScan_eq_lowerPieces]
  constructor
  · intro lowered
    cases walked : lowerPieces pgPlaceholder values [] []
        (piecesFrom false 0 (substituteFragments template fragments)) with
    | error e =>
      rw [walked] at lowered
      cases lowered
    | ok result =>
      rw [walked] at lowered
      obtain ⟨sql, bounds⟩ := BoundSql.mk.inj (Except.ok.inj lowered)
      have ascii : foreign (fill template fragments) = 0 := by
        have doubled := foreign_lowerPieces walked
        have kept := foreign_replace replaced
        have grown := foreign_fillFrom fragments 0 template
        rw [foreign_pieceChars (by simp), sql] at doubled
        rw [foreign_pieceChars_outside (by simp)] at kept
        rw [← fill] at grown
        rw [substituteFragments] at doubled
        omega
      have plain := foreign_eq_zero.mp ascii
      refine ⟨plain, ?_⟩
      have same : substituteFragments template fragments = fill template fragments :=
        substituteFrom_eq_fillFrom plain
      have count := congrArg List.length (lowerPieces_values walked)
      have meantCount := length_replace replaced
      have fewer : (pieceNames (outsideFrom false false 0 (fill template fragments))).length +
          (quotedBindFrom false false 0 (fill template fragments)).toNat ≤
            (pieceNames (piecesFrom false 0 (fill template fragments))).length :=
        names_outsideFrom (by simp)
      rw [same] at count
      simp only [List.length_map, List.map_nil, List.nil_append] at count
      rw [bounds] at count
      have zero : (quotedBind (fill template fragments)).toNat = 0 := by
        rw [quotedBind]
        omega
      exact Bool.toNat_eq_zero.mp zero
  · rintro ⟨plain, unquoted⟩
    have same : substituteFragments template fragments = fill template fragments :=
      substituteFrom_eq_fillFrom plain
    rw [outsideFrom_eq_piecesFrom unquoted] at replaced
    have chars : ∀ c ∈ pieceChars (piecesFrom false 0 (fill template fragments)),
        Text.isAscii c = true := by
      rw [← foreign_eq_zero, foreign_pieceChars (by simp)]
      exact foreign_eq_zero.mpr plain
    rw [same, lowerPieces_eq_replace chars replaced]
    rfl

/-! ## Three templates -/

/-- One value, for a bind `symbol`. -/
def symbolValue : HashMap BindValue := (∅ : HashMap BindValue).insert "symbol".str (.int 7)

theorem asciiTemplate_lowered :
    lowerBinds (substituteFragments "select * from t where {{which}} and s = 'a b'".str
        ((∅ : HashMap Str).insert "which".str "symbol = :symbol".str)) symbolValue =
      .ok ⟨"select * from t where symbol = $1::int8 and s = 'a b'".str, [.int 7]⟩ := by
  have defined : meant "select * from t where {{which}} and s = 'a b'".str
      ((∅ : HashMap Str).insert "which".str "symbol = :symbol".str) symbolValue =
        some ⟨"select * from t where symbol = $1::int8 and s = 'a b'".str, [.int 7]⟩ := by
    decide +kernel
  exact (lowered_iff_plain defined).mpr
    ⟨List.all_eq_true.mp (by decide +kernel), by decide +kernel⟩

/-- An accent comes out as two characters, and a format with colons in a literal is taken for
binds. -/
theorem literals_mangled :
    (meant "select 'é'".str ∅ ∅ = some ⟨"select 'é'".str, []⟩ ∧
      lowerBinds (substituteFragments "select 'é'".str ∅) ∅ =
        .ok ⟨"select '\u00c3\u0083\u00c2\u00a9'".str, []⟩) ∧
    (meant "to_char(t, 'HH24:MI:SS')".str ∅ ∅ = some ⟨"to_char(t, 'HH24:MI:SS')".str, []⟩ ∧
      lowerBinds (substituteFragments "to_char(t, 'HH24:MI:SS')".str ∅) ∅ =
        .error (unresolved "MI".str)) :=
  ⟨⟨by decide +kernel, rfl⟩, ⟨by decide +kernel, rfl⟩⟩

end LumidPlatform.Read.Lexical
