import LumidPlatform.Lib.SqlLexer

/-!
# A text and what follows it

A complete text leaves no quoted token and no comment open. What follows such a text, with none
of the marks that open or close one, is read as if the text ended before it: at most the last
white space, line comment or name of the text goes on in it.
-/

namespace SqlLexer

variable {s u rest tail tag : List Char} {c quote : Char} {escapes : Bool} {k : Nat}

/-! ## Complete texts -/

/-- The comment is closed as often as it is opened. -/
def blockCloses : Nat → List Char → Bool
  | 0, _ => true
  | depth + 1, '*' :: '/' :: rest => blockCloses depth rest
  | depth + 1, '/' :: '*' :: rest => blockCloses (depth + 2) rest
  | depth + 1, _ :: rest => blockCloses (depth + 1) rest
  | _ + 1, [] => false

/-- A string literal is closed, and so is all that continues it. -/
def stringCloses (escapes : Bool) : Nat → List Char → Bool
  | 0, _ => false
  | fuel + 1, s =>
    match quotedLength '\'' escapes s with
    | none => false
    | some closed =>
      match continuation (s.drop closed) with
      | none => true
      | some gap => stringCloses escapes fuel (s.drop (closed + gap))

/-- The closing tag comes. -/
def dollarCloses (tag : List Char) : List Char → Bool
  | [] => false
  | c :: rest => ('$' :: tag ++ ['$']).isPrefixOf (c :: rest) || dollarCloses tag rest

/-- The lexeme that begins with a character is closed before the text ends. -/
def closes (c : Char) (rest : List Char) : Bool :=
  if c = '/' ∧ rest.head? = some '*' then blockCloses 1 (rest.drop 1)
  else if c = '\'' then stringCloses false rest.length rest
  else if (c = 'e' ∨ c = 'E') ∧ rest.head? = some '\'' then
    stringCloses true rest.length (rest.drop 1)
  else if c = '"' then (quotedLength '"' false rest).isSome
  else if c = '$' then
    match dollarTag rest with
    | some tag => dollarCloses tag (rest.drop (tag.length + 1))
    | none => true
  else true

/-- A lexeme is closed if the text from it on closes it. -/
def Lexeme.closed (t : Lexeme) : Bool :=
  match t.text ++ t.after with
  | c :: rest => closes c rest
  | [] => true

/-- No literal, quoted name, dollar quote or comment is left open. -/
def Complete (s : List Char) : Prop := ∀ t ∈ lex s, t.closed = true

instance (s : List Char) : Decidable (Complete s) :=
  inferInstanceAs (Decidable (∀ t ∈ lex s, t.closed = true))

/-! ## Scanners on a text that goes on -/

/-- The marks that a quoted token, a comment or a number may go on or end with. -/
def marks : List Char := ['\'', '"', '$', '*', '/', '-', '+', '.']

/-- No quoted token, comment or number ends or goes on in the text. -/
structure Bland (tail : List Char) : Prop where
  unmarked : ∀ mark ∈ marks, mark ∉ tail
  start : ∀ c ∈ tail.head?, isDigit c = false ∧ c ≠ 'e' ∧ c ≠ 'E'

/-- Without a quote nothing quoted ends, by induction along the text. -/
theorem quotedLength_absent (absent : quote ∉ s) : quotedLength quote escapes s = none := by
  induction s using quotedLength.induct quote escapes with
  | case1 => rfl
  | case2 | case3 | case4 => exact absurd List.mem_cons_self absent
  | case5 c other escaped d more inductionHypothesis =>
    have later := inductionHypothesis
      (fun member => absent (List.mem_cons_of_mem _ (List.mem_cons_of_mem _ member)))
    rw [quotedLength.eq_def]
    simp [other, escaped, later]
  | case6 c other escaped =>
    rw [quotedLength.eq_def]
    simp [other, escaped]
  | case7 c rest other plain inductionHypothesis =>
    have later := inductionHypothesis (fun member => absent (List.mem_cons_of_mem _ member))
    rw [quotedLength.eq_def]
    simp [other, plain, later]

/-- A text without quotes neither closes what is open before it nor moves where it is closed. -/
theorem quotedLength_append (absent : quote ∉ tail) (u : List Char) :
    quotedLength quote escapes (u ++ tail) = quotedLength quote escapes u := by
  induction u using quotedLength.induct quote escapes with
  | case1 => exact quotedLength_absent absent
  | case2 more inductionHypothesis =>
    rw [quotedLength.eq_def, quotedLength.eq_def _ _ (quote :: quote :: more)]
    simp [inductionHypothesis]
  | case3 d more other =>
    rw [quotedLength.eq_def, quotedLength.eq_def _ _ (quote :: d :: more)]
    simp [other]
  | case4 =>
    cases tail with
    | nil => rfl
    | cons d more =>
      have other : d ≠ quote := fun same => absent (same ▸ List.mem_cons_self)
      rw [quotedLength.eq_def, quotedLength.eq_def _ _ [quote]]
      simp [other]
  | case5 c other escaped d more inductionHypothesis =>
    rw [quotedLength.eq_def, quotedLength.eq_def _ _ (c :: d :: more)]
    simp [other, escaped, inductionHypothesis]
  | case6 c other escaped =>
    -- What follows a last backslash is taken along, and no quote comes after it.
    cases tail with
    | nil => rfl
    | cons d more =>
      have later := @quotedLength_absent more quote escapes
        (fun member => absent (List.mem_cons_of_mem _ member))
      rw [quotedLength.eq_def, quotedLength.eq_def _ _ [c]]
      simp [other, escaped, later]
  | case7 c rest other plain inductionHypothesis =>
    rw [quotedLength.eq_def, quotedLength.eq_def _ _ (c :: rest)]
    simp [other, plain, inductionHypothesis]

/-- The closing quote is inside the text. -/
theorem quotedLength_le (closed : quotedLength quote escapes s = some k) : k ≤ s.length := by
  induction s using quotedLength.induct quote escapes generalizing k with
  | case1 => cases closed
  | case2 more inductionHypothesis =>
    rw [quotedLength.eq_def] at closed
    obtain ⟨later, found, rfl⟩ := Option.map_eq_some_iff.mp (by simpa using closed)
    have bound := inductionHypothesis found
    simp only [List.length_cons]
    omega
  | case3 d more other =>
    rw [quotedLength.eq_def] at closed
    obtain rfl : 1 = k := by simpa [other] using closed
    simp
  | case4 =>
    rw [quotedLength.eq_def] at closed
    obtain rfl : 1 = k := by simpa using closed
    simp
  | case5 c other escaped d more inductionHypothesis =>
    rw [quotedLength.eq_def] at closed
    obtain ⟨later, found, rfl⟩ := Option.map_eq_some_iff.mp
      (by simpa only [if_neg other, if_pos escaped] using closed)
    have bound := inductionHypothesis found
    simp only [List.length_cons]
    omega
  | case6 c other escaped =>
    rw [quotedLength.eq_def] at closed
    simp [other, escaped] at closed
  | case7 c rest other plain inductionHypothesis =>
    rw [quotedLength.eq_def] at closed
    obtain ⟨later, found, rfl⟩ := Option.map_eq_some_iff.mp
      (by simpa only [if_neg other, if_neg plain] using closed)
    have bound := inductionHypothesis found
    simp only [List.length_cons]
    omega

/-! ### Continued strings -/

/-- A line that ends inside a text ends there also when the text goes on. -/
theorem lineLength_append_of_mem (newline : ∃ c ∈ u, isNewline c = true) (tail : List Char) :
    lineLength (u ++ tail) = lineLength u ∧ lineLength u < u.length := by
  induction u with
  | nil => simp at newline
  | cons d more inductionHypothesis =>
    by_cases ends : isNewline d = true
    · simp [lineLength, ends]
    · have later := inductionHypothesis (by simpa [ends] using newline)
      simp only [lineLength, List.cons_append, List.takeWhile_cons] at later ⊢
      simpa [ends] using later

/-- A line that does not goes on in what follows. -/
theorem lineLength_append_of_not_mem (single : ¬∃ c ∈ u, isNewline c = true) (tail : List Char) :
    lineLength (u ++ tail) = u.length + lineLength tail := by
  induction u with
  | nil => simp
  | cons d more inductionHypothesis =>
    simp only [List.mem_cons, exists_eq_or_imp, not_or] at single
    have later := inductionHypothesis single.2
    simp only [lineLength, List.cons_append, List.takeWhile_cons] at later ⊢
    simp [single.1, later]
    omega

/-- White space is part of the gap between two pieces of a literal. -/
theorem gapLength_space {fuel : Nat} (space : isSpace c = true) :
    gapLength (fuel + 1) (c :: rest) = 1 + gapLength fuel rest := by
  have other : ∀ more, c = '-' → rest = '-' :: more → False := by
    rintro _ rfl
    cases space
  rw [gapLength.eq_3 _ _ _ other, if_pos space]

/-- So is a comment to the end of its line, but not one that reaches the end of the text. -/
theorem gapLength_comment {fuel : Nat} :
    gapLength (fuel + 1) ('-' :: '-' :: rest) =
      match rest.drop (lineLength rest) with
      | [] => 0
      | _ :: more => 2 + lineLength rest + 1 + gapLength fuel more := rfl

/-- Anything else ends the gap. -/
theorem gapLength_other {fuel : Nat} (solid : ¬isSpace c = true)
    (other : ∀ more, c = '-' → rest = '-' :: more → False) :
    gapLength (fuel + 1) (c :: rest) = 0 := by
  rw [gapLength.eq_3 _ _ _ other, if_neg solid]

/-- A quote that comes after some characters is inside the text, when none follows the text. -/
theorem lt_of_quote (absent : '\'' ∉ tail) (quoted : ((u ++ tail).drop k).head? = some '\'') :
    k < u.length := by
  by_contra beyond
  rw [List.drop_append, List.drop_of_length_le (by omega), List.nil_append] at quoted
  exact absent (List.mem_of_mem_drop (List.mem_of_mem_head? quoted))

/-- A line that does not reach the end of a text ends with a line break. -/
theorem newline_of_drop {newline : Char} (split : rest.drop (lineLength rest) = newline :: more) :
    ∃ c ∈ rest, isNewline c = true := by
  by_contra single
  have whole := lineLength_append_of_not_mem single []
  rw [List.append_nil] at whole
  rw [whole, List.drop_of_length_le (Nat.le_add_right _ _)] at split
  cases split

/-- Behind a comment and its line break comes the rest of the text. -/
theorem drop_comment {newline : Char} (split : rest.drop (lineLength rest) = newline :: more)
    {line : Nat} (same : line = lineLength rest) (gap : Nat) :
    ('-' :: '-' :: rest).drop (2 + line + 1 + gap) = more.drop gap := by
  rw [show 2 + line + 1 + gap = lineLength rest + (gap + 1) + 1 + 1 by omega,
    List.drop_succ_cons, List.drop_succ_cons, ← List.drop_drop, split, List.drop_succ_cons]

/-- Behind a comment that reaches the end of a text comes no quote, when none follows the text: the
comment goes on in what follows. -/
theorem not_quoted_of_comment (absent : '\'' ∉ tail) {fuel : Nat}
    (single : ¬∃ c ∈ rest, isNewline c = true) :
    (('-' :: '-' :: rest ++ tail).drop (gapLength fuel ('-' :: '-' :: rest ++ tail))).head? ≠
      some '\'' := by
  intro quoted
  have inside := lt_of_quote absent quoted
  cases fuel with
  | zero => simp [gapLength] at quoted
  | succ fuel =>
    rw [List.cons_append, List.cons_append, gapLength_comment] at quoted inside
    cases onward : (rest ++ tail).drop (lineLength (rest ++ tail)) with
    | nil =>
      rw [onward] at quoted
      cases quoted
    | cons newline more =>
      rw [onward, lineLength_append_of_not_mem single] at inside
      simp only [List.length_cons] at inside
      omega

/-- A quote after a gap is where it is, whatever follows the text. -/
theorem gapLength_append (absent : '\'' ∉ tail) (noDash : '-' ∉ tail) {fuel bound : Nat}
    (enough : (u ++ tail).length ≤ fuel) (enough' : u.length ≤ bound)
    (quoted : ((u ++ tail).drop (gapLength fuel (u ++ tail))).head? = some '\'' ∨
      (u.drop (gapLength bound u)).head? = some '\'') :
    gapLength fuel (u ++ tail) = gapLength bound u ∧ gapLength bound u < u.length := by
  induction bound, u using gapLength.induct generalizing fuel with
  | case1 u =>
    obtain rfl : u = [] := List.length_eq_zero_iff.mp (by omega)
    rcases quoted with quoted | quoted
    · exact absurd (lt_of_quote absent quoted) (by simp)
    · cases quoted
  | case2 bound rest toEnd =>
    rw [gapLength_comment, toEnd] at quoted ⊢
    have passed : rest.length ≤ lineLength rest := List.drop_eq_nil_iff.mp toEnd
    have single : ¬∃ c ∈ rest, isNewline c = true := by
      intro newline
      have inside := (lineLength_append_of_mem newline []).2
      omega
    rcases quoted with quoted | quoted
    · exact absurd quoted (not_quoted_of_comment absent single)
    · cases quoted
  | case3 bound rest newline more split inductionHypothesis =>
    obtain ⟨fuel, rfl⟩ : ∃ fewer, fuel = fewer + 1 := ⟨fuel - 1, by simp at enough; omega⟩
    obtain ⟨same, inside⟩ := lineLength_append_of_mem (newline_of_drop split) tail
    have onward : (rest ++ tail).drop (lineLength rest) = newline :: (more ++ tail) := by
      rw [List.drop_append_of_le_length (by omega), split, List.cons_append]
    have pieces : rest.length = lineLength rest + (more.length + 1) := by
      have lengths := congrArg List.length split
      rw [List.length_drop, List.length_cons] at lengths
      omega
    rw [List.cons_append, List.cons_append, gapLength_comment, gapLength_comment, same, onward,
      split] at quoted ⊢
    dsimp only at quoted ⊢
    rw [drop_comment (same.symm ▸ onward) same.symm, drop_comment split rfl] at quoted
    obtain ⟨equal, before⟩ := inductionHypothesis
      (by simp only [List.length_append, List.length_cons] at enough ⊢; omega)
      (by simp only [List.length_cons] at enough'; omega) quoted
    refine ⟨congrArg (2 + lineLength rest + 1 + ·) equal, ?_⟩
    calc 2 + lineLength rest + 1 + gapLength bound more
        < 2 + (lineLength rest + (more.length + 1)) := by omega
      _ = ('-' :: '-' :: rest).length := by rw [← pieces, List.length_cons, List.length_cons]; omega
  | case4 bound c rest other space inductionHypothesis =>
    obtain ⟨fuel, rfl⟩ : ∃ fewer, fuel = fewer + 1 := ⟨fuel - 1, by simp at enough; omega⟩
    rw [List.cons_append, gapLength_space space, gapLength_space space] at quoted ⊢
    rw [Nat.add_comm 1, Nat.add_comm 1, List.drop_succ_cons, List.drop_succ_cons] at quoted
    obtain ⟨equal, before⟩ := inductionHypothesis
      (by simp only [List.length_append, List.length_cons] at enough ⊢; omega)
      (by simp only [List.length_cons] at enough'; omega) quoted
    simp only [List.length_cons]
    omega
  | case5 bound c rest other solid =>
    obtain ⟨fuel, rfl⟩ : ∃ fewer, fuel = fewer + 1 := ⟨fuel - 1, by simp at enough; omega⟩
    have noComment : ∀ more, c = '-' → rest ++ tail = '-' :: more → False := by
      rintro more rfl comment
      cases rest with
      | nil =>
        rw [List.nil_append] at comment
        exact noDash (comment ▸ List.mem_cons_self)
      | cons d rest =>
        obtain ⟨rfl, -⟩ := List.cons.inj comment
        exact other rest rfl rfl
    rw [List.cons_append, gapLength_other solid other, gapLength_other solid noComment]
    simp
  | case6 bound =>
    rcases quoted with quoted | quoted
    · exact absurd (lt_of_quote absent quoted) (by simp)
    · cases quoted

/-- Whether a literal goes on after a gap does not depend on a text without quotes behind it. -/
theorem continuation_append (absent : '\'' ∉ tail) (noDash : '-' ∉ tail) (u : List Char) :
    continuation (u ++ tail) = continuation u := by
  rw [continuation, continuation]
  by_cases quoted : ((u ++ tail).drop (gapLength (u ++ tail).length (u ++ tail))).head? =
      some '\'' ∨ (u.drop (gapLength u.length u)).head? = some '\''
  · obtain ⟨same, inside⟩ := gapLength_append absent noDash le_rfl le_rfl quoted
    rw [same, List.take_append_of_le_length inside.le, List.drop_append_of_le_length inside.le,
      List.head?_append_of_ne_nil]
    exact fun nothing => absurd (List.drop_eq_nil_iff.mp nothing) (by omega)
  · rw [not_or] at quoted
    rw [beq_false_of_ne quoted.1, beq_false_of_ne quoted.2, Bool.and_false, Bool.and_false,
      if_neg Bool.false_ne_true, if_neg Bool.false_ne_true]

/-- Where a literal goes on, the gap is not empty and is inside the text. -/
theorem continuation_bounds (continued : continuation s = some k) : 0 < k ∧ k ≤ s.length := by
  rw [continuation] at continued
  split_ifs at continued with quoted
  obtain rfl := Option.some.inj continued
  rw [Bool.and_eq_true, beq_iff_eq] at quoted
  have inside := @lt_of_quote s [] (gapLength s.length s) List.not_mem_nil
    (by rw [List.append_nil]; exact quoted.2)
  omega

/-- A literal is closed, and read, in the same way whatever follows the text. -/
theorem string_append (absent : '\'' ∉ tail) (noDash : '-' ∉ tail) {fuel bound : Nat}
    (enough : (u ++ tail).length ≤ fuel) (enough' : u.length ≤ bound) :
    stringCloses escapes fuel (u ++ tail) = stringCloses escapes bound u ∧
      (stringCloses escapes bound u = true →
        stringLength escapes fuel (u ++ tail) = stringLength escapes bound u ∧
          stringLength escapes bound u ≤ u.length) := by
  induction bound generalizing u fuel with
  | zero =>
    obtain rfl : u = [] := List.length_eq_zero_iff.mp (by omega)
    refine ⟨?_, nofun⟩
    cases fuel with
    | zero => rfl
    | succ fuel =>
      have open' : stringCloses escapes (fuel + 1) tail = false := by
        rw [stringCloses, quotedLength_absent absent]
      exact open'
  | succ bound inductionHypothesis =>
    cases fuel with
    | zero =>
      have nothing : u ++ tail = [] := List.length_eq_zero_iff.mp (by omega)
      obtain ⟨rfl, rfl⟩ := List.append_eq_nil_iff.mp nothing
      exact ⟨rfl, nofun⟩
    | succ fuel =>
      rw [stringCloses, stringCloses, stringLength, stringLength, quotedLength_append absent]
      cases closed : quotedLength '\'' escapes u with
      | none => exact ⟨rfl, nofun⟩
      | some length =>
        dsimp only
        have inside := quotedLength_le closed
        rw [List.drop_append_of_le_length inside, continuation_append absent noDash]
        cases continued : continuation (u.drop length) with
        | none => exact ⟨rfl, fun _ => ⟨rfl, inside⟩⟩
        | some gap =>
          dsimp only
          obtain ⟨positive, bounded⟩ := continuation_bounds continued
          rw [List.length_drop] at bounded
          rw [List.drop_append_of_le_length (by omega)]
          obtain ⟨closes, lengths⟩ := @inductionHypothesis (u.drop (length + gap)) fuel
            (by simp only [List.length_append, List.length_drop] at enough ⊢; omega)
            (by rw [List.length_drop]; omega)
          refine ⟨closes, fun all => ?_⟩
          obtain ⟨same, within⟩ := lengths all
          rw [List.length_drop] at within
          exact ⟨congrArg (length + gap + ·) same, by omega⟩

/-! ### Dollar quotes and comments -/

/-- A mark that closes a token in the longer text closes it in the text. -/
theorem isPrefixOf_append (absent : c ∉ tail) (start u : List Char) :
    (start ++ [c]).isPrefixOf (u ++ tail) = (start ++ [c]).isPrefixOf u := by
  rw [Bool.eq_iff_iff, List.isPrefixOf_iff_prefix, List.isPrefixOf_iff_prefix]
  constructor
  · intro within
    obtain ⟨more, whole⟩ := within
    rcases List.append_eq_append_iff.mp whole with ⟨beyond, same, -⟩ | ⟨beyond, same, inTail⟩
    · exact ⟨beyond, same.symm⟩
    · rcases List.eq_nil_or_concat beyond with rfl | ⟨init, last, rfl⟩
      · rw [List.append_nil] at same
        exact ⟨[], by rw [List.append_nil, same]⟩
      · rw [List.concat_eq_append, ← List.append_assoc] at same
        obtain ⟨-, rfl⟩ := List.append_inj' same rfl |>.imp_right List.singleton_inj.mp
        exact absurd (inTail ▸ by simp) absent
  · exact fun within => within.trans (List.prefix_append u tail)

/-- Without a dollar sign no tag closes. -/
theorem dollarCloses_absent (absent : '$' ∉ s) : dollarCloses tag s = false := by
  induction s with
  | nil => rfl
  | cons d rest inductionHypothesis =>
    have mark := isPrefixOf_append absent ('$' :: tag) []
    rw [List.nil_append] at mark
    have later := inductionHypothesis (fun member => absent (List.mem_cons_of_mem _ member))
    rw [dollarCloses, mark, later]
    rfl

/-- A literal between tags is closed at the same place when a text without dollar signs follows. -/
theorem dollar_append (absent : '$' ∉ tail) (u : List Char) :
    dollarCloses tag (u ++ tail) = dollarCloses tag u ∧
      (dollarCloses tag u = true → dollarLength tag (u ++ tail) = dollarLength tag u ∧
        dollarLength tag u ≤ u.length) := by
  induction u with
  | nil => exact ⟨dollarCloses_absent absent, nofun⟩
  | cons d rest inductionHypothesis =>
    obtain ⟨closes, lengths⟩ := inductionHypothesis
    have mark : ('$' :: tag ++ ['$']).isPrefixOf (d :: (rest ++ tail)) =
        ('$' :: tag ++ ['$']).isPrefixOf (d :: rest) :=
      isPrefixOf_append absent ('$' :: tag) (d :: rest)
    rw [List.cons_append, dollarCloses, dollarCloses, dollarLength, dollarLength, mark, closes]
    refine ⟨rfl, fun closed => ?_⟩
    by_cases ends : ('$' :: tag ++ ['$']).isPrefixOf (d :: rest) = true
    · have length := (List.isPrefixOf_iff_prefix.mp ends).length_le
      rw [if_pos ends, if_pos ends]
      exact ⟨rfl, by simpa using length⟩
    · rw [Bool.or_eq_true, or_iff_right ends] at closed
      obtain ⟨same, inside⟩ := lengths closed
      rw [if_neg ends, if_neg ends, same, List.length_cons]
      exact ⟨rfl, by omega⟩

/-- Without a slash no comment in brackets closes. -/
theorem blockCloses_absent (noSlash : '/' ∉ s) (depth : Nat) :
    blockCloses (depth + 1) s = false := by
  induction s with
  | nil => rfl
  | cons d rest inductionHypothesis =>
    have later := inductionHypothesis (fun member => noSlash (List.mem_cons_of_mem _ member))
    rw [blockCloses.eq_4, later]
    · rintro rest rfl rfl
      exact noSlash (by simp)
    · rintro rest rfl rfl
      exact noSlash (by simp)

/-- A comment in brackets is closed at the same place when a text without its signs follows. -/
theorem block_append (noStar : '*' ∉ tail) (noSlash : '/' ∉ tail) (depth : Nat) (u : List Char) :
    blockCloses depth (u ++ tail) = blockCloses depth u ∧
      (blockCloses depth u = true → blockLength depth (u ++ tail) = blockLength depth u ∧
        blockLength depth u ≤ u.length) := by
  induction depth, u using blockLength.induct with
  | case1 u =>
    rw [blockCloses, blockCloses, blockLength, blockLength]
    exact ⟨rfl, fun _ => ⟨rfl, Nat.zero_le _⟩⟩
  | case2 depth rest inductionHypothesis =>
    obtain ⟨closes, lengths⟩ := inductionHypothesis
    refine ⟨closes, fun closed => ?_⟩
    obtain ⟨same, inside⟩ := lengths closed
    exact ⟨congrArg (2 + ·) same, by rw [blockLength]; simp only [List.length_cons]; omega⟩
  | case3 depth rest inductionHypothesis =>
    obtain ⟨closes, lengths⟩ := inductionHypothesis
    refine ⟨closes, fun closed => ?_⟩
    obtain ⟨same, inside⟩ := lengths closed
    exact ⟨congrArg (2 + ·) same, by rw [blockLength]; simp only [List.length_cons]; omega⟩
  | case4 depth d rest noEnd noStart inductionHypothesis =>
    have noEnd' : ∀ more, d = '*' → rest ++ tail = '/' :: more → False := by
      intro more star slash
      cases rest with
      | nil =>
        rw [List.nil_append] at slash
        exact noSlash (slash ▸ List.mem_cons_self)
      | cons e rest =>
        obtain ⟨rfl, -⟩ := List.cons.inj slash
        exact noEnd rest star rfl
    have noStart' : ∀ more, d = '/' → rest ++ tail = '*' :: more → False := by
      intro more slash star
      cases rest with
      | nil =>
        rw [List.nil_append] at star
        exact noStar (star ▸ List.mem_cons_self)
      | cons e rest =>
        obtain ⟨rfl, -⟩ := List.cons.inj star
        exact noStart rest slash rfl
    obtain ⟨closes, lengths⟩ := inductionHypothesis
    rw [List.cons_append, blockCloses.eq_4 _ _ _ noEnd noStart,
      blockCloses.eq_4 _ _ _ noEnd' noStart', blockLength.eq_4 _ _ _ noEnd noStart,
      blockLength.eq_4 _ _ _ noEnd' noStart']
    refine ⟨closes, fun closed => ?_⟩
    obtain ⟨same, inside⟩ := lengths closed
    exact ⟨congrArg (1 + ·) same, by simp only [List.length_cons]; omega⟩
  | case5 depth => exact ⟨blockCloses_absent noSlash depth, nofun⟩

/-! ### Runs of characters -/

/-- A run ends at the end of a text if what follows does not begin with one of its characters. -/
theorem takeWhile_stop {p : Char → Bool} (stop : ∀ c ∈ tail.head?, p c = false) (u : List Char) :
    (u ++ tail).takeWhile p = u.takeWhile p := by
  have nothing : tail.takeWhile p = [] := by
    cases tail with
    | nil => rfl
    | cons d more => rw [List.takeWhile_cons, stop d rfl, if_neg Bool.false_ne_true]
  rw [List.takeWhile_append, nothing, List.append_nil]
  split_ifs with whole
  · exact (List.IsPrefix.eq_of_length (List.takeWhile_prefix p) whole).symm
  · rfl

/-- A run stops in the text, or goes on in what follows. -/
theorem takeWhile_length (p : Char → Bool) (u tail : List Char) :
    ((u ++ tail).takeWhile p).length = (u.takeWhile p).length ∨
      (u.takeWhile p).length = u.length ∧
        ((u ++ tail).takeWhile p).length = u.length + (tail.takeWhile p).length := by
  rw [List.takeWhile_append]
  split_ifs with whole
  · exact .inr ⟨whole, List.length_append⟩
  · exact .inl rfl

/-- A run is no longer than the text. -/
theorem takeWhile_le (p : Char → Bool) (u : List Char) : (u.takeWhile p).length ≤ u.length :=
  (List.takeWhile_prefix p).length_le

namespace Bland

variable (bland : Bland tail)

include bland

/-- A bland text does not begin with a mark. -/
theorem head_ne {mark : Char} (member : mark ∈ marks) : tail.head? ≠ some mark :=
  fun first => bland.unmarked mark member (List.mem_of_mem_head? first)

/-- A mark that comes next in the longer text comes next in the text. -/
theorem head_append {mark : Char} (member : mark ∈ marks) (u : List Char) :
    (u ++ tail).head? = some mark ↔ u.head? = some mark := by
  cases u with
  | nil => exact iff_of_false (bland.head_ne member) nofun
  | cons d more => exact Iff.rfl

/-- Nor does it begin with a digit, so that a text begins with one whether it goes on or not. -/
theorem digit_append (u : List Char) : (u ++ tail).head?.any isDigit = u.head?.any isDigit := by
  cases u with
  | nil =>
    cases first : tail.head? with
    | none => rw [List.nil_append, first]; rfl
    | some c => rw [List.nil_append, first, Option.any_some, (bland.start c first).1]; rfl
  | cons d more => rfl

/-- So the digits at the front of a text stay the same. -/
theorem digits_append (u : List Char) : (u ++ tail).takeWhile isDigit = u.takeWhile isDigit :=
  takeWhile_stop (fun c first => (bland.start c first).1) u

/-- The fraction of a number stays the same when a bland text follows. -/
theorem fractionLength_append (u : List Char) :
    fractionLength (u ++ tail) = fractionLength u ∧ fractionLength u ≤ u.length := by
  cases u with
  | nil =>
    have plain : ∀ more, tail = '.' :: more → False := by
      rintro more rfl
      exact bland.unmarked '.' (by decide) List.mem_cons_self
    exact ⟨fractionLength.eq_2 tail plain, le_rfl⟩
  | cons d more =>
    by_cases point : d = '.'
    · subst point
      have inside := takeWhile_le isDigit more
      constructor
      · exact congrArg (1 + List.length ·) (bland.digits_append more)
      · rw [fractionLength, List.length_cons]
        omega
    · have plain (text : List Char) : fractionLength (d :: text) = 0 :=
        fractionLength.eq_2 _ (fun rest same => point (List.cons.inj same).1)
      rw [List.cons_append, plain, plain]
      exact ⟨rfl, Nat.zero_le _⟩

/-- So does its exponent: it needs a digit, which a bland text does not begin with. -/
theorem exponentLength_append (u : List Char) :
    exponentLength (u ++ tail) = exponentLength u ∧ exponentLength u ≤ u.length := by
  cases u with
  | nil =>
    refine ⟨?_, le_rfl⟩
    cases tail with
    | nil => rfl
    | cons d more =>
      obtain ⟨-, lower, upper⟩ := bland.start d rfl
      rw [List.nil_append, exponentLength, if_neg (not_or.mpr ⟨lower, upper⟩)]
      rfl
  | cons e more =>
    rw [List.cons_append, exponentLength, exponentLength]
    by_cases mark : e = 'e' ∨ e = 'E'
    · rw [if_pos mark, if_pos mark]
      simp only [bland.head_append (show '+' ∈ marks by decide) more,
        bland.head_append (show '-' ∈ marks by decide) more]
      generalize signs : (if more.head? = some '+' ∨ more.head? = some '-' then 1 else 0) = sign
      have inside : sign ≤ more.length := by
        rw [← signs]
        split_ifs with signed
        · cases more with
          | nil => simp at signed
          | cons d more => simp
        · exact Nat.zero_le _
      rw [List.drop_append_of_le_length inside, bland.digits_append]
      have bound := takeWhile_le isDigit (more.drop sign)
      rw [List.length_drop] at bound
      refine ⟨rfl, ?_⟩
      rw [List.length_cons]
      split_ifs <;> omega
    · rw [if_neg mark, if_neg mark]
      exact ⟨rfl, Nat.zero_le _⟩

/-- So does the whole number. -/
theorem numberLength_append (u : List Char) :
    numberLength (u ++ tail) = numberLength u ∧ numberLength u ≤ u.length := by
  have whole := takeWhile_le isDigit u
  obtain ⟨fraction, within⟩ :=
    bland.fractionLength_append (u.drop (u.takeWhile isDigit).length)
  rw [List.length_drop] at within
  obtain ⟨exponent, within'⟩ := bland.exponentLength_append (u.drop ((u.takeWhile isDigit).length +
    fractionLength (u.drop (u.takeWhile isDigit).length)))
  rw [List.length_drop] at within'
  rw [numberLength, numberLength, bland.digits_append, List.drop_append_of_le_length whole,
    fraction, List.drop_append_of_le_length (by omega), exponent]
  exact ⟨rfl, by omega⟩

/-- A dollar tag is one within the text: its second sign cannot come from what follows. -/
theorem dollarTag_append (u : List Char) : dollarTag (u ++ tail) = dollarTag u := by
  have bound := takeWhile_le continuesTag u
  rw [dollarTag, dollarTag, List.takeWhile_append]
  by_cases whole : (u.takeWhile continuesTag).length = u.length
  · -- No dollar comes after a tag that goes on to the end.
    have beyond :
        ((u ++ tail).drop (u ++ tail.takeWhile continuesTag).length).head? ≠ some '$' := by
      rw [List.length_append, List.drop_append, List.drop_of_length_le (by omega), List.nil_append]
      intro first
      exact bland.unmarked '$' (by decide) (List.mem_of_mem_drop (List.mem_of_mem_head? first))
    have nothing : (u.drop (u.takeWhile continuesTag).length).head? ≠ some '$' := by
      rw [whole, List.drop_length]
      exact nofun
    rw [if_pos whole, if_neg, if_neg]
    · rw [Bool.and_eq_true, decide_eq_true_eq]
      exact fun both => nothing both.1
    · rw [Bool.and_eq_true, decide_eq_true_eq]
      exact fun both => beyond both.1
  · rw [if_neg whole, List.drop_append_of_le_length bound, List.head?_append_of_ne_nil]
    rw [Ne, List.drop_eq_nil_iff]
    omega

end Bland

/-- A text with a first character is not empty. -/
theorem one_le_of_head (first : s.head? = some c) : 1 ≤ s.length := by
  cases s with
  | nil => cases first
  | cons d more => simp

/-- A tag and its second sign are inside the text. -/
theorem dollarTag_length (opens : dollarTag s = some tag) : tag.length + 1 ≤ s.length := by
  rw [dollarTag] at opens
  split_ifs at opens with marked
  obtain rfl := Option.some.inj opens
  rw [Bool.and_eq_true, decide_eq_true_eq] at marked
  have more : s.drop (s.takeWhile continuesTag).length ≠ [] := by
    intro nothing
    rw [nothing] at marked
    cases marked.1
  rw [Ne, List.drop_eq_nil_iff] at more
  omega

/-! ## Lexemes on a text that goes on -/

/-- How far a lexeme that reaches the end of a text goes on in what follows. -/
def extent : Kind → List Char → Nat
  | .space, tail => (tail.takeWhile isSpace).length
  | .comment, tail => lineLength tail
  | .name, tail => (tail.takeWhile continuesName).length
  | _, _ => 0

/-- Whether a lexeme is closed does not depend on what follows the text. The cases are those of the
first character. -/
theorem closes_append (bland : Bland tail) (c : Char) (rest : List Char) :
    closes c (rest ++ tail) = closes c rest := by
  have noQuote : '\'' ∉ tail := bland.unmarked _ (by decide)
  have noDash : '-' ∉ tail := bland.unmarked _ (by decide)
  rw [closes, closes]
  simp only [bland.head_append (show '*' ∈ marks by decide) rest,
    bland.head_append (show '\'' ∈ marks by decide) rest]
  by_cases block : c = '/' ∧ rest.head? = some '*'
  · rw [if_pos block, if_pos block, List.drop_append_of_le_length (one_le_of_head block.2)]
    exact (block_append (bland.unmarked _ (by decide)) (bland.unmarked _ (by decide)) _ _).1
  rw [if_neg block, if_neg block]
  by_cases string : c = '\''
  · rw [if_pos string, if_pos string]
    exact (string_append noQuote noDash le_rfl le_rfl).1
  rw [if_neg string, if_neg string]
  by_cases escape : (c = 'e' ∨ c = 'E') ∧ rest.head? = some '\''
  · rw [if_pos escape, if_pos escape, List.drop_append_of_le_length (one_le_of_head escape.2)]
    exact (string_append noQuote noDash (by simp) (by simp)).1
  rw [if_neg escape, if_neg escape]
  by_cases name : c = '"'
  · rw [if_pos name, if_pos name, quotedLength_append (bland.unmarked _ (by decide))]
  rw [if_neg name, if_neg name]
  by_cases dollar : c = '$'
  · rw [if_pos dollar, if_pos dollar, bland.dollarTag_append]
    cases opens : dollarTag rest with
    | none => rfl
    | some tag =>
      dsimp only
      rw [List.drop_append_of_le_length (dollarTag_length opens)]
      exact (dollar_append (bland.unmarked _ (by decide)) _).1
  · rw [if_neg dollar, if_neg dollar]

/-- A lexeme in a text that goes on: it is found as in the text alone, or it is a run to the end of
the text and goes on in what follows. -/
structure Carries (tail : List Char) (length : Nat) (found longer : Kind × Nat) : Prop where
  inside : found.2 ≤ length
  same_or_longer : longer = found ∨
    found.2 = length ∧ longer = (found.1, length + extent found.1 tail)

/-- A lexeme that ends inside the text is found as before. -/
theorem Carries.of_same {length : Nat} {found longer : Kind × Nat} (inside : found.2 ≤ length)
    (same : longer = found) : Carries tail length found longer :=
  ⟨inside, .inl same⟩

/-- A run of characters. -/
theorem Carries.run {kind : Kind} {p : Char → Bool}
    (runs : extent kind tail = (tail.takeWhile p).length) (rest : List Char) :
    Carries tail rest.length (kind, (rest.takeWhile p).length)
      (kind, ((rest ++ tail).takeWhile p).length) := by
  refine ⟨takeWhile_le p rest, ?_⟩
  rcases takeWhile_length p rest tail with same | ⟨whole, goesOn⟩
  · exact .inl (by rw [same])
  · exact .inr ⟨whole, by rw [goesOn, ← runs]⟩

/-- A comment to the end of its line. -/
theorem Carries.line (dash : rest.head? = some '-') :
    Carries tail rest.length (.comment, 1 + lineLength (rest.drop 1))
      (.comment, 1 + lineLength ((rest ++ tail).drop 1)) := by
  have one := one_le_of_head dash
  have bound := takeWhile_le (fun c => !isNewline c) (rest.drop 1)
  rw [List.length_drop] at bound
  rw [List.drop_append_of_le_length one]
  refine ⟨by dsimp only; rw [lineLength]; omega, ?_⟩
  rcases takeWhile_length (fun c => !isNewline c) (rest.drop 1) tail with same | ⟨whole, goesOn⟩
  · exact .inl (by rw [lineLength, same, ← lineLength])
  · rw [List.length_drop] at whole goesOn
    refine .inr ⟨by dsimp only; rw [lineLength]; omega, Prod.ext rfl ?_⟩
    show 1 + lineLength (rest.drop 1 ++ tail) = rest.length + lineLength tail
    rw [lineLength, goesOn, ← lineLength]
    omega

/-- A comment that is closed. -/
theorem Carries.block (bland : Bland tail) (star : rest.head? = some '*')
    (closed : blockCloses 1 (rest.drop 1) = true) :
    Carries tail rest.length (.comment, 1 + blockLength 1 (rest.drop 1))
      (.comment, 1 + blockLength 1 ((rest ++ tail).drop 1)) := by
  have one := one_le_of_head star
  obtain ⟨-, lengths⟩ := @block_append tail (bland.unmarked _ (by decide))
    (bland.unmarked _ (by decide)) 1 (rest.drop 1)
  obtain ⟨same, inside⟩ := lengths closed
  rw [List.length_drop] at inside
  rw [List.drop_append_of_le_length one, same]
  exact .of_same (by dsimp only; omega) rfl

/-- A number that begins with its point. -/
theorem Carries.point (bland : Bland tail) (rest : List Char) :
    Carries tail rest.length
      (.number, (rest.takeWhile isDigit).length +
        exponentLength (rest.drop (rest.takeWhile isDigit).length))
      (.number, ((rest ++ tail).takeWhile isDigit).length +
        exponentLength ((rest ++ tail).drop ((rest ++ tail).takeWhile isDigit).length)) := by
  have bound := takeWhile_le isDigit rest
  obtain ⟨same, inside⟩ := bland.exponentLength_append (rest.drop (rest.takeWhile isDigit).length)
  rw [List.length_drop] at inside
  rw [bland.digits_append, List.drop_append_of_le_length bound, same]
  exact .of_same (by dsimp only; omega) rfl

/-- What a dollar sign begins. -/
def dollarScan (rest : List Char) : Kind × Nat :=
  match dollarTag rest with
  | some tag => (.literal, tag.length + 1 + dollarLength tag (rest.drop (tag.length + 1)))
  | none => (.symbol, (rest.takeWhile isDigit).length)

/-- A dollar sign with its literal, which is closed, or with a number. -/
theorem Carries.dollar (bland : Bland tail)
    (closed : ∀ tag, dollarTag rest = some tag →
      dollarCloses tag (rest.drop (tag.length + 1)) = true) :
    Carries tail rest.length (dollarScan rest) (dollarScan (rest ++ tail)) := by
  rw [dollarScan, dollarScan, bland.dollarTag_append]
  cases opens : dollarTag rest with
  | none =>
    dsimp only
    rw [bland.digits_append]
    exact .of_same (takeWhile_le isDigit rest) rfl
  | some tag =>
    have room := dollarTag_length opens
    obtain ⟨-, lengths⟩ := @dollar_append tail tag (bland.unmarked _ (by decide))
      (rest.drop (tag.length + 1))
    obtain ⟨same, inside⟩ := lengths (closed tag opens)
    rw [List.length_drop] at inside
    dsimp only
    rw [List.drop_append_of_le_length room, same]
    exact .of_same (by dsimp only; omega) rfl

/-- A closed lexeme is found whatever follows the text; only its run to the end of the text goes
on. -/
theorem scan_append (bland : Bland tail) (closed : closes c rest = true) :
    Carries tail rest.length (scan c rest) (scan c (rest ++ tail)) := by
  have noQuote : '\'' ∉ tail := bland.unmarked _ (by decide)
  have noDash : '-' ∉ tail := bland.unmarked _ (by decide)
  rw [closes] at closed
  rw [scan, scan]
  simp only [bland.head_append (show '*' ∈ marks by decide) rest,
    bland.head_append (show '-' ∈ marks by decide) rest,
    bland.head_append (show '\'' ∈ marks by decide) rest, bland.digit_append]
  by_cases space : isSpace c = true
  · rw [if_pos space, if_pos space]
    exact .run rfl rest
  rw [if_neg space, if_neg space]
  by_cases line : c = '-' ∧ rest.head? = some '-'
  · rw [if_pos line, if_pos line]
    exact .line line.2
  rw [if_neg line, if_neg line]
  by_cases block : c = '/' ∧ rest.head? = some '*'
  · rw [if_pos block] at closed
    rw [if_pos block, if_pos block]
    exact .block bland block.2 closed
  rw [if_neg block] at closed
  rw [if_neg block, if_neg block]
  by_cases string : c = '\''
  · rw [if_pos string] at closed
    obtain ⟨-, lengths⟩ := @string_append rest tail false noQuote noDash _ _ le_rfl le_rfl
    obtain ⟨same, inside⟩ := lengths closed
    rw [if_pos string, if_pos string, same]
    exact .of_same inside rfl
  rw [if_neg string] at closed
  rw [if_neg string, if_neg string]
  by_cases escape : (c = 'e' ∨ c = 'E') ∧ rest.head? = some '\''
  · have one := one_le_of_head escape.2
    rw [if_pos escape] at closed
    obtain ⟨-, lengths⟩ := @string_append (rest.drop 1) tail true noQuote noDash
      (rest ++ tail).length rest.length (by simp) (by simp)
    obtain ⟨same, inside⟩ := lengths closed
    rw [List.length_drop] at inside
    rw [if_pos escape, if_pos escape, List.drop_append_of_le_length one, same]
    exact .of_same (by dsimp only; omega) rfl
  rw [if_neg escape] at closed
  rw [if_neg escape, if_neg escape]
  by_cases quoted : c = '"'
  · rw [if_pos quoted] at closed
    obtain ⟨length, found⟩ := Option.isSome_iff_exists.mp closed
    rw [if_pos quoted, if_pos quoted, quotedLength_append (bland.unmarked _ (by decide)), found]
    exact .of_same (quotedLength_le found) rfl
  rw [if_neg quoted] at closed
  rw [if_neg quoted, if_neg quoted]
  by_cases name : startsName c = true
  · rw [if_pos name, if_pos name]
    exact .run rfl rest
  rw [if_neg name, if_neg name]
  by_cases digit : isDigit c = true
  · obtain ⟨same, inside⟩ := bland.numberLength_append rest
    rw [if_pos digit, if_pos digit, same]
    exact .of_same inside rfl
  rw [if_neg digit, if_neg digit]
  by_cases point : c = '.' ∧ rest.head?.any isDigit = true
  · rw [if_pos point, if_pos point]
    exact .point bland rest
  rw [if_neg point, if_neg point]
  by_cases dollar : c = '$'
  · rw [if_pos dollar] at closed
    rw [if_pos dollar, if_pos dollar]
    refine .dollar bland fun tag opens => ?_
    rw [opens] at closed
    exact closed
  · rw [if_neg dollar, if_neg dollar]
    exact .of_same (Nat.zero_le _) rfl

/-! ## Texts that go on -/

/-- The lexemes of a text that comes after another. -/
def lexAt (before s : List Char) : List Lexeme := lexFrom s.length before s

/-- The lexeme after more text. -/
def Lexeme.shift (start : List Char) (t : Lexeme) : Lexeme := { t with before := start ++ t.before }

/-- The lexeme before more text. -/
def Lexeme.extend (tail : List Char) (t : Lexeme) : Lexeme := { t with after := t.after ++ tail }

/-- As much fuel as there are characters is enough. -/
theorem lexFrom_enough {fuel bound : Nat} {before s : List Char} (enough : s.length ≤ fuel)
    (enough' : s.length ≤ bound) : lexFrom fuel before s = lexFrom bound before s := by
  induction fuel generalizing bound before s with
  | zero =>
    obtain rfl : s = [] := List.length_eq_zero_iff.mp (by omega)
    cases bound <;> rfl
  | succ fuel inductionHypothesis =>
    cases s with
    | nil => cases bound <;> rfl
    | cons c rest =>
      cases bound with
      | zero => cases enough'
      | succ bound =>
        rw [lexFrom, lexFrom]
        simp only [List.length_cons] at enough enough'
        rw [@inductionHypothesis bound _ _ (by rw [List.length_drop]; omega)
          (by rw [List.length_drop]; omega)]

/-- The end of a text has no lexemes. -/
theorem lexAt_nil (before : List Char) : lexAt before [] = [] := rfl

/-- A text is its first lexeme and the lexemes of the rest. -/
theorem lexAt_cons (before : List Char) (c : Char) (rest : List Char) :
    lexAt before (c :: rest) =
      ⟨before, (scan c rest).1, c :: rest.take (scan c rest).2, rest.drop (scan c rest).2⟩ ::
        lexAt (before ++ c :: rest.take (scan c rest).2) (rest.drop (scan c rest).2) := by
  rw [lexAt, List.length_cons, lexFrom]
  rw [lexFrom_enough (List.length_drop ▸ Nat.sub_le _ _) le_rfl, lexAt]

/-- What holds of the rest after each lexeme holds of a text. -/
theorem lex_induction {motive : List Char → Prop} (nil : motive [])
    (cons : ∀ c rest, motive (rest.drop (scan c rest).2) → motive (c :: rest)) (s : List Char) :
    motive s := by
  induction bound : s.length using Nat.strong_induction_on generalizing s with
  | _ length inductionHypothesis =>
    cases s with
    | nil => exact nil
    | cons c rest =>
      have shorter : (rest.drop (scan c rest).2).length < length := by
        rw [← bound, List.length_drop, List.length_cons]
        omega
      exact cons c rest (inductionHypothesis _ shorter _ rfl)

/-- More text before only moves the places of the lexemes. -/
theorem lexAt_shift (start before s : List Char) :
    lexAt (start ++ before) s = (lexAt before s).map (Lexeme.shift start) := by
  induction s using lex_induction generalizing before with
  | nil => rfl
  | cons c rest inductionHypothesis =>
    rw [lexAt_cons, lexAt_cons, List.map_cons, ← inductionHypothesis, List.append_assoc]
    rfl

/-- So the lexemes after a text are those of the rest, moved. -/
theorem lexAt_eq (before s : List Char) : lexAt before s = (lex s).map (Lexeme.shift before) := by
  rw [← List.append_nil before, lexAt_shift, List.append_nil]
  rfl

/-! ### Completeness -/

/-- Nothing is left open in no text. -/
theorem complete_nil : Complete [] := fun _ member => by cases member

/-- A text is complete if its first lexeme is closed and the rest is complete. -/
theorem complete_cons (c : Char) (rest : List Char) :
    Complete (c :: rest) ↔ closes c rest = true ∧ Complete (rest.drop (scan c rest).2) := by
  have whole : lex (c :: rest) = _ := lexAt_cons [] c rest
  rw [Complete, whole, List.forall_mem_cons, lexAt_eq, List.forall_mem_map]
  refine and_congr ?_ Iff.rfl
  rw [Lexeme.closed]
  simp only [List.cons_append, List.take_append_drop]

/-- A text without marks is complete. -/
theorem complete_unmarked (unmarked : ∀ mark ∈ marks, mark ∉ s) : Complete s := by
  induction s using lex_induction with
  | nil => exact complete_nil
  | cons c rest inductionHypothesis =>
    have other {mark : Char} (member : mark ∈ marks) : c ≠ mark :=
      fun same => unmarked mark member (same ▸ List.mem_cons_self)
    refine (complete_cons c rest).mpr ⟨?_, inductionHypothesis fun mark member inRest =>
      unmarked mark member (List.mem_cons_of_mem _ (List.mem_of_mem_drop inRest))⟩
    rw [closes, if_neg (fun both => other (by decide) both.1), if_neg (other (by decide)), if_neg,
      if_neg (other (by decide)), if_neg (other (by decide))]
    exact fun both =>
      unmarked '\'' (by decide) (List.mem_cons_of_mem _ (List.mem_of_mem_head? both.2))

/-- A bland text neither closes nor opens anything. By induction over the lexemes. -/
theorem complete_append (bland : Bland tail) (u : List Char) :
    Complete (u ++ tail) ↔ Complete u := by
  induction u using lex_induction with
  | nil => exact iff_of_true (complete_unmarked bland.unmarked) complete_nil
  | cons c rest inductionHypothesis =>
    rw [List.cons_append, complete_cons, complete_cons, closes_append bland]
    refine and_congr_right fun closed => ?_
    obtain ⟨inside, same | ⟨whole, goesOn⟩⟩ := scan_append bland closed
    · rw [same, List.drop_append_of_le_length inside, inductionHypothesis]
    · rw [goesOn, List.drop_length_add_append, whole, List.drop_length]
      refine iff_of_true (complete_unmarked fun mark member inTail => ?_) complete_nil
      exact bland.unmarked mark member (List.mem_of_mem_drop inTail)

/-! ### Lexemes -/

/-- The lexemes of a complete text stay the same when it goes on, apart from the last, which may
reach into what follows. -/
theorem lexAt_append (bland : Bland tail) {u : List Char} (complete : Complete u)
    (before : List Char) :
    lexAt before (u ++ tail) =
        (lexAt before u).map (Lexeme.extend tail) ++ lexAt (before ++ u) tail ∨
      ∃ front last, lexAt before u = front ++ [last] ∧ last.after = [] ∧
        lexAt before (u ++ tail) = front.map (Lexeme.extend tail) ++
          ⟨last.before, last.kind, last.text ++ tail.take (extent last.kind tail),
            tail.drop (extent last.kind tail)⟩ ::
          lexAt (before ++ u ++ tail.take (extent last.kind tail))
            (tail.drop (extent last.kind tail)) := by
  induction u using lex_induction generalizing before with
  | nil => exact .inl (by rw [List.append_nil]; rfl)
  | cons c rest inductionHypothesis =>
    obtain ⟨closed, later⟩ := (complete_cons c rest).mp complete
    rw [List.cons_append, lexAt_cons, lexAt_cons]
    obtain ⟨inside, same | ⟨whole, goesOn⟩⟩ := scan_append bland closed
    · rw [same, List.take_append_of_le_length inside, List.drop_append_of_le_length inside]
      have pieces : before ++ c :: rest.take (scan c rest).2 ++ rest.drop (scan c rest).2 =
          before ++ c :: rest := by
        rw [List.append_assoc, List.cons_append, List.take_append_drop]
      rcases inductionHypothesis later (before ++ c :: rest.take (scan c rest).2) with
        steady | ⟨front, last, lexemes, ends, reaching⟩
      · left
        rw [steady, pieces]
        rfl
      · right
        refine ⟨_ :: front, last, by rw [lexemes]; rfl, ends, ?_⟩
        rw [reaching, pieces]
        rfl
    · right
      refine ⟨[], _, by rw [whole, List.drop_length, lexAt_nil]; rfl, rfl, ?_⟩
      rw [goesOn, List.take_length_add_append, List.drop_length_add_append, List.take_length]
      simp only [List.map_nil, List.nil_append, List.cons_append, List.append_assoc]

end SqlLexer
