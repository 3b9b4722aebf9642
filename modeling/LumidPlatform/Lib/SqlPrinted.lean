import LumidPlatform.Lib.SqlStatements

/-!
# Printed words

A text put together from fixed parts, quoted names and numbers is read piece by piece: each
piece is read by itself where nothing that it ends with goes on in the next one. A quoted name
is read as one word whatever is in it, and that word denotes the name.
-/

namespace SqlLexer

variable {c : Char} {u tail rest : List Char}

/-! ## Symbols and names -/

/-- The symbols that stand for themselves whatever follows. -/
def separators : List Char := ['(', ')', ',', ';', '=']

theorem scan_separator (separator : c ∈ separators) (rest : List Char) :
    scan c rest = (.symbol, 0) := by
  simp only [separators, List.mem_cons, List.not_mem_nil, or_false] at separator
  rcases separator with rfl | rfl | rfl | rfl | rfl <;> rfl

theorem scan_dot (stop : ∀ d ∈ rest.head?, isDigit d = false) : scan '.' rest = (.symbol, 0) := by
  cases rest with
  | nil => rfl
  | cons d more =>
    have plain : isDigit d = false := stop d rfl
    have point : ¬('.' = '.' ∧ (d :: more).head?.any isDigit = true) := by
      rw [List.head?_cons, Option.any_some, plain]
      decide
    rw [scan, if_neg (by decide), if_neg (by simp), if_neg (by simp), if_neg (by decide),
      if_neg (by simp), if_neg (by decide), if_neg (by decide), if_neg (by decide), if_neg point,
      if_neg (by decide)]

/-- The characters that begin a lexeme of another kind than a name. -/
theorem startsName_other (first : startsName c = true) {mark : Char}
    (other : startsName mark = false) : c ≠ mark := by
  rintro rfl
  rw [first] at other
  cases other

theorem startsName_solid (first : startsName c = true) : isSpace c = false := by
  have other {mark : Char} (foreign : startsName mark = false) : c ≠ mark :=
    startsName_other first foreign
  have range : (65 ≤ c.toNat ∧ c.toNat ≤ 90) ∨ (97 ≤ c.toNat ∧ c.toNat ≤ 122) ∨ c = '_' ∨
      128 ≤ c.toNat := by
    simpa only [startsName, Bool.or_eq_true, Bool.and_eq_true, decide_eq_true_eq, beq_iff_eq,
      or_assoc] using first
  have high : 65 ≤ c.toNat := by
    rcases range with upper | lower | rfl | foreign
    · omega
    · omega
    · decide
    · omega
  have solid : c.toNat ≠ 11 ∧ c.toNat ≠ 12 := by omega
  simp only [isSpace, Bool.or_eq_false_iff, beq_eq_false_iff_ne]
  exact ⟨⟨⟨⟨⟨other rfl, other rfl⟩, other rfl⟩, other rfl⟩, solid.1⟩, solid.2⟩

/-- A letter begins a name, unless it announces a string. -/
theorem scan_name (first : startsName c = true)
    (plain : c = 'e' ∨ c = 'E' → rest.head? ≠ some '\'') :
    scan c rest = (.name, (rest.takeWhile continuesName).length) := by
  have other {mark : Char} (foreign : startsName mark = false) : c ≠ mark :=
    startsName_other first foreign
  rw [scan, if_neg (Bool.eq_false_iff.mp (startsName_solid first)),
    if_neg (fun both => other rfl both.1), if_neg (fun both => other rfl both.1),
    if_neg (other rfl), if_neg (fun both => plain both.1 both.2), if_neg (other rfl), if_pos first]

/-! ## Parts of a text -/

/-- A character of a fixed part: of a name, between words, or a separator. -/
def tame (c : Char) : Bool := isSpace c || startsName c || separators.contains c || c == '.'

/-- No word reaches from one part into the next. -/
def Apart (u tail : List Char) : Prop :=
  (∀ c ∈ u.getLast?, continuesName c = false ∧ c ≠ '.') ∨
    ∀ c ∈ tail.head?, continuesName c = false ∧ c ≠ '\''

theorem Apart.drop (apart : Apart (c :: rest) tail) (n : Nat) : Apart (rest.drop n) tail := by
  rcases apart with ends | begins
  · left
    intro d last
    rw [List.getLast?_drop] at last
    split_ifs at last with short
    · cases last
    · cases rest with
      | nil => exact absurd (Nat.zero_le n) short
      | cons e more =>
        apply ends
        rw [List.getLast?_cons_cons]
        exact last
  · exact Or.inr begins

theorem tame_head (part : ∀ d ∈ rest, tame d = true) {d : Char} (first : rest.head? = some d) :
    isDigit d = false ∧ d ≠ '\'' := by
  have inPart := part d (List.mem_of_mem_head? first)
  constructor
  · by_contra digit
    rw [Bool.not_eq_false] at digit
    have range : 48 ≤ d.toNat ∧ d.toNat ≤ 57 := by
      simpa only [isDigit, Bool.and_eq_true, decide_eq_true_eq] using digit
    have other {mark : Char} (foreign : isDigit mark = false) : d ≠ mark := by
      rintro rfl
      rw [digit] at foreign
      cases foreign
    simp only [tame, isSpace, startsName, separators, List.contains_cons, List.contains_nil,
      Bool.or_eq_true, Bool.and_eq_true, decide_eq_true_eq, beq_iff_eq, @other ' ' rfl,
      @other '\t' rfl, @other '\n' rfl, @other '\r' rfl, @other '_' rfl, @other '(' rfl,
      @other ')' rfl, @other ',' rfl, @other ';' rfl, @other '=' rfl, @other '.' rfl, false_or,
      or_false, Bool.false_eq_true] at inPart
    omega
  · rintro rfl
    revert inPart
    decide

/-- A fixed part is read by itself. -/
theorem words_part (part : ∀ c ∈ u, tame c = true) (apart : Apart u tail) :
    words (u ++ tail) = words u ++ words tail := by
  induction bound : u.length using Nat.strong_induction_on generalizing u with
  | _ n inductionHypothesis =>
    cases u with
    | nil => rfl
    | cons c rest =>
      have inRest (k : Nat) : ∀ d ∈ rest.drop k, tame d = true := fun d member =>
        part d (List.mem_cons_of_mem _ (List.mem_of_mem_drop member))
      have onward (k : Nat) : words (rest.drop k ++ tail) = words (rest.drop k) ++ words tail := by
        refine inductionHypothesis (rest.drop k).length ?_ (inRest k) (apart.drop k) rfl
        rw [List.length_drop, ← bound, List.length_cons]
        omega
      -- What begins in the part ends in it.
      have next : (rest ++ tail).head? = rest.head? ∨ rest = [] := by
        cases rest with
        | nil => exact Or.inr rfl
        | cons d more => exact Or.inl rfl
      rcases Bool.or_eq_true_iff.mp (part c List.mem_cons_self) with inWords | dot
      · rcases Bool.or_eq_true_iff.mp inWords with spaceOrName | separator
        · rcases Bool.or_eq_true_iff.mp spaceOrName with space | name
          · rw [List.cons_append, words_space space, words_space space]
            exact onward 0
          · have plain : c = 'e' ∨ c = 'E' → (rest ++ tail).head? ≠ some '\'' := by
              intro _ quoted
              rcases next with same | rfl
              · rw [same] at quoted
                exact (tame_head (inRest 0) quoted).2 rfl
              · rcases apart with ends | begins
                · have last := (ends c rfl).1
                  rw [continuesName, continuesTag, name] at last
                  cases last
                · exact (begins _ quoted).2 rfl
            have ownPlain : c = 'e' ∨ c = 'E' → rest.head? ≠ some '\'' :=
              fun _ quoted => (tame_head (inRest 0) quoted).2 rfl
            have same : (rest ++ tail).takeWhile continuesName =
                rest.takeWhile continuesName := by
              rcases apart with ends | begins
              · have stops : (rest.takeWhile continuesName).length ≠ rest.length := by
                  intro whole
                  have all : rest.takeWhile continuesName = rest :=
                    List.IsPrefix.eq_of_length (List.takeWhile_prefix _) whole
                  cases last : (c :: rest).getLast? with
                  | none => simp at last
                  | some d =>
                    have continued : continuesName d = true := by
                      rcases List.mem_cons.mp (List.mem_of_getLast? last) with rfl | inRest
                      · rw [continuesName, continuesTag, name]
                        rfl
                      · exact List.takeWhile_eq_self_iff.mp all d inRest
                    rw [(ends d last).1] at continued
                    cases continued
                rw [List.takeWhile_append, if_neg stops]
              · exact takeWhile_stop (fun d first => (begins d first).1) rest
            have short := takeWhile_le continuesName rest
            rw [List.cons_append, words_visible (scan_name name plain) rfl,
              words_visible (scan_name name ownPlain) rfl, same,
              List.take_append_of_le_length short, List.drop_append_of_le_length short, onward]
            rfl
        · have symbol : c ∈ separators := List.contains_iff_mem.mp separator
          rw [List.cons_append, words_visible (scan_separator symbol _) rfl,
            words_visible (scan_separator symbol _) rfl]
          exact congrArg (⟨.symbol, [c]⟩ :: ·) (onward 0)
      · obtain rfl := beq_iff_eq.mp dot
        have own : ∀ d ∈ rest.head?, isDigit d = false := fun d first =>
          (tame_head (inRest 0) first).1
        have stop : ∀ d ∈ (rest ++ tail).head?, isDigit d = false := by
          intro d first
          rcases next with same | rfl
          · rw [same] at first
            exact own d first
          · rcases apart with ends | begins
            · exact absurd rfl (ends '.' rfl).2
            · have none := (begins d first).1
              rw [continuesName, continuesTag, Bool.or_eq_false_iff, Bool.or_eq_false_iff] at none
              exact none.1.2
        rw [List.cons_append, words_visible (scan_dot stop) rfl, words_visible (scan_dot own) rfl]
        exact congrArg (⟨.symbol, ['.']⟩ :: ·) (onward 0)

/-! ## Quoted names -/

/-- `quote_ident` of Postgres, of a name that always gets quotes. -/
def doubled (name : List Char) : List Char :=
  name.flatMap (fun c => if c = '"' then ['"', '"'] else [c])

def quoteName (name : List Char) : List Char := '"' :: doubled name ++ ['"']

/-- Pairs of quotes are one. -/
def undouble : List Char → List Char
  | '"' :: '"' :: rest => '"' :: undouble rest
  | c :: rest => c :: undouble rest
  | [] => []

/-- The name that a quoted name denotes. -/
def unquote (text : List Char) : List Char := undouble (text.drop 1).dropLast

theorem undouble_doubled (name : List Char) : undouble (doubled name) = name := by
  induction name with
  | nil => rfl
  | cons c name inductionHypothesis =>
    rw [doubled, List.flatMap_cons]
    split_ifs with quote
    · subst quote
      exact congrArg ('"' :: ·) inductionHypothesis
    · change undouble (c :: doubled name) = c :: name
      rw [undouble.eq_2 _ _ (by rintro rest rfl; exact absurd rfl quote), inductionHypothesis]

theorem unquote_quoteName (name : List Char) : unquote (quoteName name) = name := by
  rw [unquote, quoteName, List.cons_append, List.drop_one, List.tail_cons,
    List.dropLast_concat, undouble_doubled]

theorem quotedLength_doubled (name : List Char) (stop : ∀ c ∈ tail.head?, c ≠ '"') :
    quotedLength '"' false (doubled name ++ '"' :: tail) = some ((doubled name).length + 1) := by
  induction name with
  | nil =>
    change quotedLength '"' false ('"' :: tail) = some 1
    cases tail with
    | nil => rfl
    | cons d more =>
      rw [quotedLength.eq_def]
      simp [stop d rfl]
  | cons c name inductionHypothesis =>
    rw [doubled, List.flatMap_cons]
    split_ifs with quote
    · change quotedLength '"' false ('"' :: '"' :: (doubled name ++ '"' :: tail)) = _
      rw [quotedLength.eq_def]
      simp only [if_true, inductionHypothesis, Option.map_some]
      rfl
    · change quotedLength '"' false (c :: (doubled name ++ '"' :: tail)) = _
      rw [quotedLength.eq_def]
      simp only [if_neg quote, Bool.false_and, Bool.false_eq_true, if_false, inductionHypothesis,
        Option.map_some]
      rfl

/-- A quoted name is one word, whatever is in it. -/
theorem words_quoteName (name : List Char) (stop : ∀ c ∈ tail.head?, c ≠ '"') :
    words (quoteName name ++ tail) = ⟨.quotedName, quoteName name⟩ :: words tail := by
  have closed := quotedLength_doubled name stop
  have scanned : scan '"' (doubled name ++ '"' :: tail) =
      (.quotedName, (doubled name).length + 1) := by
    rw [scan, if_neg (by decide), if_neg (by simp), if_neg (by simp), if_neg (by decide),
      if_neg (by simp), if_pos rfl, closed]
  have text : quoteName name ++ tail = '"' :: (doubled name ++ '"' :: tail) := by
    rw [quoteName, List.cons_append, List.cons_append, List.append_assoc]
    rfl
  have length : (doubled name).length + 1 = (doubled name ++ ['"']).length := by
    rw [List.length_append]
    rfl
  have split : doubled name ++ '"' :: tail = (doubled name ++ ['"']) ++ tail := by
    rw [List.append_assoc]
    rfl
  rw [text, words_visible scanned rfl, split, length, List.take_left, List.drop_left]
  rfl

/-! ## Numbers -/

/-- Digits are one number where nothing of a number follows. -/
theorem words_number {number : List Char} (digits : ∀ c ∈ number, isDigit c = true)
    (something : number ≠ [])
    (stop : ∀ c ∈ tail.head?, isDigit c = false ∧ c ≠ '.' ∧ c ≠ 'e' ∧ c ≠ 'E') :
    words (number ++ tail) = ⟨.number, number⟩ :: words tail := by
  cases number with
  | nil => exact absurd rfl something
  | cons c rest =>
    have inRest : ∀ d ∈ rest, isDigit d = true := fun d member =>
      digits d (List.mem_cons_of_mem _ member)
    have run : ((rest ++ tail).takeWhile isDigit).length = rest.length := by
      rw [takeWhile_stop (fun d first => (stop d first).1),
        List.takeWhile_eq_self_iff.mpr inRest]
    have length : numberLength (rest ++ tail) = rest.length := by
      rw [numberLength, run, List.drop_left]
      cases tail with
      | nil =>
        rw [List.append_nil, List.drop_of_length_le (Nat.le_add_right _ _)]
        rfl
      | cons d more =>
        obtain ⟨-, noDot, noExponent, noExponent'⟩ := stop d rfl
        have fraction : fractionLength (d :: more) = 0 := by
          rw [fractionLength.eq_2]
          rintro rest' same
          exact noDot (List.cons.inj same).1
        have exponent : exponentLength (d :: more) = 0 := by
          rw [exponentLength, if_neg (not_or.mpr ⟨noExponent, noExponent'⟩)]
        rw [fraction, Nat.add_zero, List.drop_left, exponent, Nat.add_zero]
    rw [List.cons_append, words_visible (scan_digit (digits c List.mem_cons_self) _) rfl, length,
      List.take_left, List.drop_left]

end SqlLexer
