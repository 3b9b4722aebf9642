import LumidPlatform.Lib.Paths
import LumidPlatform.Lib.SqlAppend

/-!
# Statements

The tokens of a text, cut at its semicolons, are its statements. What a text says is the same
wherever it stands, so a statement can be told from the words of the parts it is put together
from.
-/

namespace SqlLexer

variable {u more tail s rest : List Char} {c : Char}

/-- What a token says. -/
structure Word where
  kind : Kind
  text : List Char
  deriving DecidableEq

/-- A lexeme without its place. -/
def Lexeme.word (t : Lexeme) : Word := ⟨t.kind, t.text⟩

/-- Neither white space nor a comment. -/
def visible (kind : Kind) : Bool := kind != .space && kind != .comment

/-- The words of a text. -/
def words (s : List Char) : List Word := (tokens s).map Lexeme.word

/-- The sign between statements. -/
def semicolon : Word := ⟨.symbol, [';']⟩

/-- The statements of a text, without the empty ones. -/
def statements (s : List Char) : List (List Word) :=
  ((words s).splitOn semicolon).filter (fun statement => !statement.isEmpty)

/-- After so many open parentheses, each one that comes closes one, and none is left open. -/
def balancedFrom : Nat → List Word → Bool
  | depth, ⟨.symbol, ['(']⟩ :: rest => balancedFrom (depth + 1) rest
  | 0, ⟨.symbol, [')']⟩ :: _ => false
  | depth + 1, ⟨.symbol, [')']⟩ :: rest => balancedFrom depth rest
  | depth, _ :: rest => balancedFrom depth rest
  | depth, [] => depth == 0

/-- A complete text that is one statement, with its parentheses in pairs. -/
structure Single (s : List Char) : Prop where
  complete : Complete s
  one : (statements s).length = 1
  balanced : balancedFrom 0 (words s) = true

/-! ## Words -/

/-- Tokens are the lexemes that are neither white space nor comments. -/
theorem tokens_eq (s : List Char) : tokens s = (lex s).filter (fun t => visible t.kind) := rfl

/-- More text before only moves the places of the tokens. -/
theorem tokens_shift (before s : List Char) :
    (lexAt before s).filter (fun t => visible t.kind) = (tokens s).map (Lexeme.shift before) := by
  rw [lexAt_eq, List.filter_map, tokens_eq]
  rfl

/-- The first lexeme, if it is a word, and the words of the rest. -/
theorem words_cons (c : Char) (rest : List Char) :
    words (c :: rest) =
      (if visible (scan c rest).1 then
        [⟨(scan c rest).1, c :: rest.take (scan c rest).2⟩] else []) ++
        words (rest.drop (scan c rest).2) := by
  have whole : lex (c :: rest) = _ := lexAt_cons [] c rest
  rw [words, tokens_eq, whole, List.filter_cons]
  have later (before : List Char) : ((lexAt before (rest.drop (scan c rest).2)).filter
      (fun t => visible t.kind)).map Lexeme.word = words (rest.drop (scan c rest).2) := by
    rw [tokens_shift, List.map_map]
    rfl
  split_ifs with shown
  · rw [List.map_cons, later]
    rfl
  · rw [later]
    rfl

/-- A lexeme that is a word comes first. -/
theorem words_visible {c : Char} {rest : List Char} {kind : Kind} {length : Nat}
    (scanned : scan c rest = (kind, length)) (shown : visible kind = true) :
    words (c :: rest) = ⟨kind, c :: rest.take length⟩ :: words (rest.drop length) := by
  rw [words_cons, scanned, if_pos shown, List.singleton_append]

/-- Whether the rest is complete decides, once the first lexeme is closed. -/
theorem complete_visible {c : Char} {rest : List Char} {kind : Kind} {length : Nat}
    (scanned : scan c rest = (kind, length)) (closed : closes c rest = true) :
    Complete (c :: rest) ↔ Complete (rest.drop length) := by
  rw [complete_cons, scanned, and_iff_right closed]

/-- A digit begins a number. -/
theorem scan_digit (digit : isDigit c = true) (rest : List Char) :
    scan c rest = (.number, numberLength rest) := by
  have other (mark : Char) (solid : isDigit mark = false) : c ≠ mark := by
    rintro rfl
    rw [digit] at solid
    cases solid
  have range : 48 ≤ c.toNat ∧ c.toNat ≤ 57 := by
    simpa only [isDigit, Bool.and_eq_true, decide_eq_true_eq] using digit
  have noSpace : ¬isSpace c = true := by
    simp only [isSpace, Bool.or_eq_true, beq_iff_eq, other ' ' rfl, other '\t' rfl, other '\n' rfl,
      other '\r' rfl, false_or]
    omega
  have noName : ¬startsName c = true := by
    simp only [startsName, Bool.or_eq_true, Bool.and_eq_true, decide_eq_true_eq, beq_iff_eq,
      other '_' rfl, or_false]
    omega
  rw [scan, if_neg noSpace, if_neg (fun both => other _ rfl both.1),
    if_neg (fun both => other _ rfl both.1), if_neg (other _ rfl),
    if_neg (fun both => both.1.elim (other _ rfl) (other _ rfl)), if_neg (other _ rfl),
    if_neg noName, if_pos digit]

/-- Digits alone are one number. -/
theorem words_digits {number : List Char} (digits : ∀ c ∈ number, isDigit c = true)
    (something : number ≠ []) : words number = [⟨.number, number⟩] := by
  cases number with
  | nil => exact absurd rfl something
  | cons c rest =>
    have run : rest.takeWhile isDigit = rest :=
      List.takeWhile_eq_self_iff.mpr (fun d member => digits d (List.mem_cons_of_mem _ member))
    have length : numberLength rest = rest.length := by
      rw [numberLength, run, List.drop_length, Nat.add_assoc, List.drop_of_length_le (by omega)]
      rfl
    rw [words_visible (scan_digit (digits c List.mem_cons_self) rest) rfl, length, List.take_length,
      List.drop_length]
    rfl

/-- White space is scanned as one run. -/
theorem scan_space (space : isSpace c = true) (rest : List Char) :
    scan c rest = (.space, (rest.takeWhile isSpace).length) := by
  rw [scan, if_pos space]

/-- What comes after a run. -/
theorem drop_takeWhile (p : Char → Bool) (s : List Char) :
    s.drop (s.takeWhile p).length = s.dropWhile p := by
  nth_rewrite 2 [← List.takeWhile_append_dropWhile (p := p) (l := s)]
  exact List.drop_left

/-- White space in front has no words. -/
theorem words_dropWhile (s : List Char) : words (s.dropWhile isSpace) = words s := by
  cases s with
  | nil => rfl
  | cons c rest =>
    by_cases space : isSpace c = true
    · rw [List.dropWhile_cons_of_pos space, words_cons c rest, scan_space space, drop_takeWhile]
      rfl
    · rw [List.dropWhile_cons_of_neg space]

/-- White space says nothing. -/
theorem words_space (space : isSpace c = true) (s : List Char) : words (c :: s) = words s := by
  rw [← words_dropWhile (c :: s), List.dropWhile_cons_of_pos space, words_dropWhile]

/-- Nor does it leave anything open. -/
theorem complete_dropWhile (s : List Char) : Complete (s.dropWhile isSpace) ↔ Complete s := by
  cases s with
  | nil => exact Iff.rfl
  | cons c rest =>
    by_cases space : isSpace c = true
    · have closed : closes c rest = true := by
        have other {mark : Char} (member : mark ∈ ['/', '\'', 'e', 'E', '"', '$']) : c ≠ mark := by
          rintro rfl
          have all : ['/', '\'', 'e', 'E', '"', '$'].all (fun c => !isSpace c) = true := by decide
          have solid := List.all_eq_true.mp all _ member
          rw [space] at solid
          cases solid
        rw [closes, if_neg (fun both => other (by decide) both.1), if_neg (other (by decide)),
          if_neg (fun both => both.1.elim (other (by decide)) (other (by decide))),
          if_neg (other (by decide)), if_neg (other (by decide))]
      rw [List.dropWhile_cons_of_pos space, complete_cons c rest, scan_space space, drop_takeWhile,
        and_iff_right closed]
    · rw [List.dropWhile_cons_of_neg space]

/-- The same for one character of it. -/
theorem complete_space (space : isSpace c = true) (s : List Char) :
    Complete (c :: s) ↔ Complete s := by
  rw [← complete_dropWhile (c :: s), List.dropWhile_cons_of_pos space, complete_dropWhile]

/-- What stands on a line of its own after a complete text is read by itself. -/
theorem tokens_newline (bland : Bland ('\n' :: more))
    (solid : ∀ c ∈ more.head?, isSpace c = false) (complete : Complete u) :
    tokens (u ++ '\n' :: more) = (tokens u).map (Lexeme.extend ('\n' :: more)) ++
      (tokens more).map (Lexeme.shift (u ++ ['\n'])) := by
  have alone : (more.takeWhile isSpace).length = 0 := by
    cases more with
    | nil => rfl
    | cons d more => rw [List.takeWhile_cons, solid d rfl]; rfl
  have line (before : List Char) :
      (lexAt before ('\n' :: more)).filter (fun t => visible t.kind) =
        (tokens more).map (Lexeme.shift (before ++ ['\n'])) := by
    rw [lexAt_cons, scan_space (by decide), alone, List.filter_cons_of_neg Bool.false_ne_true,
      tokens_shift]
    rfl
  have extended (ts : List Lexeme) :
      (ts.map (Lexeme.extend ('\n' :: more))).filter (fun t => visible t.kind) =
        (ts.filter (fun t => visible t.kind)).map (Lexeme.extend ('\n' :: more)) := by
    rw [List.filter_map]
    rfl
  rw [tokens_eq, tokens_eq u]
  rcases lexAt_append bland complete [] with steady | ⟨front, last, lexemes, ends, reaching⟩
  · have whole : lex (u ++ '\n' :: more) = _ := steady
    rw [whole, List.filter_append, extended, List.nil_append, line]
    rfl
  · have whole : lex (u ++ '\n' :: more) = _ := reaching
    have before : lex u = _ := lexemes
    -- The last lexeme takes the line break if it is white space, and nothing otherwise.
    have reach : List.filter (fun t => visible t.kind)
        (⟨last.before, last.kind, last.text ++
            ('\n' :: more).take (extent last.kind ('\n' :: more)),
          ('\n' :: more).drop (extent last.kind ('\n' :: more))⟩ ::
        lexAt ([] ++ u ++ ('\n' :: more).take (extent last.kind ('\n' :: more)))
          (('\n' :: more).drop (extent last.kind ('\n' :: more)))) =
        ([last].filter (fun t => visible t.kind)).map (Lexeme.extend ('\n' :: more)) ++
          (tokens more).map (Lexeme.shift (u ++ ['\n'])) := by
      by_cases space : last.kind = .space
      · have one : extent .space ('\n' :: more) = 1 := by
          rw [extent, List.takeWhile_cons, if_pos (by decide), List.length_cons, alone]
        rw [space, one, List.filter_cons_of_neg Bool.false_ne_true, List.filter_cons_of_neg]
        · exact tokens_shift (u ++ ['\n']) more
        · rw [space]
          exact Bool.false_ne_true
      · have none' : extent last.kind ('\n' :: more) = 0 := by
          cases kind : last.kind with
          | space => exact absurd kind space
          | comment | name | literal | quotedName | number | symbol => rfl
        have same : (⟨last.before, last.kind, last.text, '\n' :: more⟩ : Lexeme) =
            last.extend ('\n' :: more) := by
          rw [Lexeme.extend, ends, List.nil_append]
        rw [none', List.take_zero, List.append_nil, List.append_nil, List.drop_zero, same,
          ← List.singleton_append, List.filter_append, line, List.nil_append]
        rw [← extended [last]]
        rfl
    rw [whole, before, List.filter_append, extended, reach, List.filter_append, List.map_append,
      List.append_assoc]

/-- The words before a line break and those behind it. -/
theorem words_newline (bland : Bland ('\n' :: more))
    (solid : ∀ c ∈ more.head?, isSpace c = false) (complete : Complete u) :
    words (u ++ '\n' :: more) = words u ++ words more := by
  rw [words, tokens_newline bland solid complete, List.map_append, List.map_map, List.map_map]
  rfl

/-! ## Symbols of a text that goes on -/

/-- A symbol of a complete text is one of the longer text, and a symbol of that one which begins in
the text is one of its own. -/
theorem symbols_append (bland : Bland tail) (complete : Complete u) :
    (∀ t ∈ lex u, t.kind = .symbol → t.extend tail ∈ lex (u ++ tail)) ∧
      ∀ t ∈ lex (u ++ tail), t.kind = .symbol → t.before.length < u.length →
        ∃ own ∈ lex u, t = own.extend tail := by
  have beyond {before s : List Char} {t : Lexeme} (member : t ∈ lexAt before s) :
      before.length ≤ t.before.length := by
    rw [lexAt_eq] at member
    obtain ⟨own, -, rfl⟩ := List.mem_map.mp member
    rw [Lexeme.shift, List.length_append]
    omega
  rcases lexAt_append bland complete [] with steady | ⟨front, last, lexemes, ends, reaching⟩
  · have whole : lex (u ++ tail) = _ := steady
    rw [whole]
    refine ⟨fun t member _ => List.mem_append_left _ (List.mem_map_of_mem member), ?_⟩
    intro t member _ inside
    rcases List.mem_append.mp member with inFront | inTail
    · obtain ⟨own, inText, rfl⟩ := List.mem_map.mp inFront
      exact ⟨own, inText, rfl⟩
    · have outside := beyond inTail
      rw [List.nil_append] at outside
      omega
  · have whole : lex (u ++ tail) = _ := reaching
    have before : lex u = _ := lexemes
    rw [whole, before]
    have symbol (kind : last.kind = .symbol) :
        (⟨last.before, last.kind, last.text ++ tail.take (extent last.kind tail),
          tail.drop (extent last.kind tail)⟩ : Lexeme) = last.extend tail := by
      have none' : extent last.kind tail = 0 := by rw [kind]; rfl
      rw [none', List.take_zero, List.append_nil, List.drop_zero, Lexeme.extend, ends,
        List.nil_append]
    constructor
    · intro t member kind
      rcases List.mem_append.mp member with inFront | isLast
      · exact List.mem_append_left _ (List.mem_map_of_mem inFront)
      · obtain rfl := List.mem_singleton.mp isLast
        rw [← symbol kind]
        exact List.mem_append_right _ List.mem_cons_self
    · intro t member kind inside
      rcases List.mem_append.mp member with inFront | later
      · obtain ⟨own, inText, rfl⟩ := List.mem_map.mp inFront
        exact ⟨own, List.mem_append_left _ inText, rfl⟩
      · rcases List.mem_cons.mp later with rfl | inTail
        · exact ⟨last, List.mem_append_right _ List.mem_cons_self, symbol kind⟩
        · have outside := beyond inTail
          rw [List.nil_append, List.length_append] at outside
          omega

/-- The text of a lexeme is part of the text that it is read from. -/
theorem mem_text {t : Lexeme} (member : t ∈ lex s) (inText : c ∈ t.text) : c ∈ s := by
  have whole : t.before ++ t.text ++ t.after = [] ++ s := mem_lexFrom member
  rw [List.nil_append] at whole
  rw [← whole]
  exact List.mem_append_left _ (List.mem_append_right _ inText)

/-- What follows a complete text adds no symbol with a character that it does not have. -/
theorem filter_words_append (bland : Bland tail) (complete : Complete u) {p : Word → Bool}
    (symbols : ∀ word, p word = true → word.kind = .symbol)
    (foreign : ∀ word, p word = true → ∃ c ∈ word.text, c ∉ tail) :
    (words (u ++ tail)).filter p = (words u).filter p := by
  have absent {before s' : List Char} (part : ∀ c ∈ s', c ∈ tail) :
      (((lexAt before s').filter (fun t => visible t.kind)).map Lexeme.word).filter p = [] := by
    rw [List.filter_eq_nil_iff]
    intro word member passes
    obtain ⟨t, inLex, rfl⟩ := List.mem_map.mp member
    have inLex := (List.mem_filter.mp inLex).1
    rw [lexAt_eq] at inLex
    obtain ⟨own, inText, rfl⟩ := List.mem_map.mp inLex
    obtain ⟨c, inWord, notInTail⟩ := foreign _ passes
    exact notInTail (part c (mem_text inText inWord))
  have extended (ts : List Lexeme) :
      ((ts.map (Lexeme.extend tail)).filter (fun t => visible t.kind)).map Lexeme.word =
        (ts.filter (fun t => visible t.kind)).map Lexeme.word := by
    rw [List.filter_map, List.map_map]
    rfl
  rw [words, tokens_eq, words, tokens_eq]
  rcases lexAt_append bland complete [] with steady | ⟨front, last, lexemes, ends, reaching⟩
  · have whole : lex (u ++ tail) = _ := steady
    rw [whole, List.filter_append, List.map_append, extended, List.filter_append,
      absent (fun c member => member), List.append_nil]
    rfl
  · have whole : lex (u ++ tail) = _ := reaching
    have before : lex u = _ := lexemes
    rw [whole, before, List.filter_append, List.map_append, extended, List.filter_append,
      List.filter_append, List.map_append, List.filter_append, ← List.singleton_append,
      List.filter_append, List.map_append, List.filter_append,
      absent (fun c member => List.mem_of_mem_drop member), List.append_nil]
    congr 1
    by_cases symbol : last.kind = .symbol
    · have none' : extent last.kind tail = 0 := by rw [symbol]; rfl
      rw [none', List.take_zero, List.append_nil, List.filter_cons, List.filter_cons]
      split_ifs <;> rfl
    · have dropped (t : Lexeme) (kind : t.kind = last.kind) :
          (([t].filter (fun t => visible t.kind)).map Lexeme.word).filter p = [] := by
        rw [List.filter_eq_nil_iff]
        intro word member passes
        obtain ⟨own, isLast, rfl⟩ := List.mem_map.mp member
        obtain rfl := List.mem_singleton.mp (List.mem_filter.mp isLast).1
        exact symbol (kind ▸ symbols _ passes)
      refine (dropped _ ?_).trans (dropped last rfl).symm
      rfl

/-! ## Counting statements -/

/-- Words without a semicolon are one statement. -/
theorem one_of_absent (absent : semicolon ∉ words s) (something : words s ≠ []) :
    (statements s).length = 1 := by
  rw [statements, List.splitOn_eq_singleton absent, List.filter_cons_of_pos]
  · rfl
  · rw [Bool.not_eq_true', List.isEmpty_eq_false_iff]
    exact something

/-- Where a semicolon stands between two words that are none, there are two statements. -/
theorem two_of_between {left right : List Word} (cut : words s = left ++ semicolon :: right)
    {first last : Word} (before : first ∈ left) (solid : first ≠ semicolon)
    (after : last ∈ right) (solid' : last ≠ semicolon) : 2 ≤ (statements s).length := by
  have filled {part : List Word} {word : Word} (member : word ∈ part) (other : word ≠ semicolon) :
      1 ≤ ((part.splitOn semicolon).filter (fun statement => !statement.isEmpty)).length := by
    have inPieces : word ∈ (part.splitOn semicolon).flatten := by
      rw [Paths.flatten_splitOn]
      exact List.mem_filter.mpr ⟨member, by simpa using other⟩
    obtain ⟨piece, inSplit, inPiece⟩ := List.mem_flatten.mp inPieces
    refine List.length_pos_of_mem (List.mem_filter.mpr ⟨inSplit, ?_⟩)
    rw [Bool.not_eq_true', List.isEmpty_eq_false_iff]
    exact List.ne_nil_of_mem inPiece
  rw [statements, cut, List.splitOn_append_cons_self, List.filter_append, List.length_append]
  have one := filled before solid
  have two := filled after solid'
  omega

/-! ## Parentheses -/

/-- A parenthesis. -/
def paren (word : Word) : Bool := word = ⟨.symbol, ['(']⟩ || word = ⟨.symbol, [')']⟩

/-- Other words do not change the depth. -/
theorem balancedFrom_other {word : Word} (other : paren word = false) (depth : Nat)
    (rest : List Word) : balancedFrom depth (word :: rest) = balancedFrom depth rest := by
  rw [paren, Bool.or_eq_false_iff, decide_eq_false_iff_not, decide_eq_false_iff_not] at other
  rw [balancedFrom.eq_4]
  · exact other.1
  · exact fun _ => other.2
  · exact fun _ _ => other.2

/-- The words that do are the two brackets. -/
theorem paren_cases {word : Word} (counts : paren word = true) :
    word = ⟨.symbol, ['(']⟩ ∨ word = ⟨.symbol, [')']⟩ := by
  rwa [paren, Bool.or_eq_true, decide_eq_true_eq, decide_eq_true_eq] at counts

/-- Only parentheses count. -/
theorem balancedFrom_filter (depth : Nat) (ws : List Word) :
    balancedFrom depth (ws.filter paren) = balancedFrom depth ws := by
  induction ws generalizing depth with
  | nil => rfl
  | cons word rest inductionHypothesis =>
    by_cases counts : paren word = true
    · rw [List.filter_cons_of_pos counts]
      rcases paren_cases counts with rfl | rfl
      · exact inductionHypothesis (depth + 1)
      · cases depth with
        | zero => rfl
        | succ depth => exact inductionHypothesis depth
    · rw [List.filter_cons_of_neg counts, inductionHypothesis,
        balancedFrom_other (Bool.eq_false_iff.mpr counts)]

/-- A balanced part leaves as many open as before it. -/
theorem balancedFrom_append {depth : Nat} {part : List Word}
    (balanced : balancedFrom depth part = true) (more : Nat) (rest : List Word) :
    balancedFrom (depth + more) (part ++ rest) = balancedFrom more rest := by
  induction part generalizing depth with
  | nil =>
    obtain rfl : depth = 0 := beq_iff_eq.mp balanced
    rw [Nat.zero_add, List.nil_append]
  | cons word part inductionHypothesis =>
    by_cases counts : paren word = true
    · rcases paren_cases counts with rfl | rfl
      · have inner := @inductionHypothesis (depth + 1) balanced
        rw [Nat.add_right_comm] at inner
        exact inner
      · cases depth with
        | zero => cases balanced
        | succ depth =>
          rw [Nat.add_right_comm]
          exact @inductionHypothesis depth balanced
    · have other := Bool.eq_false_iff.mpr counts
      rw [balancedFrom_other other] at balanced
      rw [List.cons_append, balancedFrom_other other, inductionHypothesis balanced]

end SqlLexer
