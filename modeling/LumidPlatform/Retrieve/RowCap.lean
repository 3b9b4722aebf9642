import LumidPlatform.Lib.SqlStatements
import LumidPlatform.Retrieve.Replayer

/-!
# The row cap

A query is put on lines of its own between the head of a subquery and its cap. Whatever the query
opens, the cap is read as it stands, or the text is not complete. It stays one statement, unless a
semicolon is left in it: only those that end the text are cut off, and not those before a comment
or between spaces.
-/

namespace LumidPlatform.Retrieve.RowCap

open Plan Replayer SqlLexer

variable {query : Str} {n : Nat}

/-! ## The parts of the wrapped text -/

def opening : Str := "SELECT * FROM (\n".str

/-- The line of the cap. -/
def capText (n : Nat) : Str := ") AS __retrieval_outer LIMIT ".str ++ Text.showNat n

/-- What the line of the cap says. -/
def capWords (n : Nat) : List Word :=
  [⟨.symbol, ")".str⟩, ⟨.name, "AS".str⟩, ⟨.name, "__retrieval_outer".str⟩, ⟨.name, "LIMIT".str⟩,
    ⟨.number, Text.showNat n⟩]

theorem wrap_eq (cleaned : Str) (n : Nat) :
    wrapSelectWithCap cleaned n = opening ++ (cleaned ++ '\n' :: capText n) := by
  simp [wrapSelectWithCap, opening, capText, show "\n) AS __retrieval_outer LIMIT ".str =
    '\n' :: ") AS __retrieval_outer LIMIT ".str from rfl]

theorem digits (n : Nat) : ∀ c ∈ Text.showNat n, isDigit c = true := by
  intro c member
  have digit := Text.isDigit_of_mem_showNat member
  simp only [Char.isDigit, Bool.and_eq_true, decide_eq_true_eq, UInt32.le_iff_toNat_le] at digit
  simp only [isDigit, Bool.and_eq_true, decide_eq_true_eq]
  exact digit

theorem bland_cap (n : Nat) : Bland ('\n' :: capText n) where
  unmarked := by
    intro mark member inText
    have plain : marks.all (fun mark => !isDigit mark &&
        !('\n' :: ") AS __retrieval_outer LIMIT ".str).contains mark) = true := by decide
    have here := List.all_eq_true.mp plain mark member
    rw [Bool.and_eq_true, Bool.not_eq_true', Bool.not_eq_true', List.contains_eq_mem,
      decide_eq_false_iff_not] at here
    rcases List.mem_append.mp (show mark ∈ ('\n' :: ") AS __retrieval_outer LIMIT ".str) ++
      Text.showNat n from inText) with inCap | inNumber
    · exact here.2 inCap
    · rw [digits n mark inNumber] at here
      cases here.1
  start := by
    rintro c ⟨⟩
    decide

/-- A space between two words. -/
theorem words_gap (s : Str) : words (' ' :: s) = words s := words_space rfl s

theorem words_capText (n : Nat) : words (capText n) = capWords n := by
  have something : Text.showNat n ≠ [] := Nat.toDigits_ne_nil
  have number := words_digits (digits n) something
  rw [capText, capWords, ← number]
  generalize Text.showNat n = number
  have first : words (") AS __retrieval_outer LIMIT ".str ++ number) =
      ⟨.symbol, ")".str⟩ :: words (' ' :: ("AS __retrieval_outer LIMIT ".str ++ number)) :=
    words_visible rfl rfl
  have second : words ("AS __retrieval_outer LIMIT ".str ++ number) =
      ⟨.name, "AS".str⟩ :: words (' ' :: ("__retrieval_outer LIMIT ".str ++ number)) :=
    words_visible rfl rfl
  have third : words ("__retrieval_outer LIMIT ".str ++ number) =
      ⟨.name, "__retrieval_outer".str⟩ :: words (' ' :: ("LIMIT ".str ++ number)) :=
    words_visible rfl rfl
  have fourth : words ("LIMIT ".str ++ number) = ⟨.name, "LIMIT".str⟩ :: words (' ' :: number) :=
    words_visible rfl rfl
  rw [first, words_gap, second, words_gap, third, words_gap, fourth, words_gap]

theorem words_opening (s : Str) :
    words (opening ++ s) =
      [⟨.name, "SELECT".str⟩, ⟨.symbol, "*".str⟩, ⟨.name, "FROM".str⟩, ⟨.symbol, "(".str⟩] ++
        words s := by
  have first : words (opening ++ s) =
      ⟨.name, "SELECT".str⟩ :: words (' ' :: ("* FROM (\n".str ++ s)) :=
    words_visible rfl rfl
  have second : words ("* FROM (\n".str ++ s) =
      ⟨.symbol, "*".str⟩ :: words (' ' :: ("FROM (\n".str ++ s)) :=
    words_visible rfl rfl
  have third : words ("FROM (\n".str ++ s) =
      ⟨.name, "FROM".str⟩ :: words (' ' :: ("(\n".str ++ s)) :=
    words_visible rfl rfl
  have fourth : words ("(\n".str ++ s) = ⟨.symbol, "(".str⟩ :: words ('\n' :: s) :=
    words_visible rfl rfl
  rw [first, words_gap, second, words_gap, third, words_gap, fourth, words_space rfl]
  rfl

theorem complete_opening (s : Str) : Complete (opening ++ s) ↔ Complete s := by
  have first : Complete (opening ++ s) ↔ Complete (' ' :: ("* FROM (\n".str ++ s)) :=
    complete_visible rfl rfl
  have second : Complete ("* FROM (\n".str ++ s) ↔ Complete (' ' :: ("FROM (\n".str ++ s)) :=
    complete_visible rfl rfl
  have third : Complete ("FROM (\n".str ++ s) ↔ Complete (' ' :: ("(\n".str ++ s)) :=
    complete_visible rfl rfl
  have fourth : Complete ("(\n".str ++ s) ↔ Complete ('\n' :: s) := complete_visible rfl rfl
  rw [first, complete_space rfl, second, complete_space rfl, third, complete_space rfl, fourth,
    complete_space rfl]

/-! ## The cap -/

/-- The last tokens of a text are those of the cap, and stand after the query. -/
def Capped (cleaned : Str) (n : Nat) : Prop :=
  ∃ front cap, tokens (wrapSelectWithCap cleaned n) = front ++ cap ∧
    cap.map Lexeme.word = capWords n ∧ ∀ t ∈ cap, opening ++ cleaned <+: t.before

/-- Nothing that the query opens reaches the cap. -/
theorem capped_of_complete (complete : Complete (wrapSelectWithCap query n)) :
    Capped query n := by
  have whole : wrapSelectWithCap query n = (opening ++ query) ++ '\n' :: capText n := by
    rw [wrap_eq, List.append_assoc]
  rw [whole, complete_append (bland_cap n)] at complete
  have read := tokens_newline (bland_cap n) (by rintro c ⟨⟩; rfl) complete
  rw [Capped, whole]
  refine ⟨_, _, read, ?_, ?_⟩
  · rw [List.map_map, ← words_capText]
    rfl
  · intro t member
    obtain ⟨own, -, rfl⟩ := List.mem_map.mp member
    rw [Lexeme.shift, List.append_assoc]
    exact List.prefix_append _ _

/-- What a wrapped query says. -/
theorem words_wrap (complete : Complete query) (n : Nat) :
    words (wrapSelectWithCap query n) =
      [⟨.name, "SELECT".str⟩, ⟨.symbol, "*".str⟩, ⟨.name, "FROM".str⟩, ⟨.symbol, "(".str⟩] ++
        (words query ++ capWords n) := by
  rw [wrap_eq, words_opening, words_newline (bland_cap n) (by rintro c ⟨⟩; rfl) complete,
    words_capText]

/-- A wrapped query is one statement unless a semicolon is left in it. -/
theorem single_wrap (complete : Complete query) (balanced : balancedFrom 0 (words query) = true)
    (n : Nat) : Single (wrapSelectWithCap query n) ↔ semicolon ∉ words query := by
  have said := words_wrap complete n
  constructor
  · intro single left
    obtain ⟨before, after, split⟩ := List.append_of_mem left
    rw [split] at said
    have two := @two_of_between _
      ([⟨.name, "SELECT".str⟩, ⟨.symbol, "*".str⟩, ⟨.name, "FROM".str⟩, ⟨.symbol, "(".str⟩] ++
        before) (after ++ capWords n) (by rw [said]; simp) ⟨.name, "SELECT".str⟩ ⟨.symbol, ")".str⟩
      (by simp) (by decide) (by simp [capWords]) (by decide)
    rw [single.one] at two
    omega
  · intro absent
    refine ⟨?_, one_of_absent ?_ ?_, ?_⟩
    · rw [wrap_eq, complete_opening, complete_append (bland_cap n)]
      exact complete
    · rw [said]
      simp only [List.mem_append, not_or]
      exact ⟨by decide, absent, by simp [capWords, semicolon, show ")".str = [')'] from rfl]⟩
    · rw [said]
      exact List.cons_ne_nil _ _
    · have inner := balancedFrom_append balanced 1 (capWords n)
      rw [Nat.zero_add] at inner
      rw [said]
      exact inner

/-! ## The semicolons that are cut off -/

/-- After every semicolon come only more of them, and then white space. -/
def Trailing (query : Str) : Prop :=
  ∀ t ∈ tokens query, t.word = semicolon →
    (t.after.dropWhile (· == ';')).all Text.isWhitespace = true

/-- What is cut off at the end of a query: white space, semicolons and white space. -/
theorem cleaned_cut (query : Str) :
    ∃ inner semicolons outer, query = cleaned query ++ (inner ++ semicolons ++ outer) ∧
      (∀ c ∈ inner, Text.isWhitespace c = true) ∧ (∀ c ∈ semicolons, c = ';') ∧
      ∀ c ∈ outer, Text.isWhitespace c = true := by
  have cut (p : Char → Bool) (s : Str) : ∃ rest,
      s = (s.reverse.dropWhile p).reverse ++ rest ∧ ∀ c ∈ rest, p c = true := by
    refine ⟨(s.reverse.takeWhile p).reverse, ?_, fun c member => ?_⟩
    · rw [← List.reverse_append, List.takeWhile_append_dropWhile, List.reverse_reverse]
    · exact List.mem_takeWhile_imp (List.mem_reverse.mp member)
  obtain ⟨outer, first, blank⟩ := cut Text.isWhitespace query
  obtain ⟨semicolons, second, marks⟩ := cut (· == ';') (Text.trimEnd query)
  obtain ⟨inner, third, blank'⟩ :=
    cut Text.isWhitespace (Text.trimEndMatches ';' (Text.trimEnd query))
  refine ⟨inner, semicolons, outer, ?_, blank', fun c member => beq_iff_eq.mp (marks c member),
    blank⟩
  calc query = Text.trimEnd query ++ outer := first
    _ = Text.trimEndMatches ';' (Text.trimEnd query) ++ semicolons ++ outer :=
        congrArg (· ++ outer) second
    _ = cleaned query ++ inner ++ semicolons ++ outer :=
        congrArg (· ++ semicolons ++ outer) third
    _ = cleaned query ++ (inner ++ semicolons ++ outer) := by simp

theorem cut_char {inner semicolons outer : Str} {c : Char}
    (blank : ∀ c ∈ inner, Text.isWhitespace c = true) (marked : ∀ c ∈ semicolons, c = ';')
    (blank' : ∀ c ∈ outer, Text.isWhitespace c = true)
    (member : c ∈ inner ++ semicolons ++ outer) : Text.isWhitespace c = true ∨ c = ';' := by
  rcases List.mem_append.mp member with first | inOuter
  · exact (List.mem_append.mp first).imp (blank c) (marked c)
  · exact .inl (blank' c inOuter)

/-- What is cut off has no mark, and no digit or exponent at its start. -/
theorem bland_cut {inner semicolons outer : Str} (blank : ∀ c ∈ inner, Text.isWhitespace c = true)
    (marked : ∀ c ∈ semicolons, c = ';') (blank' : ∀ c ∈ outer, Text.isWhitespace c = true) :
    Bland (inner ++ semicolons ++ outer) := by
  refine ⟨fun mark isMark inText => ?_, fun c first => ?_⟩
  · have plain : marks.all (fun mark => !Text.isWhitespace mark && mark != ';') = true := by decide
    have here := List.all_eq_true.mp plain mark isMark
    rw [Bool.and_eq_true, Bool.not_eq_true', bne_iff_ne] at here
    rcases cut_char blank marked blank' inText with space | semicolon
    · rw [space] at here
      cases here.1
    · exact here.2 semicolon
  · rcases cut_char blank marked blank' (List.mem_of_mem_head? first) with space | rfl
    · simp only [Text.isWhitespace, Bool.or_eq_true, Bool.and_eq_true, decide_eq_true_eq,
        beq_iff_eq] at space
      refine ⟨?_, ?_, ?_⟩
      · rw [isDigit, Bool.and_eq_false_iff, decide_eq_false_iff_not, decide_eq_false_iff_not]
        omega
      · rintro rfl
        revert space
        decide
      · rintro rfl
        revert space
        decide
    · decide

/-- The semicolons a text ends with, and the white space after them, are cut off whole. -/
theorem cleaned_of_trailing {before after : Str}
    (trailing : (after.dropWhile (· == ';')).all Text.isWhitespace = true) :
    (cleaned (before ++ ';' :: after)).length ≤ before.length := by
  have run : ∀ c ∈ (';' :: after.takeWhile (· == ';')).reverse, (c == ';') = true := by
    intro c member
    rcases List.mem_cons.mp (List.mem_reverse.mp member) with rfl | inRun
    · rfl
    · exact List.all_eq_true.mp List.all_takeWhile c inRun
  have blank : ∀ c ∈ (after.dropWhile (· == ';')).reverse, Text.isWhitespace c = true :=
    fun c member => List.all_eq_true.mp trailing c (List.mem_reverse.mp member)
  have text : before ++ ';' :: after =
      before ++ ';' :: after.takeWhile (· == ';') ++ after.dropWhile (· == ';') := by
    rw [List.append_assoc, List.cons_append, List.takeWhile_append_dropWhile]
  have first : Text.trimEnd (before ++ ';' :: after) =
      before ++ ';' :: after.takeWhile (· == ';') := by
    rw [text, Text.trimEnd, List.reverse_append, List.dropWhile_append_of_pos blank,
      List.reverse_append]
    obtain ⟨c, more, reversed⟩ :
        ∃ c more, (';' :: after.takeWhile (· == ';')).reverse = c :: more :=
      List.exists_cons_of_ne_nil (by simp)
    rw [reversed] at run
    have solid : ¬Text.isWhitespace c = true := by
      rw [beq_iff_eq.mp (run c List.mem_cons_self)]
      decide
    rw [reversed, List.cons_append, List.dropWhile_cons_of_neg solid, ← List.cons_append,
      ← reversed, ← List.reverse_append, List.reverse_reverse]
  have second : Text.trimEndMatches ';' (before ++ ';' :: after.takeWhile (· == ';')) =
      Text.trimEndMatches ';' before := by
    rw [Text.trimEndMatches, List.reverse_append, List.dropWhile_append_of_pos run]
    rfl
  rw [cleaned, first, second, Text.trimEnd, List.length_reverse]
  calc ((Text.trimEndMatches ';' before).reverse.dropWhile Text.isWhitespace).length
      ≤ (Text.trimEndMatches ';' before).reverse.length := (List.dropWhile_sublist _).length_le
    _ = (before.reverse.dropWhile (· == ';')).length := by
        rw [List.length_reverse, Text.trimEndMatches, List.length_reverse]
    _ ≤ before.reverse.length := (List.dropWhile_sublist _).length_le
    _ = before.length := List.length_reverse

/-- A semicolon that is cut off has only more of them, and white space, after it. -/
theorem trailing_of_cut {inner semicolons outer before after : Str}
    (blank : ∀ c ∈ inner, Text.isWhitespace c = true) (marked : ∀ c ∈ semicolons, c = ';')
    (blank' : ∀ c ∈ outer, Text.isWhitespace c = true)
    (split : before ++ ';' :: after = inner ++ semicolons ++ outer) :
    (after.dropWhile (· == ';')).all Text.isWhitespace = true := by
  have solid {c : Char} (space : Text.isWhitespace c = true) : c ≠ ';' := by
    rintro rfl
    cases space
  obtain ⟨front, cut⟩ : ∃ front, semicolons ++ outer = front ++ ';' :: after := by
    rw [List.append_assoc] at split
    rcases List.append_eq_append_iff.mp split with ⟨part, same, rest⟩ | ⟨part, -, rest⟩
    · cases part with
      | nil => exact ⟨[], rest.symm⟩
      | cons d part =>
        obtain ⟨rfl, -⟩ := List.cons.inj rest
        exact absurd rfl (solid (blank ';' (same ▸ by simp)))
    · exact ⟨part, rest⟩
  obtain ⟨more, within, rest⟩ : ∃ more, (∀ c ∈ more, c = ';') ∧ after = more ++ outer := by
    rcases List.append_eq_append_iff.mp cut with ⟨part, -, same⟩ | ⟨part, same, rest⟩
    · exact absurd rfl (solid (blank' _ (same ▸ by simp)))
    · cases part with
      | nil =>
        rw [List.nil_append] at rest
        exact absurd rfl (solid (blank' _ (rest ▸ List.mem_cons_self)))
      | cons d part =>
        refine ⟨part, fun c member => marked c (same ▸ by simp [member]), ?_⟩
        exact (List.cons.inj rest).2
  rw [rest, List.dropWhile_append_of_pos (fun c member => beq_iff_eq.mpr (within c member)),
    List.all_eq_true]
  exact fun c member => blank' c ((List.dropWhile_sublist _).mem member)

/-- No semicolon is left exactly if only white space and more of them come after each. -/
theorem absent_iff (complete : Complete query) :
    semicolon ∉ words (cleaned query) ↔ Trailing query := by
  obtain ⟨inner, semicolons, outer, cut, blank, marked, blank'⟩ := cleaned_cut query
  have bland := bland_cut blank marked blank'
  have text := cut ▸ complete
  rw [complete_append bland] at text
  obtain ⟨keeps, gives⟩ := symbols_append bland text
  rw [← cut] at keeps gives
  have parts {t : Lexeme} (mark : t.word = semicolon) : t.kind = .symbol ∧ t.text = [';'] :=
    ⟨congrArg Word.kind mark, congrArg Word.text mark⟩
  constructor
  · intro absent t member mark
    obtain ⟨symbol, reads⟩ := parts mark
    obtain ⟨inLex, -⟩ := List.mem_filter.mp member
    by_cases inside : t.before.length < (cleaned query).length
    · obtain ⟨own, inCleaned, rfl⟩ := gives t inLex symbol inside
      refine absurd (List.mem_map.mpr ⟨own, List.mem_filter.mpr ⟨inCleaned, ?_⟩, mark⟩) absent
      exact congrArg visible symbol
    · have whole := mem_tokens member
      rw [reads, List.append_assoc, List.singleton_append] at whole
      obtain ⟨front, before, rest⟩ : ∃ front, t.before = cleaned query ++ front ∧
          front ++ ';' :: t.after = inner ++ semicolons ++ outer := by
        rcases List.append_eq_append_iff.mp (whole.trans cut) with
          ⟨front, before, rest⟩ | ⟨front, before, rest⟩
        · have nothing : front = [] := by
            have lengths := congrArg List.length before
            rw [List.length_append] at lengths
            exact List.length_eq_zero_iff.mp (by omega)
          subst nothing
          exact ⟨[], by simpa using before.symm, rest⟩
        · exact ⟨front, before, rest.symm⟩
      exact trailing_of_cut blank marked blank' rest
  · intro trailing left
    obtain ⟨t, inTokens, mark⟩ := List.mem_map.mp left
    obtain ⟨symbol, reads⟩ := parts mark
    obtain ⟨inCleaned, shown⟩ := List.mem_filter.mp inTokens
    -- Where it stands, the semicolon would have been cut off.
    have inQuery : t.extend (inner ++ semicolons ++ outer) ∈ tokens query :=
      List.mem_filter.mpr ⟨keeps t inCleaned symbol, shown⟩
    have shorter := @cleaned_of_trailing t.before _ (trailing _ inQuery mark)
    have whole := mem_tokens inQuery
    have text : t.before ++ ';' :: (t.extend (inner ++ semicolons ++ outer)).after = query := by
      have same : (t.extend (inner ++ semicolons ++ outer)).text = [';'] := reads
      rw [same, List.append_assoc, List.singleton_append] at whole
      exact whole
    have own := congrArg List.length (mem_tokens inTokens)
    rw [text] at shorter
    rw [reads, List.length_append, List.length_append, List.length_singleton] at own
    omega

/-! ## Retrieval -/

/-- A complete wrapped query leaves the cap as it is. A query that is one statement stays one
exactly if only white space and more semicolons come after each of its semicolons. -/
theorem cap_stands (query : Str) (n : Nat) :
    (Complete (wrapSelectWithCap query n) → Capped query n) ∧
      (Single query → (Single (wrapSelectWithCap (cleaned query) n) ↔ Trailing query)) := by
  refine ⟨capped_of_complete, fun single => ?_⟩
  obtain ⟨inner, semicolons, outer, cut, blank, marked, blank'⟩ := cleaned_cut query
  have bland := bland_cut blank marked blank'
  have complete : Complete (cleaned query) := by
    rw [← complete_append bland, ← cut]
    exact single.complete
  have parens : (words query).filter paren = (words (cleaned query)).filter paren := by
    have kept := @filter_words_append _ _ bland complete paren ?_ ?_
    · rwa [← cut] at kept
    · intro word counts
      rcases paren_cases counts with rfl | rfl
      · rfl
      · rfl
    · intro word counts
      rcases paren_cases counts with rfl | rfl
      · exact ⟨'(', List.mem_cons_self, fun member =>
          absurd (cut_char blank marked blank' member) (by decide)⟩
      · exact ⟨')', List.mem_cons_self, fun member =>
          absurd (cut_char blank marked blank' member) (by decide)⟩
  have balanced : balancedFrom 0 (words (cleaned query)) = true := by
    rw [← balancedFrom_filter, ← parens, balancedFrom_filter]
    exact single.balanced
  rw [single_wrap complete balanced, absent_iff single.complete]

/-- Semicolons at the end leave the cap and the statement alone. -/
theorem plain_cap_stands : Capped "SELECT 1".str 11 ∧
    (Single (wrapSelectWithCap (cleaned "SELECT 1;; ".str) 11) ↔ Trailing "SELECT 1;; ".str) :=
  ⟨(cap_stands "SELECT 1".str 11).1 (by decide +kernel),
    (cap_stands "SELECT 1;; ".str 11).2
      ⟨by decide +kernel, by decide +kernel, by decide +kernel⟩⟩

/-- The comment after a semicolon keeps it in the query. -/
theorem comment_keeps_semicolon :
    isSafeSelect Unicode.ascii "SELECT 1; -- done".str = some true ∧
      Single "SELECT 1; -- done".str ∧
      ¬Single (wrapSelectWithCap (cleaned "SELECT 1; -- done".str) 11) :=
  ⟨by decide +kernel, ⟨by decide +kernel, by decide +kernel, by decide +kernel⟩,
    fun single => absurd single.one (by decide +kernel)⟩

end LumidPlatform.Retrieve.RowCap
