import LumidPlatform.Retrieve.Plan

/-!
# Where the guard panics

The search for a word slices the statement at every byte outside single quotes, and a slice
within a character panics. The words are searched for one after the other, and the first one
that is found ends the search: so the guard answers exactly the statements in which `insert`
stands before any character beyond ASCII, if one stands outside quotes at all.
-/

namespace LumidPlatform.Retrieve.Panics

open Plan

variable {word s before after : Str} {inString : Bool} {prev : Option Char} {c : Char}
  {unicode : Unicode} {query : Str}

/-! ## One word -/

/-- An even number of quotes, counting the one that a literal may have begun with. -/
def outside (inString : Bool) (before : Str) : Bool :=
  before.count '\'' % 2 = if inString then 1 else 0

/-- A word stands whole in a text outside quotes, before something that comes next. -/
def Stands (word : Str) (inString : Bool) (prev : Option Char) (before after : Str) : Prop :=
  ∃ x y, before = x ++ word ++ y ∧ outside inString x = true ∧
    boundary ((x.getLast?).or prev) = true ∧ boundary (y ++ after).head? = true

/-- A character beyond ASCII stands outside quotes, and the word does not stand before it. -/
def Exposed (word : Str) (inString : Bool) (prev : Option Char) (s : Str) : Prop :=
  ∃ before c after, s = before ++ c :: after ∧ Text.isAscii c = false ∧
    outside inString before = true ∧ ¬Stands word inString prev before (c :: after)

theorem outside_cons (c : Char) (before : Str) :
    outside inString (c :: before) = outside (if c = '\'' then !inString else inString) before := by
  rw [outside, outside]
  by_cases quote : c = '\''
  · rw [if_pos quote, quote, List.count_cons_self]
    cases inString with
    | false =>
      rw [decide_eq_decide]
      simp only [Bool.not_false, if_true, Bool.false_eq_true, if_false]
      omega
    | true =>
      rw [decide_eq_decide]
      simp only [Bool.not_true, if_true, Bool.false_eq_true, if_false]
      omega
  · rw [if_neg quote, List.count_cons_of_ne quote]

/-- A word does not stand at a character if it is not found there. -/
theorem stands_cons :
    Stands word inString prev (c :: before) after ↔
      (inString = false ∧ ∃ y, c :: before = word ++ y ∧ boundary prev = true ∧
          boundary (y ++ after).head? = true) ∨
        Stands word (if c = '\'' then !inString else inString) (some c) before after := by
  constructor
  · rintro ⟨x, y, whole, quotes, left, right⟩
    cases x with
    | nil =>
      refine .inl ⟨?_, y, whole, left, right⟩
      cases inString with
      | false => rfl
      | true => cases quotes
    | cons d x =>
      obtain ⟨rfl, rest⟩ := List.cons.inj whole
      rw [outside_cons] at quotes
      rw [getLast?_cons_or] at left
      exact .inr ⟨x, y, rest, quotes, left, right⟩
  · rintro (⟨rfl, y, whole, left, right⟩ | ⟨x, y, rfl, quotes, left, right⟩)
    · exact ⟨[], y, whole, rfl, left, right⟩
    · refine ⟨c :: x, y, rfl, ?_, ?_, right⟩
      · rwa [outside_cons]
      · rwa [getLast?_cons_or]

/-- What is exposed behind a character that is in a literal, or is ASCII and begins no word. -/
theorem exposed_cons (plain : inString = true ∨ Text.isAscii c = true)
    (absent : inString = false → ∀ y, c :: s = word ++ y → boundary prev = true →
      boundary y.head? = true → False) :
    Exposed word inString prev (c :: s) ↔
      Exposed word (if c = '\'' then !inString else inString) (some c) s := by
  constructor
  · rintro ⟨before, d, after, whole, foreign, quotes, early⟩
    cases before with
    | nil =>
      obtain ⟨rfl, rfl⟩ := List.cons.inj whole
      rcases plain with literal | ascii
      · rw [literal] at quotes
        cases quotes
      · rw [ascii] at foreign
        cases foreign
    | cons e before =>
      obtain ⟨rfl, rfl⟩ := List.cons.inj whole
      rw [outside_cons] at quotes
      rw [stands_cons] at early
      exact ⟨before, d, after, rfl, foreign, quotes, fun stands => early (.inr stands)⟩
  · rintro ⟨before, d, after, rfl, foreign, quotes, early⟩
    refine ⟨c :: before, d, after, rfl, foreign, ?_, ?_⟩
    · rwa [outside_cons]
    · rw [stands_cons]
      rintro (⟨notString, y, whole, left, right⟩ | stands)
      · refine absent notString (y ++ d :: after) ?_ left right
        rw [← List.append_assoc, ← whole]
        rfl
      · exact early stands

/-- The search panics exactly where a character beyond ASCII is exposed. -/
theorem wordPresentFrom_none (nonempty : word ≠ []) (letters : '\'' ∉ word)
    (ascii : ∀ d ∈ word, Text.isAscii d = true) :
    wordPresentFrom word inString prev s = none ↔ Exposed word inString prev s := by
  have notQuote (rest y : Str) : '\'' :: rest ≠ word ++ y := by
    intro same
    cases word with
    | nil => exact nonempty rfl
    | cons first more =>
      obtain ⟨rfl, -⟩ := List.cons.inj same
      exact letters List.mem_cons_self
  fun_induction wordPresentFrom word inString prev s with
  | case1 =>
    refine iff_of_false (fun impossible => by cases impossible) ?_
    rintro ⟨before, c, after, whole, -⟩
    simp at whole
  | case2 prev rest inductionHypothesis =>
    refine inductionHypothesis.trans ?_
    rw [exposed_cons (.inl rfl) (fun impossible => by cases impossible),
      exposed_cons (.inr (by decide)) (fun _ y same => absurd same (notQuote rest y))]
    rfl
  | case3 prev c rest single inductionHypothesis =>
    refine inductionHypothesis.trans ?_
    rw [exposed_cons (.inl rfl) (fun impossible => by cases impossible)]
    by_cases quote : c = '\''
    · rw [if_pos quote, quote]
      rfl
    · rw [if_neg quote, bne_iff_ne.mpr quote]
  | case4 prev rest inductionHypothesis =>
    refine inductionHypothesis.trans ?_
    rw [exposed_cons (.inr (by decide))
      (fun _ y same => absurd same (notQuote rest y))]
    rfl
  | case5 prev c rest notQuoted found =>
    refine iff_of_false (fun impossible => by cases impossible) ?_
    rintro ⟨before, d, after, whole, foreign, quotes, early⟩
    rw [Bool.and_eq_true, Bool.and_eq_true] at found
    obtain ⟨⟨starts, left⟩, right⟩ := found
    obtain ⟨tail, same⟩ := List.isPrefixOf_iff_prefix.mp starts
    rw [← same, List.drop_left] at right
    -- The word is ASCII, so it ends before the character that is not.
    have fits : word <+: before := by
      rcases List.prefix_or_prefix_of_prefix (show word <+: before ++ d :: after from
        whole ▸ ⟨tail, same⟩) (List.prefix_append _ _) with inside | beyond
      · exact inside
      · obtain ⟨more, rfl⟩ := beyond
        rw [whole, List.append_assoc, List.append_cancel_left_eq] at same
        cases more with
        | nil => exact ⟨[], by simp⟩
        | cons e more =>
          obtain ⟨rfl, -⟩ := List.cons.inj same
          rw [ascii e (List.mem_append_right _ List.mem_cons_self)] at foreign
          cases foreign
    obtain ⟨y, rfl⟩ := fits
    rw [whole, List.append_assoc, List.append_cancel_left_eq] at same
    refine early ⟨[], y, rfl, rfl, left, ?_⟩
    rwa [← same]
  | case6 prev c rest notQuoted absent isAscii inductionHypothesis =>
    refine inductionHypothesis.trans ?_
    rw [exposed_cons (.inr isAscii), if_neg notQuoted]
    intro _ y whole left right
    apply absent
    rw [Bool.and_eq_true, Bool.and_eq_true]
    refine ⟨⟨List.isPrefixOf_iff_prefix.mpr ⟨y, whole.symm⟩, left⟩, ?_⟩
    rw [whole, List.drop_left]
    exact right
  | case7 prev c rest notQuoted absent foreign =>
    refine iff_of_true rfl ⟨[], c, rest, rfl, Bool.eq_false_iff.mpr foreign, rfl, ?_⟩
    rintro ⟨x, y, whole, -⟩
    have empty := congrArg List.length whole
    rw [List.length_append, List.length_append, List.length_nil] at empty
    have long := List.length_pos_iff.mpr nonempty
    omega

/-! ## The guard -/

theorem insert_plain : "insert".str ≠ [] ∧ '\'' ∉ "insert".str ∧
    ∀ d ∈ "insert".str, Text.isAscii d = true :=
  ⟨by decide, by decide, List.all_eq_true.mp (by decide)⟩

/-- A word that is found nowhere is all that is not ASCII needs to panic. -/
theorem wordPresent_none_of_foreign (foreign : Text.isAscii c = false)
    (quotes : outside false before = true) (nonempty : word ≠ []) (letters : '\'' ∉ word)
    (ascii : ∀ d ∈ word, Text.isAscii d = true) :
    wordPresent (before ++ c :: after) word ≠ some false := by
  intro absent
  have silent := (not_congr (wordPresentFrom_none nonempty letters ascii)).mp
    (show wordPresentFrom word false none (before ++ c :: after) ≠ none by
      rw [wordPresent] at absent
      rw [absent]
      exact Option.some_ne_none _)
  by_cases stands : Stands word false none before (c :: after)
  · obtain ⟨x, y, whole, outsideX, left, right⟩ := stands
    have split : before ++ c :: after = x ++ word ++ (y ++ c :: after) := by
      rw [whole, List.append_assoc]
    exact wordPresentFrom_found split letters nonempty (of_decide_eq_true outsideX) left right absent
  · exact silent ⟨before, c, after, rfl, foreign, quotes, stands⟩

/-- After a word that is found nowhere, no other word panics. -/
theorem wordPresent_isSome {other : Str} (absent : wordPresent s word = some false)
    (nonempty : word ≠ []) (letters : '\'' ∉ word) (ascii : ∀ d ∈ word, Text.isAscii d = true)
    (plain : other ≠ [] ∧ '\'' ∉ other ∧ ∀ d ∈ other, Text.isAscii d = true) :
    (wordPresent s other).isSome := by
  rw [Option.isSome_iff_ne_none, wordPresent, Ne, wordPresentFrom_none plain.1 plain.2.1 plain.2.2]
  rintro ⟨before, c, after, rfl, foreign, quotes, -⟩
  exact wordPresent_none_of_foreign foreign quotes nonempty letters ascii absent

/-- The words are plain: not empty, without quotes, and ASCII. -/
theorem words_plain : ∀ word ∈ forbiddenKeywords ++ forbiddenReadTokens,
    word ≠ [] ∧ '\'' ∉ word ∧ ∀ d ∈ word, Text.isAscii d = true := by
  intro word member
  obtain ⟨nonempty, plain⟩ := listed_plain member
  refine ⟨nonempty, fun quote => ?_, fun d inWord => (plain d inWord).1⟩
  exact absurd List.mem_cons_self (plain _ quote).2.2

/-- A search over words none of which panics comes to an end. -/
theorem anyM_isSome {words : List Str} {found : Str → Option Bool}
    (ends : ∀ word ∈ words, (found word).isSome) : (words.anyM found).isSome := by
  induction words with
  | nil => rfl
  | cons head rest inductionHypothesis =>
    obtain ⟨hit, here⟩ := Option.isSome_iff_exists.mp (ends head List.mem_cons_self)
    rw [List.anyM_cons, here]
    cases hit with
    | true => rfl
    | false => exact inductionHypothesis (fun word member => ends word (List.mem_cons_of_mem _ member))

/-- The search for all words panics exactly where the one for the first does. -/
theorem scan_none (stmt : Str) :
    (do
      if ← containsDmlKeyword stmt then some false
      else some (!(← containsDangerousRead stmt))) = none ↔
      wordPresent stmt "insert".str = none := by
  have first : containsDmlKeyword stmt = (do
      if ← wordPresent stmt "insert".str then some true
      else forbiddenKeywords.tail.anyM (wordPresent stmt)) := by
    rw [containsDmlKeyword, forbiddenKeywords, List.anyM_cons]
    cases wordPresent stmt "insert".str with
    | none => rfl
    | some hit =>
      cases hit with
      | true => rfl
      | false => rfl
  rw [first]
  cases insert : wordPresent stmt "insert".str with
  | none => exact iff_of_true rfl rfl
  | some hit =>
    cases hit with
    | true =>
      exact iff_of_false (fun impossible => by cases impossible) (fun impossible => by cases impossible)
    | false =>
      refine iff_of_false ?_ (fun impossible => by cases impossible)
      have ends (words : List Str) (plain : words ⊆ forbiddenKeywords ++ forbiddenReadTokens) :
          (words.anyM (wordPresent stmt)).isSome :=
        anyM_isSome (fun word member => wordPresent_isSome insert insert_plain.1 insert_plain.2.1
          insert_plain.2.2 (words_plain word (plain member)))
      obtain ⟨dml, scanned⟩ := Option.isSome_iff_exists.mp
        (ends forbiddenKeywords.tail (fun word member =>
          List.mem_append_left _ (List.mem_of_mem_tail member)))
      obtain ⟨read, scannedRead⟩ := Option.isSome_iff_exists.mp
        (ends forbiddenReadTokens (List.subset_append_right _ _))
      intro panicked
      simp only [Option.bind_eq_bind, Option.bind_some, Bool.false_eq_true, if_false, scanned,
        containsDangerousRead, scannedRead] at panicked
      split_ifs at panicked

/-- The guard answers a query if and only if it is no single statement that begins with `select`
or `with`, or `insert` stands in it, outside quotes, before any character beyond ASCII that is
outside quotes. -/
theorem guard_answers (unicode : Unicode) (query : Str) :
    (isSafeSelect unicode query).isSome ↔
      ∀ single, statements unicode query = [single] →
        (isWordPrefix (Text.trim single) "select".str ||
          isWordPrefix (Text.trim single) "with".str) = true →
        ∀ before c after, Text.trim single = before ++ c :: after → Text.isAscii c = false →
          before.count '\'' % 2 = 0 → Stands "insert".str false none before (c :: after) := by
  rw [Option.isSome_iff_ne_none, isSafeSelect]
  cases shape : statements unicode query with
  | nil => exact iff_of_true (Option.some_ne_none _) (fun _ impossible => by cases impossible)
  | cons single others =>
    cases others with
    | cons second more =>
      exact iff_of_true (Option.some_ne_none _) (fun _ impossible => by cases impossible)
    | nil =>
      dsimp only
      by_cases starts : (isWordPrefix (Text.trim single) "select".str ||
          isWordPrefix (Text.trim single) "with".str) = true
      · rw [if_pos starts, Ne, scan_none, wordPresent,
          wordPresentFrom_none insert_plain.1 insert_plain.2.1 insert_plain.2.2]
        constructor
        · intro silent other same _ before c after whole foreign quotes
          obtain rfl : single = other := (List.cons.inj same).1
          by_contra early
          exact silent ⟨before, c, after, whole, foreign, decide_eq_true quotes, early⟩
        · rintro early ⟨before, c, after, whole, foreign, quotes, absent⟩
          exact absent (early single rfl starts before c after whole foreign
            (of_decide_eq_true quotes))
      · rw [if_neg starts]
        refine iff_of_true (Option.some_ne_none _) (fun other same begins => ?_)
        obtain rfl : single = other := (List.cons.inj same).1
        exact absurd begins starts

/-- A column name that is not ASCII takes the guard down. -/
theorem accent_panics : isSafeSelect Unicode.ascii "SELECT é FROM t".str = none := by
  decide +kernel

end LumidPlatform.Retrieve.Panics
