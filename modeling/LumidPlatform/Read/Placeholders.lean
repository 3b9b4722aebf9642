import LumidPlatform.Read.Alignment

/-!
# Two passes for one

A query without a parsed form reaches ClickHouse in two passes. The first writes the placeholders
of the other dialect, with their casts, and the second takes them away by their look. What the
second pass takes away is what the first one wrote only where the text has nothing that looks the
same, and each pass writes a character beyond ASCII out once more.
-/

namespace LumidPlatform.Read.Placeholders

open LumidPlatform.Read.Dialect LumidPlatform.Read.Alignment LumidPlatform.Read.Lexical
  LumidPlatform.Read.Rendered
open LumidPlatform.Read.Dialect.ClickHouseDialect

variable {values : HashMap BindValue}

/-- What a placeholder shows of its value. -/
def pgCast : BindValue → Str
  | .int _ => "::int8".str
  | .float _ => "::float8".str
  | _ => []

/-- The second pass keeps a piece and what follows it. A character is ASCII and begins no
placeholder, and a bind that is written without a cast is followed by none. -/
def Kept (values : HashMap BindValue) : Piece → List Piece → Prop
  | .char c, rest =>
    Text.isAscii c = true ∧
      (c = '$' → ∀ d, rest.head? = some (.char d) → Text.isAsciiDigit d = false)
  | .bind name, rest =>
    ∀ v, values.lookup name = some v → pgCast v = [] →
      ¬"::int8".str.map .char <+: rest ∧ ¬"::float8".str.map .char <+: rest

/-- The second pass keeps every piece. -/
def Untouched (values : HashMap BindValue) : List Piece → Prop
  | [] => True
  | piece :: rest => Kept values piece rest ∧ Untouched values rest

/-- Every bind has a value. -/
def Resolved (values : HashMap BindValue) (ps : List Piece) : Prop :=
  ∀ name ∈ pieceNames ps, (values.lookup name).isSome = true

/-- No bind goes on with a digit. -/
def Closed : List Piece → Prop
  | [] => True
  | .char _ :: rest => Closed rest
  | .bind _ :: rest =>
    (∀ d, rest.head? = some (.char d) → Text.isAsciiDigit d = false) ∧ Closed rest

/-! ## The first pass -/

/-- The text that the first pass writes. -/
def written (values : HashMap BindValue) (n : Nat) (ps : List Piece) : Str :=
  (tagged values n ps).map Prod.fst

@[simp]
theorem written_nil (n : Nat) : written values n [] = [] := rfl

theorem written_char (n : Nat) (c : Char) (rest : List Piece) :
    written values n (.char c :: rest) = Text.pushBytes c ++ written values n rest := by
  simp [written, tagged, Function.comp_def]

theorem written_bind {name : Str} {v : BindValue} (found : values.lookup name = some v) (n : Nat)
    (rest : List Piece) :
    written values n (.bind name :: rest) =
      '$' :: (Text.showNat n ++ (pgCast v ++ written values (n + 1) rest)) := by
  have shape : pgPlaceholder n v = '$' :: (Text.showNat n ++ pgCast v) := by
    cases v <;> rfl
  simp [written, tagged, found, shape, Function.comp_def]

theorem resolved_tail {name : Str} {rest : List Piece}
    (resolved : Resolved values (.bind name :: rest)) :
    (∃ v, values.lookup name = some v) ∧ Resolved values rest := by
  constructor
  · exact Option.isSome_iff_exists.mp (resolved name List.mem_cons_self)
  · exact fun other member => resolved other (List.mem_cons_of_mem name member)

/-- The written text goes on with a digit when the pieces do. -/
theorem digit_head {ps : List Piece} (resolved : Resolved values ps) (n : Nat) :
    (written values n ps).head?.any Text.isAsciiDigit = false ↔
      ∀ d, ps.head? = some (.char d) → Text.isAsciiDigit d = false := by
  cases ps with
  | nil => simp
  | cons piece rest =>
    cases piece with
    | bind name =>
      obtain ⟨⟨v, found⟩, -⟩ := resolved_tail resolved
      rw [written_bind found]
      refine iff_of_true rfl fun d same => ?_
      cases Option.some.inj same
    | char c =>
      have here : (∀ d, (Piece.char c :: rest).head? = some (.char d) →
          Text.isAsciiDigit d = false) ↔ Text.isAsciiDigit c = false := by
        constructor
        · exact fun all => all c rfl
        · intro none d same
          obtain rfl := Piece.char.inj (Option.some.inj same)
          exact none
      rw [here, written_char]
      by_cases ascii : Text.isAscii c = true
      · rw [Text.pushBytes_ascii ascii]
        rfl
      · have foreign := Bool.eq_false_iff.mpr ascii
        have bytes := Text.pushBytes_foreign foreign
        cases shown : Text.pushBytes c with
        | nil => exact absurd shown (Text.pushBytes_ne_nil c)
        | cons e others =>
          rw [shown] at bytes
          have first := isDigit_foreign (bytes e List.mem_cons_self)
          simp [first, isDigit_foreign foreign]

/-- A word of ASCII letters stands at the front of what is written when the pieces begin
with it. -/
theorem prefix_written (word : Str) (ascii : ∀ c ∈ word, Text.isAscii c = true)
    (plain : '$' ∉ word) {ps : List Piece} (resolved : Resolved values ps) (n : Nat) :
    word <+: written values n ps ↔ word.map .char <+: ps := by
  induction word generalizing ps with
  | nil => simp
  | cons c more inductionHypothesis =>
    have here := ascii c List.mem_cons_self
    have behind {others : List Piece} (resolved : Resolved values others) :=
      inductionHypothesis (fun d member => ascii d (List.mem_cons_of_mem c member))
        (fun member => plain (List.mem_cons_of_mem c member)) resolved
    cases ps with
    | nil => simp
    | cons piece rest =>
      cases piece with
      | bind name =>
        obtain ⟨⟨v, found⟩, -⟩ := resolved_tail resolved
        rw [written_bind found, List.map_cons, List.cons_prefix_cons, List.cons_prefix_cons]
        refine iff_of_false (fun both => plain ?_) (fun both => nomatch both.1)
        rw [← both.1]
        exact List.mem_cons_self
      | char d =>
        rw [written_char, List.map_cons, List.cons_prefix_cons, Piece.char.injEq]
        by_cases plainNext : Text.isAscii d = true
        · rw [Text.pushBytes_ascii plainNext, List.singleton_append, List.cons_prefix_cons,
            behind (show Resolved values rest from resolved)]
        · have foreign := Text.pushBytes_foreign (Bool.eq_false_iff.mpr plainNext)
          cases shown : Text.pushBytes d with
          | nil => exact absurd shown (Text.pushBytes_ne_nil d)
          | cons e others =>
            rw [List.cons_append, List.cons_prefix_cons]
            refine iff_of_false (fun both => ?_) (fun both => plainNext (both.1 ▸ here))
            have first := foreign e (shown ▸ List.mem_cons_self)
            rw [← both.1, here] at first
            cases first

/-! ## The second pass -/

/-- How much of a cast follows a placeholder's digits. -/
def castLength (after : Str) : Nat :=
  if Text.startsWith after "::int8".str then 6
  else if Text.startsWith after "::float8".str then 8
  else 0

/-- A cast that was written with the placeholder is what is found there. -/
theorem castLength_pgCast (v : BindValue) (after : Str) :
    castLength (pgCast v ++ after) =
      if pgCast v = [] then castLength after else (pgCast v).length := by
  cases v <;> rfl

theorem castLength_eq_zero_iff {ps : List Piece} (resolved : Resolved values ps) (n : Nat) :
    castLength (written values n ps) = 0 ↔
      ¬"::int8".str.map .char <+: ps ∧ ¬"::float8".str.map .char <+: ps := by
  have int := prefix_written "::int8".str (List.all_eq_true.mp (by decide)) (by decide)
    resolved n
  have float := prefix_written "::float8".str (List.all_eq_true.mp (by decide)) (by decide)
    resolved n
  rw [← int, ← float, castLength, Text.startsWith, Text.startsWith,
    ← List.isPrefixOf_iff_prefix, ← List.isPrefixOf_iff_prefix]
  split_ifs with first second
  · simp [first]
  · simp [second]
  · simp [first, second]

/-- A placeholder that the first pass wrote is read to its end, and then a cast is. -/
theorem length_written (n : Nat) (v : BindValue) {after : Str}
    (stops : after.head?.any Text.isAsciiDigit = false) :
    pgPlaceholderLength (Text.showNat n ++ (pgCast v ++ after)) =
      some ((Text.showNat n).length + castLength (pgCast v ++ after)) := by
  have digits : (Text.showNat n ++ (pgCast v ++ after)).takeWhile Text.isAsciiDigit =
      Text.showNat n := by
    rw [List.takeWhile_append_of_pos (fun c member => Text.isAsciiDigit_of_mem_showNat member)]
    have stopped : (pgCast v ++ after).takeWhile Text.isAsciiDigit = [] := by
      cases v with
      | int i => rfl
      | float x => rfl
      | _ =>
        cases after with
        | nil => rfl
        | cons d more =>
          rw [List.head?_cons, Option.any_some] at stops
          exact List.takeWhile_cons_of_neg (by simp [stops])
    rw [stopped, List.append_nil]
  have some_digit : (Text.showNat n).isEmpty = false := by
    rw [List.isEmpty_eq_false_iff]
    exact Nat.toDigits_ne_nil
  rw [pgPlaceholderLength, digits, some_digit, List.drop_left]
  rfl

theorem translate_skip (text : Str) (left : Nat) :
    pgPlaceholdersToChFrom left text = pgPlaceholdersToChFrom 0 (text.drop left) := by
  induction left generalizing text with
  | zero => rfl
  | succ left inductionHypothesis =>
    cases text with
    | nil => rfl
    | cons c rest =>
      rw [List.drop_succ_cons, ← inductionHypothesis rest]
      rfl

theorem translate_copies {c : Char} (other : c ≠ '$') (rest : Str) :
    pgPlaceholdersToChFrom 0 (c :: rest) =
      Text.pushBytes c ++ pgPlaceholdersToChFrom 0 rest := by
  rw [pgPlaceholdersToChFrom, if_neg other]

/-- Characters that begin no placeholder are copied. -/
theorem translate_append {front : Str} (dull : ∀ c ∈ front, c ≠ '$') (rest : Str) :
    pgPlaceholdersToChFrom 0 (front ++ rest) =
      front.flatMap Text.pushBytes ++ pgPlaceholdersToChFrom 0 rest := by
  induction front with
  | nil => rfl
  | cons c more inductionHypothesis =>
    rw [List.cons_append, translate_copies (dull c List.mem_cons_self),
      inductionHypothesis (fun d member => dull d (List.mem_cons_of_mem c member)),
      List.flatMap_cons, List.append_assoc]

theorem translate_dollar (rest : Str) :
    pgPlaceholdersToChFrom 0 ('$' :: rest) =
      match pgPlaceholderLength rest with
      | some length => '?' :: pgPlaceholdersToChFrom 0 (rest.drop length)
      | none => '$' :: pgPlaceholdersToChFrom 0 rest := by
  rw [pgPlaceholdersToChFrom, if_pos rfl]
  cases pgPlaceholderLength rest with
  | none => rfl
  | some length =>
    simp only
    rw [translate_skip]

/-- The placeholder of a bind is translated to its mark. Behind it a cast of the text goes
too where the placeholder was written without one. -/
theorem translate_bind {name : Str} {v : BindValue} (found : values.lookup name = some v)
    {rest : List Piece} (resolved : Resolved values rest)
    (closed : ∀ d, rest.head? = some (.char d) → Text.isAsciiDigit d = false) (n : Nat) :
    pgPlaceholdersToChFrom 0 (written values n (.bind name :: rest)) =
      '?' :: pgPlaceholdersToChFrom 0 ((written values (n + 1) rest).drop
        (if pgCast v = [] then castLength (written values (n + 1) rest) else 0)) := by
  rw [written_bind found, translate_dollar,
    length_written n v ((digit_head resolved (n + 1)).mpr closed)]
  simp only
  rw [List.drop_length_add_append, castLength_pgCast]
  by_cases bare : pgCast v = []
  · rw [if_pos bare, if_pos bare, bare, List.nil_append]
  · rw [if_neg bare, if_neg bare, List.drop_left, List.drop_zero]

/-! ## What is copied twice -/

theorem isAscii_of_digit {c : Char} (digit : Text.isAsciiDigit c = true) :
    Text.isAscii c = true :=
  isAscii_of_isIdent (by simp [isIdent, Text.isAsciiAlphanumeric, digit])

/-- The second pass writes each character beyond ASCII out as two or more. -/
theorem foreign_translate {text : Str} {left : Nat}
    (ascii : ∀ c ∈ text.take left, Text.isAscii c = true) :
    2 * foreign text ≤ foreign (pgPlaceholdersToChFrom left text) := by
  induction text generalizing left with
  | nil => exact Nat.zero_le _
  | cons c rest inductionHypothesis =>
    rw [foreign_cons]
    cases left with
    | succ left =>
      have here := ascii c List.mem_cons_self
      have behind := inductionHypothesis (fun d member => ascii d (List.mem_cons_of_mem c member))
      rw [if_pos here, pgPlaceholdersToChFrom]
      exact behind
    | zero =>
      cases found : (if c = '$' then pgPlaceholderLength rest else none) with
      | none =>
        have behind := @inductionHypothesis 0 (by simp)
        have here := foreign_pushBytes c
        simp only [pgPlaceholdersToChFrom, found, foreign_append]
        omega
      | some length =>
        have dollar : c = '$' := by
          by_contra other
          rw [if_neg other] at found
          cases found
        subst dollar
        rw [if_pos rfl] at found
        have covered := forall_take_of_length (P := fun c => Text.isAscii c = true)
          (fun c digit => isAscii_of_digit digit) (List.all_eq_true.mp (by decide)) found
        have behind := inductionHypothesis covered
        simp only [pgPlaceholdersToChFrom, if_pos, found, foreign_cons]
        simpa [Text.isAscii] using behind

/-- Either pass writes as many characters beyond ASCII for the text. -/
theorem foreign_written {ps : List Piece} (resolved : Resolved values ps) (n : Nat) :
    foreign (written values n ps) = foreign (ps.flatMap pieceText) := by
  induction ps generalizing n with
  | nil => rfl
  | cons piece rest inductionHypothesis =>
    cases piece with
    | char c =>
      rw [written_char, List.flatMap_cons, foreign_append, foreign_append, pieceText,
        inductionHypothesis resolved]
    | bind name =>
      obtain ⟨⟨v, found⟩, tail⟩ := resolved_tail resolved
      have placeholder := foreign_pgPlaceholder n v
      have shape : written values n (.bind name :: rest) =
          pgPlaceholder n v ++ written values (n + 1) rest := by
        rw [written_bind found]
        cases v <;> simp [pgPlaceholder, pgCast]
      rw [shape, List.flatMap_cons, foreign_append, foreign_append, placeholder,
        inductionHypothesis tail]
      rfl

/-! ## What is taken away -/

theorem castLength_covers (after : Str) :
    (after.take (castLength after)).length = castLength after ∧
      ∀ c ∈ after.take (castLength after), c ≠ '$' := by
  have cut (word : Str) (plain : '$' ∉ word) (begins : Text.startsWith after word = true) :
      (after.take word.length).length = word.length ∧ ∀ c ∈ after.take word.length, c ≠ '$' := by
    rw [← List.prefix_iff_eq_take.mp (List.isPrefixOf_iff_prefix.mp begins)]
    exact ⟨rfl, fun c member same => plain (same ▸ member)⟩
  rw [castLength]
  split_ifs with int float
  · exact cut "::int8".str (by decide) int
  · exact cut "::float8".str (by decide) float
  · simp

/-- What is left out makes the text shorter. -/
theorem length_translate_drop {text : Str} {k : Nat} (dull : ∀ c ∈ text.take k, c ≠ '$') :
    (pgPlaceholdersToChFrom 0 (text.drop k)).length + (text.take k).length ≤
      (pgPlaceholdersToChFrom 0 text).length := by
  have longer (front : Str) : front.length ≤ (front.flatMap Text.pushBytes).length := by
    induction front with
    | nil => exact Nat.le_refl 0
    | cons c more inductionHypothesis =>
      have some_byte := List.length_pos_iff.mpr (Text.pushBytes_ne_nil c)
      rw [List.flatMap_cons, List.length_append, List.length_cons]
      omega
  have parts := translate_append dull (text.drop k)
  rw [List.take_append_drop] at parts
  rw [parts, List.length_append]
  have front := longer (text.take k)
  omega

/-- The second pass never makes an ASCII text longer than the one pass does. -/
theorem length_translate_written {ps : List Piece}
    (ascii : ∀ c, .char c ∈ ps → Text.isAscii c = true) (resolved : Resolved values ps)
    (closed : Closed ps) (n : Nat) :
    (pgPlaceholdersToChFrom 0 (written values n ps)).length ≤
      (ps.flatMap pieceText).length := by
  induction ps generalizing n with
  | nil => exact Nat.le_refl 0
  | cons piece rest inductionHypothesis =>
    have behind := inductionHypothesis (fun d member => ascii d (List.mem_cons_of_mem piece member))
    cases piece with
    | char c =>
      have shown := Text.pushBytes_ascii (ascii c List.mem_cons_self)
      have tail := behind resolved closed n
      rw [written_char, List.flatMap_cons, pieceText, shown, List.singleton_append,
        List.singleton_append, List.length_cons]
      by_cases dollar : c = '$'
      · subst dollar
        rw [translate_dollar]
        cases found : pgPlaceholderLength (written values n rest) with
        | none =>
          rw [List.length_cons]
          omega
        | some length =>
          have shorter := length_translate_drop
            (fun c member => (dull_of_length found c member).1)
          rw [List.length_cons]
          omega
      · rw [translate_copies dollar, shown, List.singleton_append, List.length_cons]
        omega
    | bind name =>
      obtain ⟨⟨v, found⟩, resolvedTail⟩ := resolved_tail resolved
      have tail := behind resolvedTail closed.2 (n + 1)
      rw [translate_bind found resolvedTail closed.1, List.flatMap_cons, pieceText,
        List.singleton_append, List.length_cons, List.length_cons]
      split_ifs
      · have shorter := length_translate_drop (castLength_covers (written values (n + 1) rest)).2
        omega
      · rw [List.drop_zero]
        omega

/-- On an ASCII text the two passes agree with the one exactly where nothing is touched. -/
theorem translate_written_iff {ps : List Piece}
    (ascii : ∀ c, .char c ∈ ps → Text.isAscii c = true) (resolved : Resolved values ps)
    (closed : Closed ps) (n : Nat) :
    pgPlaceholdersToChFrom 0 (written values n ps) = ps.flatMap pieceText ↔
      Untouched values ps := by
  induction ps generalizing n with
  | nil => exact iff_of_true rfl trivial
  | cons piece rest inductionHypothesis =>
    have asciiTail : ∀ d, .char d ∈ rest → Text.isAscii d = true :=
      fun d member => ascii d (List.mem_cons_of_mem piece member)
    cases piece with
    | char c =>
      have plain := ascii c List.mem_cons_self
      have shown := Text.pushBytes_ascii plain
      have tail := inductionHypothesis asciiTail resolved closed n
      rw [written_char, List.flatMap_cons, pieceText, shown, List.singleton_append,
        List.singleton_append, Untouched, Kept]
      by_cases dollar : c = '$'
      · subst dollar
        have digit := digit_head (show Resolved values rest from resolved) n
        rw [← length_eq_none_iff] at digit
        rw [translate_dollar]
        cases found : pgPlaceholderLength (written values n rest) with
        | none =>
          rw [List.cons.injEq, and_iff_right rfl, tail, and_iff_right]
          exact ⟨plain, fun _ => digit.mp found⟩
        | some length =>
          refine iff_of_false (fun same => ?_) (fun kept => ?_)
          · exact absurd (List.cons.inj same).1 (by decide)
          · rw [digit.mpr (kept.1.2 rfl)] at found
            cases found
      · rw [translate_copies dollar, shown, List.singleton_append, List.cons.injEq,
          and_iff_right rfl, tail, and_iff_right]
        exact ⟨plain, fun same => absurd same dollar⟩
    | bind name =>
      obtain ⟨⟨v, found⟩, resolvedTail⟩ := resolved_tail resolved
      have tail := inductionHypothesis asciiTail resolvedTail closed.2 (n + 1)
      have bound := length_translate_written asciiTail resolvedTail closed.2 (n + 1)
      have covers := castLength_covers (written values (n + 1) rest)
      have casts := castLength_eq_zero_iff resolvedTail (n + 1)
      rw [translate_bind found resolvedTail closed.1, List.flatMap_cons, pieceText,
        List.singleton_append, List.cons.injEq, and_iff_right rfl, Untouched, Kept]
      by_cases bare : pgCast v = []
      · rw [if_pos bare]
        by_cases none : castLength (written values (n + 1) rest) = 0
        · rw [none, List.drop_zero, tail, and_iff_right]
          exact fun _ _ _ => casts.mp none
        · refine iff_of_false (fun same => ?_) (fun kept => none (casts.mpr (kept.1 v found bare)))
          have shorter := length_translate_drop covers.2
          rw [same, covers.1] at shorter
          omega
      · rw [if_neg bare, List.drop_zero, tail, and_iff_right]
        intro w same uncast
        obtain rfl := Option.some.inj (found.symm.trans same)
        exact absurd uncast bare

/-- The pieces of a text: a bind ends where no identifier goes on. -/
theorem closed_pieces (prevColon : Bool) : ∀ text : Str, Closed (piecesFrom prevColon 0 text)
  | [] => trivial
  | c :: rest => by
    rcases piecesFrom_cases prevColon c rest with
      ⟨-, cut⟩ | ⟨name, after, -, -, shape, -, ends, cut⟩
    · rw [cut]
      exact closed_pieces (c == ':') rest
    · rw [cut]
      refine ⟨fun d same => ?_, closed_pieces false after⟩
      cases after with
      | nil => cases same
      | cons e more =>
        rcases piecesFrom_cases false e more with ⟨-, goes⟩ | ⟨other, later, -, -, -, -, -, goes⟩
        · rw [goes] at same
          obtain rfl := Piece.char.inj (Option.some.inj same)
          by_contra digit
          rw [Bool.not_eq_false] at digit
          have ident : isIdent e = true := by simp [isIdent, Text.isAsciiAlphanumeric, digit]
          rw [List.head?_cons, Option.all_some, ident] at ends
          cases ends
        · rw [goes] at same
          cases Option.some.inj same
  termination_by text => text.length
  decreasing_by
    · simp
    · simp only [shape, List.length_cons, List.length_append]
      omega

/-! ## The two lowerings -/

/-- A bind without a value stops every lowering in the same way. -/
theorem lowerPieces_unresolved (placeholder other : Nat → BindValue → Str)
    {ps : List Piece} (missing : ∃ name ∈ pieceNames ps, values.lookup name = none)
    (out out' : Str) (ordered ordered' : List BindValue) :
    ∃ e, lowerPieces placeholder values out ordered ps = .error e ∧
      lowerPieces other values out' ordered' ps = .error e := by
  induction ps generalizing out out' ordered ordered' with
  | nil =>
    obtain ⟨name, member, -⟩ := missing
    cases member
  | cons piece rest inductionHypothesis =>
    cases piece with
    | char c => exact inductionHypothesis missing _ _ _ _
    | bind name =>
      rw [lowerPieces, lowerPieces]
      cases found : values.lookup name with
      | none => exact ⟨_, rfl, rfl⟩
      | some v =>
        obtain ⟨lacking, member, unknown⟩ := missing
        rcases List.mem_cons.mp member with rfl | later
        · rw [found] at unknown
          cases unknown
        · exact inductionHypothesis ⟨lacking, later, unknown⟩ _ _ _ _

/-- The text written out in one pass, with the values in order. -/
def lowerDirectly (text : Str) (values : HashMap BindValue) : ApiResult BoundSql :=
  (lowerTextBinds values text []).map (fun out => ⟨out.1, out.2⟩)

/-- Where every bind has a value, the two passes differ from the one in the text alone. -/
theorem lower_resolved (crates : Crates) (dialect : ClickHouseDialect) {text : Str}
    (resolved : Resolved values (pieces text)) :
    ∃ ordered, dialect.lower crates text values none =
        .ok ⟨pgPlaceholdersToCh (written values 1 (pieces text)), ordered⟩ ∧
      lowerDirectly text values = .ok ⟨(pieces text).flatMap pieceText, ordered⟩ := by
  obtain ⟨first, ranFirst⟩ := lowerPieces_isOk pgPlaceholder resolved [] []
  obtain ⟨second, ranSecond⟩ := lowerPieces_isOk (fun _ _ => ['?']) resolved [] []
  have sameValues : first.2 = second.2 := by
    have both := (lowerPieces_values ranFirst).trans (lowerPieces_values ranSecond).symm
    exact List.map_injective_iff.mpr (Option.some_injective _) both
  have firstText : first.1 = written values 1 (pieces text) := lowerPieces_tagged ranFirst
  have secondText : second.1 = (pieces text).flatMap pieceText :=
    @lowerPieces_text values [] second.2 [] second.1 (pieces text) ranSecond
  refine ⟨first.2, ?_, ?_⟩
  · rw [ClickHouseDialect.lower, lowerBinds, lowerScan_eq_lowerPieces]
    rw [pieces] at ranFirst
    rw [ranFirst, ← firstText]
    rfl
  · rw [lowerDirectly, lowerTextBinds, lowerScan_eq_lowerPieces]
    rw [pieces] at ranSecond
    rw [ranSecond, ← secondText, sameValues]
    rfl

theorem ascii_of_untouched {ps : List Piece} (untouched : Untouched values ps) :
    ∀ c, .char c ∈ ps → Text.isAscii c = true := by
  induction ps with
  | nil => simp
  | cons piece rest inductionHypothesis =>
    intro c member
    rcases List.mem_cons.mp member with rfl | later
    · exact untouched.1.1
    · exact inductionHypothesis untouched.2 c later

/-- The two passes write what the one does exactly where they touch nothing of the text. -/
theorem written_iff_untouched {text : Str} (resolved : Resolved values (pieces text)) :
    pgPlaceholdersToCh (written values 1 (pieces text)) = (pieces text).flatMap pieceText ↔
      Untouched values (pieces text) := by
  have closed : Closed (pieces text) := closed_pieces false text
  constructor
  · intro same
    have once := foreign_written resolved 1
    have twice := @foreign_translate (written values 1 (pieces text)) 0 (by simp)
    rw [← pgPlaceholdersToCh, same] at twice
    have none : foreign ((pieces text).flatMap pieceText) = 0 := by omega
    refine (translate_written_iff (fun c member => ?_) resolved closed 1).mp same
    by_contra other
    have beyond := Text.pushBytes_foreign (Bool.eq_false_iff.mpr other)
    obtain ⟨d, more, shown⟩ := List.exists_cons_of_ne_nil (Text.pushBytes_ne_nil c)
    have inside : d ∈ Text.pushBytes c := shown ▸ List.mem_cons_self
    have plain := foreign_eq_zero.mp none d (List.mem_flatMap.mpr ⟨_, member, inside⟩)
    rw [beyond d inside] at plain
    cases plain
  · intro untouched
    exact (translate_written_iff (ascii_of_untouched untouched) resolved closed 1).mpr untouched

/-- The two passes are the one exactly where a bind is unknown, so that both stop at it, or the
text has nothing beyond ASCII, no placeholder of its own, and no cast behind a bind whose value
is written without one. -/
theorem lower_eq_lowerDirectly_iff (crates : Crates) (dialect : ClickHouseDialect) (text : Str)
    (values : HashMap BindValue) :
    dialect.lower crates text values none = lowerDirectly text values ↔
      (∃ name ∈ bindNames text, values.lookup name = none) ∨
        Untouched values (pieces text) := by
  by_cases missing : ∃ name ∈ bindNames text, values.lookup name = none
  · refine iff_of_true ?_ (Or.inl missing)
    obtain ⟨e, first, second⟩ := lowerPieces_unresolved pgPlaceholder (fun _ _ => ['?']) missing
      [] [] [] []
    rw [pieces] at first second
    rw [ClickHouseDialect.lower, lowerDirectly, lowerBinds, lowerTextBinds,
      lowerScan_eq_lowerPieces, lowerScan_eq_lowerPieces, first, second]
    rfl
  · have resolved : Resolved values (pieces text) := by
      intro name member
      by_contra unknown
      exact missing ⟨name, member, by simpa using unknown⟩
    obtain ⟨ordered, twice, once⟩ := lower_resolved crates dialect resolved
    rw [or_iff_right missing, ← written_iff_untouched resolved, twice, once]
    constructor
    · intro same
      exact congrArg BoundSql.sql (Except.ok.inj same)
    · intro same
      rw [same]

/-- An author's `$5` in a literal is taken for a placeholder. -/
theorem dollar_literal_lost :
    ¬∀ (crates : Crates) (dialect : ClickHouseDialect) (text : Str) (values : HashMap BindValue),
      dialect.lower crates text values none = lowerDirectly text values := by
  intro all
  have same := all Crates.plain ⟨false, []⟩ "SELECT '$5'".str ∅
  have texts := congrArg (fun result => result.toOption.map BoundSql.sql) same
  exact absurd texts (by decide +kernel)

end LumidPlatform.Read.Placeholders
