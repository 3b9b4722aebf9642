import LumidPlatform.Text

/-!
# Arrays as text

The statistics of a column come as arrays in their text form: elements between braces, with
commas, some of them in quotes. A scanner passes over the characters, an element or a comma at a
time. An element without quotes is trimmed, of more than what would have had it quoted.
-/

namespace LumidPlatform.Retrieve.PgArrays

/-! ## The scanner -/

/-- The inner loop after an opening quote: the element, and what is left behind its closing
quote. -/
def quotedPiece : Str → Str × Str
  | [] => ([], [])
  | '"' :: rest => ([], rest)
  | '\\' :: c :: rest => (c :: (quotedPiece rest).1, (quotedPiece rest).2)
  | c :: rest => (c :: (quotedPiece rest).1, (quotedPiece rest).2)

/-- An element without quotes, unless it is dropped. -/
def plainPiece (piece : Str) : Option Str :=
  let piece := Text.trim piece
  if !piece.isEmpty && piece ≠ "NULL".str then some piece else none

/-- One element, unless it is dropped, and what is left behind it. -/
def nextPiece : Str → Option Str × Str
  | '"' :: rest => (some (quotedPiece rest).1, (quotedPiece rest).2)
  | chars => (plainPiece (chars.takeWhile (· ≠ ',')), chars.dropWhile (· ≠ ','))

/-- A comma is passed over. -/
def skipComma : Str → Str
  | ',' :: rest => rest
  | chars => chars

/-- The outer loop, for so many passes; `none` if it is not over then. -/
def scan : Nat → Str → List Str → Option (List Str)
  | _, [], out => some out
  | 0, _ :: _, _ => none
  | passes + 1, c :: rest, out =>
    let next := nextPiece (c :: rest)
    scan passes (skipComma next.2) (out ++ next.1.toList)

/-- `parse_pg_array`, for so many passes. -/
def parsePgArray (passes : Nat) (text : Option Str) : Option (List Str) :=
  match text.map Text.trim with
  | none => some []
  | some text =>
    if text.head? = some '\x7b' ∧ text.getLast? = some '\x7d' then
      scan passes (text.drop 1).dropLast []
    else some []

/-! ## What Postgres writes -/

/-- `array_isspace`. -/
def isArraySpace (c : Char) : Bool :=
  c = ' ' || c = '\t' || c = '\n' || c = '\r' || c = '\x0b' || c = '\x0c'

/-- A character for which an element is quoted. -/
def isArrayMark (c : Char) : Bool :=
  c = '\x7b' || c = '\x7d' || c = ',' || c = '"' || c = '\\' || isArraySpace c

/-- `array_out` quotes the element. -/
def needsQuote (s : Str) : Bool :=
  s.isEmpty || Text.toAsciiLowercase s = "null".str || s.any isArrayMark

/-- An element in quotes. -/
def escaped (s : Str) : Str := s.flatMap fun c => if c = '"' ∨ c = '\\' then ['\\', c] else [c]

/-- An element as `array_out` writes it. -/
def written : Option Str → Str
  | none => "NULL".str
  | some s => if needsQuote s then '"' :: escaped s ++ ['"'] else s

/-- `array_out`. -/
def arrayOut (elements : List (Option Str)) : Str :=
  '\x7b' :: Text.join [','] (elements.map written) ++ ['\x7d']

/-! ## The scanner ends -/

theorem quotedPiece_le (chars : Str) : (quotedPiece chars).2.length ≤ chars.length := by
  fun_induction quotedPiece chars with
  | case1 => exact Nat.le_refl _
  | case2 rest => simp
  | case3 c rest inductionHypothesis =>
    simp only [List.length_cons]
    omega
  | case4 c rest closing escape inductionHypothesis =>
    simp only [List.length_cons]
    omega

theorem skipComma_le (chars : Str) : (skipComma chars).length ≤ chars.length := by
  rw [skipComma.eq_def]
  split
  · simp
  · exact Nat.le_refl _

/-- Every pass takes a character at least. -/
theorem pass_shorter (c : Char) (rest : Str) :
    (skipComma (nextPiece (c :: rest)).2).length ≤ rest.length := by
  by_cases quote : c = '"'
  · subst quote
    exact (skipComma_le _).trans (quotedPiece_le rest)
  · have plain : (nextPiece (c :: rest)).2 = (c :: rest).dropWhile (· ≠ ',') := by
      rw [nextPiece.eq_2 (c :: rest) fun other same => quote (List.cons.inj same).1]
    rw [plain]
    by_cases comma : c = ','
    · subst comma
      exact Nat.le_refl _
    · rw [List.dropWhile_cons_of_pos (by simpa using comma)]
      exact (skipComma_le _).trans (List.dropWhile_suffix _).length_le

/-- As many passes as there are characters are enough. -/
theorem scan_ends (passes : Nat) (chars : Str) (enough : chars.length ≤ passes) (out : List Str) :
    ∃ found, scan passes chars out = some found := by
  induction passes generalizing chars out with
  | zero =>
    obtain rfl := List.length_eq_zero_iff.mp (Nat.le_zero.mp enough)
    exact ⟨out, rfl⟩
  | succ passes inductionHypothesis =>
    cases chars with
    | nil => exact ⟨out, rfl⟩
    | cons c rest =>
      have shorter := pass_shorter c rest
      rw [List.length_cons] at enough
      exact inductionHypothesis _ (by omega) _

/-! ## One element -/

/-- What comes of an element. -/
def kept : Option Str → Option Str
  | none => none
  | some s => if needsQuote s then some s else plainPiece s

/-- An element in quotes is taken out of them as it was. -/
theorem quotedPiece_escaped (s tail : Str) :
    quotedPiece (escaped s ++ '"' :: tail) = (s, tail) := by
  induction s with
  | nil => rfl
  | cons c rest inductionHypothesis =>
    rw [escaped] at inductionHypothesis
    rw [escaped, List.flatMap_cons, List.append_assoc]
    by_cases mark : c = '"' ∨ c = '\\'
    · rw [if_pos mark]
      have step : quotedPiece (['\\', c] ++ (rest.flatMap (fun c =>
            if c = '"' ∨ c = '\\' then ['\\', c] else [c]) ++ '"' :: tail)) =
          (c :: (quotedPiece (rest.flatMap (fun c =>
            if c = '"' ∨ c = '\\' then ['\\', c] else [c]) ++ '"' :: tail)).1,
          (quotedPiece (rest.flatMap (fun c =>
            if c = '"' ∨ c = '\\' then ['\\', c] else [c]) ++ '"' :: tail)).2) := rfl
      rw [step, inductionHypothesis]
    · rw [not_or] at mark
      rw [if_neg (not_or.mpr mark), List.singleton_append,
        quotedPiece.eq_4 _ _ (fun same => mark.1 same) (fun _ _ same => absurd same mark.2),
        inductionHypothesis]

/-- An element without quotes has no mark. -/
theorem unquoted_marks {s : Str} (plain : needsQuote s = false) :
    s ≠ [] ∧ ∀ c ∈ s, isArrayMark c = false := by
  simp only [needsQuote, Bool.or_eq_false_iff] at plain
  refine ⟨fun empty => ?_, fun c member => ?_⟩
  · rw [empty] at plain
    cases plain.1.1
  · by_contra marked
    have found : s.any isArrayMark = true := List.any_eq_true.mpr ⟨c, member, by simpa using marked⟩
    rw [plain.2] at found
    cases found

theorem unmarked_ne {c : Char} (plain : isArrayMark c = false) : c ≠ ',' ∧ c ≠ '"' := by
  constructor
  · rintro rfl
    cases plain
  · rintro rfl
    cases plain

/-- The text ends here, or a comma follows. -/
def Cut (tail : Str) : Prop := tail = [] ∨ ∃ rest, tail = ',' :: rest

theorem nextPiece_plain {w tail : Str} (solid : ∀ c ∈ w, c ≠ ',' ∧ c ≠ '"') (nonempty : w ≠ [])
    (cut : Cut tail) : nextPiece (w ++ tail) = (plainPiece w, tail) := by
  have taken : (w ++ tail).takeWhile (· ≠ ',') = w ∧ (w ++ tail).dropWhile (· ≠ ',') = tail := by
    have all : ∀ c ∈ w, decide (c ≠ ',') = true := fun c member =>
      decide_eq_true (solid c member).1
    rw [List.takeWhile_append_of_pos all, List.dropWhile_append_of_pos all]
    obtain rfl | ⟨rest, rfl⟩ := cut
    · exact ⟨List.append_nil w, rfl⟩
    · exact ⟨List.append_nil w, rfl⟩
  rw [nextPiece.eq_2 (w ++ tail), taken.1, taken.2]
  intro rest same
  obtain ⟨c, others, rfl⟩ := List.exists_cons_of_ne_nil nonempty
  exact (solid c List.mem_cons_self).2 (List.cons.inj same).1

/-- The next element of a written array is what comes of it. -/
theorem nextPiece_written (element : Option Str) {tail : Str} (cut : Cut tail) :
    nextPiece (written element ++ tail) = (kept element, tail) := by
  cases element with
  | none =>
    have dropped : plainPiece "NULL".str = none := by decide
    have letters : "NULL".str.all (fun c => c ≠ ',' && c ≠ '"') = true := by decide
    have solid : ∀ c ∈ "NULL".str, c ≠ ',' ∧ c ≠ '"' := by
      simpa only [List.all_eq_true, Bool.and_eq_true, decide_eq_true_eq] using letters
    rw [written, nextPiece_plain solid (by decide) cut, dropped]
    rfl
  | some s =>
    by_cases quote : needsQuote s = true
    · rw [written, kept, if_pos quote, if_pos quote, List.append_assoc, List.cons_append, nextPiece,
        List.singleton_append, quotedPiece_escaped]
    · obtain ⟨nonempty, unmarked⟩ := unquoted_marks (Bool.eq_false_iff.mpr quote)
      rw [written, kept, if_neg quote, if_neg quote]
      exact nextPiece_plain (fun c member => unmarked_ne (unmarked c member)) nonempty cut

theorem written_ne_nil (element : Option Str) : written element ≠ [] := by
  cases element with
  | none => decide
  | some s =>
    rw [written]
    split_ifs with quote
    · simp
    · exact (unquoted_marks (Bool.eq_false_iff.mpr quote)).1

/-! ## All elements -/

/-- The scanner goes over a written array element by element. -/
theorem scan_written (elements : List (Option Str)) (passes : Nat) (out : List Str)
    (enough : (Text.join [','] (elements.map written)).length ≤ passes) :
    scan passes (Text.join [','] (elements.map written)) out =
      some (out ++ elements.filterMap kept) := by
  induction elements generalizing passes out with
  | nil =>
    rw [List.filterMap_nil, List.append_nil]
    cases passes <;> rfl
  | cons element rest inductionHypothesis =>
    obtain ⟨tail, cut, whole, left⟩ : ∃ tail, Cut tail ∧
        Text.join [','] ((element :: rest).map written) = written element ++ tail ∧
        skipComma tail = Text.join [','] (rest.map written) := by
      cases rest with
      | nil => exact ⟨[], Or.inl rfl, by simp [Text.join], rfl⟩
      | cons other more =>
        refine ⟨',' :: Text.join [','] ((other :: more).map written), Or.inr ⟨_, rfl⟩, ?_, rfl⟩
        rw [List.map_cons, List.map_cons, Text.join, List.intercalate_cons_cons]
        simp [Text.join]
    rw [whole] at enough ⊢
    obtain ⟨c, others, first⟩ := List.exists_cons_of_ne_nil (written_ne_nil element)
    have next := nextPiece_written element cut
    have shorter := skipComma_le tail
    rw [first, List.cons_append] at enough next ⊢
    rw [List.length_cons, List.length_append] at enough
    cases passes with
    | zero => omega
    | succ passes =>
      rw [scan, next, left, inductionHypothesis passes _ (by rw [← left]; omega),
        List.append_assoc, List.filterMap_cons]
      cases kept element <;> rfl

/-- The braces are around the elements, and no white space is around them. -/
theorem parsePgArray_arrayOut (elements : List (Option Str)) (passes : Nat)
    (enough : (arrayOut elements).length ≤ passes) :
    parsePgArray passes (some (arrayOut elements)) = some (elements.filterMap kept) := by
  have trimmed : Text.trim (arrayOut elements) = arrayOut elements := by
    have front : Text.isWhitespace '\x7b' = false := by decide
    have back : Text.isWhitespace '\x7d' = false := by decide
    rw [arrayOut, Text.trim, Text.trimStart, List.cons_append,
      List.dropWhile_cons_of_neg (by simp [front]), Text.trimEnd, ← List.cons_append,
      List.reverse_append, List.reverse_singleton, List.singleton_append,
      List.dropWhile_cons_of_neg (by simp [back])]
    simp
  have inner : ((arrayOut elements).drop 1).dropLast = Text.join [','] (elements.map written) := by
    simp [arrayOut]
  have shape : (arrayOut elements).head? = some '\x7b' ∧
      (arrayOut elements).getLast? = some '\x7d' := by
    refine ⟨rfl, ?_⟩
    rw [arrayOut, List.getLast?_concat]
  rw [parsePgArray, Option.map_some, trimmed]
  dsimp only
  rw [if_pos shape, inner, scan_written elements passes [] (by
    rw [← inner, List.length_dropLast, List.length_drop]
    omega), List.nil_append]

/-! ## What comes back -/

/-- Where no more comes out than went in, each comes out as it went in. -/
theorem each_of_filterMap {α : Type*} {f : α → Option α} {l : List α}
    (same : l.filterMap f = l) : ∀ x ∈ l, f x = some x := by
  induction l with
  | nil => simp
  | cons x rest inductionHypothesis =>
    have few := List.length_filterMap_le f rest
    rw [List.filterMap_cons] at same
    cases first : f x with
    | none =>
      rw [first] at same
      have lengths := congrArg List.length same
      simp only [List.length_cons] at lengths
      omega
    | some y =>
      rw [first] at same
      obtain ⟨rfl, later⟩ := List.cons.inj same
      exact List.forall_mem_cons.mpr ⟨first, inductionHypothesis later⟩

/-- An element comes back exactly if it is quoted or has no white space around it. -/
theorem kept_some_iff {s : Str} :
    kept (some s) = some s ↔ needsQuote s = true ∨ Text.trim s = s := by
  rw [kept]
  by_cases quote : needsQuote s = true
  · simp [quote]
  · rw [if_neg quote, or_iff_right quote, plainPiece]
    constructor
    · intro same
      split_ifs at same
      exact Option.some.inj same
    · intro solid
      have plain : s ≠ [] ∧ s ≠ "NULL".str := by
        refine ⟨(unquoted_marks (Bool.eq_false_iff.mpr quote)).1, ?_⟩
        rintro rfl
        exact quote (by decide)
      rw [solid, if_pos (by simpa using plain)]

/-- The loop ends on every text; and an array that was written comes back without its `NULL`s
exactly if none of its elements has white space around it that it is not quoted for. -/
theorem inverts_iff (elements : List (Option Str)) :
    (∀ (text : Str) (passes : Nat), text.length ≤ passes →
      ∃ found, parsePgArray passes (some text) = some found) ∧
    ((∀ passes, (arrayOut elements).length ≤ passes →
        parsePgArray passes (some (arrayOut elements)) = some (elements.filterMap id)) ↔
      ∀ s, some s ∈ elements → needsQuote s = true ∨ Text.trim s = s) := by
  constructor
  · intro text passes enough
    rw [parsePgArray, Option.map_some]
    dsimp only
    split_ifs with shape
    · refine scan_ends passes _ ?_ []
      have shorter : (Text.trim text).length ≤ text.length := by
        rw [Text.trim, Text.trimEnd, Text.trimStart, List.length_reverse]
        refine (List.dropWhile_suffix _).length_le.trans ?_
        rw [List.length_reverse]
        exact (List.dropWhile_suffix _).length_le
      rw [List.length_dropLast, List.length_drop]
      omega
    · exact ⟨[], rfl⟩
  · have parsed : (∀ passes, (arrayOut elements).length ≤ passes →
          parsePgArray passes (some (arrayOut elements)) = some (elements.filterMap id)) ↔
        elements.filterMap kept = elements.filterMap id := by
      constructor
      · intro all
        have found := parsePgArray_arrayOut elements _ (Nat.le_refl _)
        exact Option.some.inj (found.symm.trans (all _ (Nat.le_refl _)))
      · intro same passes enough
        rw [parsePgArray_arrayOut elements passes enough, same]
    have present : elements.filterMap kept =
        (elements.filterMap id).filterMap fun s => kept (some s) := by
      rw [List.filterMap_filterMap]
      refine List.filterMap_congr fun element _ => ?_
      cases element <;> rfl
    rw [parsed, present]
    constructor
    · intro same s member
      refine kept_some_iff.mp (each_of_filterMap same s ?_)
      exact List.mem_filterMap.mpr ⟨some s, member, rfl⟩
    · intro each
      refine (List.filterMap_congr fun s member => ?_).trans List.filterMap_some
      obtain ⟨element, inside, same⟩ := List.mem_filterMap.mp member
      exact kept_some_iff.mpr (each s (same ▸ inside))

/-- A text that begins with a no-break space loses it. -/
theorem noBreakSpace_lost : ¬∀ (elements : List (Option Str)) (passes : Nat),
    (arrayOut elements).length ≤ passes →
      parsePgArray passes (some (arrayOut elements)) = some (elements.filterMap id) := by
  intro all
  have back := all [some "\u00a0a".str] 4 (by decide)
  have lost : parsePgArray 4 (some (arrayOut [some "\u00a0a".str])) = some ["a".str] := by
    decide +kernel
  rw [lost] at back
  exact absurd back (by decide)

end LumidPlatform.Retrieve.PgArrays
