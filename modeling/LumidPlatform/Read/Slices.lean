import LumidPlatform.Read.Parse

/-!
# Where the SELECT reader panics

The scans for `AND`, `OR`, operators and casts take a slice at every byte outside parentheses.
A character of several bytes there makes the reader panic: in a condition, quotes or not, and
in an operand that is read of it, outside quotes. Which operands are read is what the reader
makes of the text before them.
-/

namespace LumidPlatform.Read.Slices

open LumidPlatform.Read.Ir Parse

variable {T U : Type} {needle s source before after w : Str} {c : Char} {depth : Int}
  {inStr : Bool} {n m pos : Nat}

/-! ## Attempts -/

instance : LawfulMonad Attempt := LawfulMonad.mk' Attempt
  (by intro T attempt; cases attempt <;> rfl)
  (fun _ _ => rfl)
  (by intro T U V attempt f g; cases attempt <;> rfl)

/-- A step panics, or the next one does. -/
theorem bind_panicked {attempt : Attempt T} {next : T → Attempt U} :
    (attempt >>= next) = .panicked ↔
      attempt = .panicked ∨ ∃ value, attempt = .found value ∧ next value = .panicked := by
  cases attempt with
  | found value =>
    constructor
    · exact fun later => .inr ⟨value, rfl, later⟩
    · rintro (impossible | ⟨_, same, later⟩)
      · cases impossible
      · cases same
        exact later
  | refused =>
    refine iff_of_false nofun ?_
    rintro (impossible | ⟨_, impossible, -⟩)
    · cases impossible
    · cases impossible
  | panicked => exact iff_of_true rfl (.inl rfl)

/-- An option is no panic. -/
theorem ofOption_panicked {option : Option T} : Attempt.ofOption option ≠ .panicked := by
  cases option with
  | none => exact nofun
  | some value => exact nofun

/-- What it holds is found. -/
theorem ofOption_found {option : Option T} {value : T} :
    Attempt.ofOption option = .found value ↔ option = some value := by
  cases option with
  | none => exact iff_of_false nofun nofun
  | some found =>
    exact ⟨fun same => congrArg some (Attempt.found.inj same), fun same => by cases same; rfl⟩

/-- Of a list, one element panics after others that were read. -/
theorem mapM_panicked {read : T → Attempt U} {items : List T} :
    items.mapM read = .panicked ↔ ∃ before item after, items = before ++ item :: after ∧
      (∀ earlier ∈ before, ∃ value, read earlier = .found value) ∧ read item = .panicked := by
  induction items with
  | nil =>
    refine iff_of_false nofun ?_
    rintro ⟨before, item, after, whole, -⟩
    simp at whole
  | cons first rest inductionHypothesis =>
    rw [List.mapM_cons, bind_panicked]
    constructor
    · rintro (here | ⟨value, read, later⟩)
      · exact ⟨[], first, rest, rfl, nofun, here⟩
      · rw [bind_panicked] at later
        obtain ⟨before, item, after, rfl, readable, panics⟩ :=
          inductionHypothesis.mp
            (later.resolve_right (fun ⟨_, _, impossible⟩ => by cases impossible))
        refine ⟨first :: before, item, after, rfl, fun earlier member => ?_, panics⟩
        rcases List.mem_cons.mp member with rfl | inRest
        · exact ⟨value, read⟩
        · exact readable earlier inRest
    · rintro ⟨before, item, after, whole, readable, panics⟩
      cases before with
      | nil =>
        obtain ⟨rfl, -⟩ := List.cons.inj whole
        exact .inl panics
      | cons earlier before =>
        obtain ⟨rfl, rfl⟩ := List.cons.inj whole
        obtain ⟨value, read⟩ := readable first List.mem_cons_self
        refine .inr ⟨value, read, bind_panicked.mpr (.inl ?_)⟩
        exact inductionHypothesis.mpr ⟨before, item, after, rfl,
          fun earlier member => readable earlier (List.mem_cons_of_mem _ member), panics⟩

/-! ## `find_top` -/

/-- The depth of parentheses behind a text, and whether a quote is open there. -/
def scanned (depth : Int) (inStr : Bool) : Str → Int × Bool
  | [] => (depth, inStr)
  | c :: rest =>
    if inStr then scanned depth (c != '\'') rest else scanned (deeper depth c) (c == '\'') rest

/-- A needle that `find_top` is asked for: some characters, all of them ASCII. -/
structure Plain (needle : Str) : Prop where
  filled : needle ≠ []
  ascii : ∀ d ∈ needle, Text.isAscii d = true

/-- Outside parentheses and quotes stands a character of several bytes, with as many bytes
behind its first one as the needle has; the needle is not found before it. -/
def Exposed (needle : Str) (depth : Int) (inStr : Bool) (s : Str) : Prop :=
  ∃ before c after, s = before ++ c :: after ∧ Text.isAscii c = false ∧
    scanned depth inStr before = (0, false) ∧ needle.length ≤ Text.byteLen (c :: after) - 1 ∧
    findTopFrom needle depth inStr before = .refused

/-- A character beyond ASCII is no bracket. -/
theorem deeper_foreign (foreign : Text.isAscii c = false) : deeper depth c = depth := by
  rw [deeper, if_neg, if_neg]
  · rintro rfl
    cases foreign
  · rintro rfl
    cases foreign

/-- What is ASCII stands whole before a character that is not. -/
theorem startsWith_foreign (before : Str) (ascii : ∀ d ∈ needle, Text.isAscii d = true)
    (foreign : Text.isAscii c = false) :
    Text.startsWith (before ++ c :: after) needle = Text.startsWith before needle := by
  induction needle generalizing before with
  | nil => simp [Text.startsWith]
  | cons d needle inductionHypothesis =>
    cases before with
    | nil =>
      have other : d ≠ c := by
        rintro rfl
        rw [ascii d List.mem_cons_self] at foreign
        cases foreign
      show (d == c && needle.isPrefixOf after) = false
      rw [beq_false_of_ne other, Bool.false_and]
    | cons e before =>
      have later := inductionHypothesis before
        (fun d member => ascii d (List.mem_cons_of_mem _ member))
      rw [Text.startsWith, Text.startsWith] at later ⊢
      rw [List.cons_append, List.isPrefixOf_cons_cons, List.isPrefixOf_cons_cons, later]

/-- One step of the search: inside a literal only its end is looked for; at the top the needle is
tried, and a character of several bytes is a panic if the rest is long enough to be cut inside it.
-/
theorem findTopFrom_cons (needle rest : Str) (c : Char) :
    findTopFrom needle depth inStr (c :: rest) =
      if inStr then findTopFrom needle depth (c != '\'') rest >>= fun pos => pure (pos + 1)
      else if deeper depth c = 0 && Text.startsWith (c :: rest) needle then .found 0
      else if deeper depth c = 0 && !Text.isAscii c &&
          needle.length ≤ Text.byteLen (c :: rest) - 1 then .panicked
      else findTopFrom needle (deeper depth c) (c == '\'') rest >>= fun pos => pure (pos + 1) := rfl

/-- A position is one further than in what is behind the first character. -/
theorem shifted_panicked {attempt : Attempt Nat} :
    (attempt >>= fun pos => pure (pos + 1)) = .panicked ↔ attempt = .panicked := by
  rw [bind_panicked]
  exact or_iff_left (fun ⟨_, _, impossible⟩ => by cases impossible)

/-- Moving a place does not change whether there is one. -/
theorem shifted_refused {attempt : Attempt Nat} :
    (attempt >>= fun pos => pure (pos + 1)) = .refused ↔ attempt = .refused := by
  cases attempt with
  | found value => exact iff_of_false nofun nofun
  | refused => exact iff_of_true rfl rfl
  | panicked => exact iff_of_false nofun nofun

/-- Room for a needle behind a character is room for it behind an earlier one. -/
theorem room_earlier {d : Char} (room : needle.length ≤ Text.byteLen (c :: after) - 1) :
    needle.length ≤ Text.byteLen (d :: (before ++ c :: after)) - 1 := by
  rw [Text.byteLen_cons] at room
  rw [Text.byteLen_cons, Text.byteLen_append, Text.byteLen_cons]
  have positive := Char.utf8Size_pos d
  omega

/-- An exposed character makes the search panic. -/
theorem findTopFrom_of_exposed (plain : Plain needle) (exposed : Exposed needle depth inStr s) :
    findTopFrom needle depth inStr s = .panicked := by
  obtain ⟨before, c, after, rfl, foreign, outside, room, refused⟩ := exposed
  induction before generalizing depth inStr with
  | nil =>
    obtain ⟨rfl, rfl⟩ := Prod.mk.inj outside
    have nowhere : Text.startsWith ([] ++ c :: after) needle = false := by
      rw [startsWith_foreign _ plain.ascii foreign]
      cases needle with
      | nil => exact absurd rfl plain.filled
      | cons d needle => rfl
    rw [List.nil_append] at nowhere
    rw [List.nil_append, findTopFrom_cons, if_neg Bool.false_ne_true, deeper_foreign foreign,
      nowhere, foreign]
    simp [room]
  | cons e before inductionHypothesis =>
    rw [List.cons_append, findTopFrom_cons]
    rw [findTopFrom_cons] at refused
    rw [scanned] at outside
    cases inStr with
    | true =>
      rw [if_pos rfl] at refused outside ⊢
      exact shifted_panicked.mpr (inductionHypothesis outside (shifted_refused.mp refused))
    | false =>
      rw [if_neg Bool.false_ne_true] at refused outside ⊢
      have starts : Text.startsWith (e :: (before ++ c :: after)) needle =
          Text.startsWith (e :: before) needle :=
        startsWith_foreign (e :: before) plain.ascii foreign
      rw [starts]
      split_ifs at refused with here bad
      rw [if_neg here]
      split_ifs
      · rfl
      · exact shifted_panicked.mpr (inductionHypothesis outside (shifted_refused.mp refused))

/-- Where the search panics, a character is exposed. -/
theorem exposed_of_findTopFrom (plain : Plain needle)
    (panicked : findTopFrom needle depth inStr s = .panicked) : Exposed needle depth inStr s := by
  induction s generalizing depth inStr with
  | nil => cases panicked
  | cons e rest inductionHypothesis =>
    rw [findTopFrom_cons] at panicked
    cases inStr with
    | true =>
      rw [if_pos rfl] at panicked
      obtain ⟨before, c, after, rfl, foreign, outside, room, refused⟩ :=
        inductionHypothesis (shifted_panicked.mp panicked)
      refine ⟨e :: before, c, after, rfl, foreign, ?_, room, ?_⟩
      · rw [scanned, if_pos rfl, outside]
      · rw [findTopFrom_cons, if_pos rfl, refused]
        rfl
    | false =>
      rw [if_neg Bool.false_ne_true] at panicked
      split_ifs at panicked with found here
      · rw [Bool.and_eq_true, Bool.and_eq_true, Bool.not_eq_true', decide_eq_true_eq,
          decide_eq_true_eq] at here
        obtain ⟨⟨level, foreign⟩, room⟩ := here
        rw [deeper_foreign foreign] at level
        exact ⟨[], e, rest, rfl, foreign, by rw [scanned, level], room, rfl⟩
      · obtain ⟨before, c, after, rfl, foreign, outside, room, refused⟩ :=
          inductionHypothesis (shifted_panicked.mp panicked)
        refine ⟨e :: before, c, after, rfl, foreign, ?_, room, ?_⟩
        · rw [scanned, if_neg Bool.false_ne_true, outside]
        · have starts : Text.startsWith (e :: (before ++ c :: after)) needle =
              Text.startsWith (e :: before) needle :=
            startsWith_foreign (e :: before) plain.ascii foreign
          rw [starts] at found
          rw [findTopFrom_cons, if_neg Bool.false_ne_true, if_neg found, if_neg, refused]
          · rfl
          · intro shorter
            apply here
            rw [Bool.and_eq_true] at shorter ⊢
            exact ⟨shorter.1, decide_eq_true (room_earlier room)⟩

/-- A character is exposed to a search that begins with the text. -/
def ExposedTo (needle s : Str) : Prop := Exposed needle 0 false s

/-- The search panics exactly at the places that it tries the needle at inside a character. -/
theorem findTop_panicked (plain : Plain needle) :
    findTop s needle = .panicked ↔ ExposedTo needle s :=
  ⟨exposed_of_findTopFrom plain, findTopFrom_of_exposed plain⟩

/-! ## `split_top_and` -/

/-- The depth of parentheses behind a text. -/
def opened (depth : Int) (s : Str) : Int := s.foldl deeper depth

/-- In a condition stands a character of several bytes outside parentheses, and no `OR` outside
parentheses before it. -/
def ExposedToAnd (w : Str) : Prop :=
  ∃ before c after, w = before ++ c :: after ∧ Text.isAscii c = false ∧ opened 0 before = 0 ∧
    ∃ pieces, splitTopAnd before = .found pieces

/-- The first comparison that is made at each place of the top level. -/
def orAt (s : Str) : Bool := Text.startsWith (Text.toAsciiLowercase s) " or ".str

/-- The second comparison that is made there. -/
def andAt (s : Str) : Bool := Text.startsWith (Text.toAsciiLowercase s) " and ".str

/-- What is skipped is dropped. -/
theorem splitTopAndFrom_skipped (depth : Int) (skipped : Nat) (piece s : Str) :
    splitTopAndFrom depth skipped piece s = splitTopAndFrom depth 0 piece (s.drop skipped) := by
  induction s generalizing skipped with
  | nil =>
    rw [List.drop_nil]
    cases skipped with
    | zero => rfl
    | succ left => rfl
  | cons c rest inductionHypothesis =>
    cases skipped with
    | zero => rfl
    | succ left =>
      rw [splitTopAndFrom, List.drop_succ_cons]
      exact inductionHypothesis left

/-- One step of the split, with the two comparisons of the code and the panics of their cuts. -/
theorem splitTopAndFrom_cons (depth : Int) (piece rest : Str) (c : Char) :
    splitTopAndFrom depth 0 piece (c :: rest) =
      if deeper depth c = 0 then
        if orAt (c :: rest) then .refused
        else if andAt (c :: rest) then
          splitTopAndFrom 0 0 [] (rest.drop 4) >>= fun pieces => pure (piece :: pieces)
        else if !Text.isAscii c then .panicked
        else splitTopAndFrom 0 0 (piece ++ [c]) rest
      else splitTopAndFrom (deeper depth c) 0 (piece ++ [c]) rest := by
  rw [splitTopAndFrom, ← splitTopAndFrom_skipped]
  rfl

/-- Lowering the case of ASCII leaves other characters alone. -/
theorem asciiLower_foreign (foreign : Text.isAscii c = false) :
    Text.isAscii (Text.asciiLower c) = false := by
  by_contra ascii
  rw [Text.isAscii_of_asciiLower (Bool.eq_true_of_not_eq_false ascii)] at foreign
  cases foreign

/-- A separator stands whole before a character that is not ASCII. -/
theorem separatorAt_foreign (before after : Str) (foreign : Text.isAscii c = false) :
    orAt (before ++ c :: after) = orAt before ∧ andAt (before ++ c :: after) = andAt before := by
  have lowered : Text.toAsciiLowercase (before ++ c :: after) = Text.toAsciiLowercase before ++
      Text.asciiLower c :: Text.toAsciiLowercase after := by
    rw [Text.toAsciiLowercase, List.map_append, List.map_cons]
    rfl
  rw [orAt, andAt, lowered]
  exact ⟨startsWith_foreign _ (List.all_eq_true.mp (by decide)) (asciiLower_foreign foreign),
    startsWith_foreign _ (List.all_eq_true.mp (by decide)) (asciiLower_foreign foreign)⟩

/-- The five characters of a separator. -/
theorem andAt_split {rest : Str} (separator : andAt (c :: rest) = true) :
    Text.toAsciiLowercase (c :: rest.take 4) = " and ".str ∧
      c :: rest = c :: rest.take 4 ++ rest.drop 4 := by
  constructor
  · have starts := List.prefix_iff_eq_take.mp (List.isPrefixOf_iff_prefix.mp separator)
    rw [Text.toAsciiLowercase, ← List.map_take] at starts
    exact starts.symm
  · rw [List.cons_append, List.take_append_drop]

/-- A separator has no parenthesis in it. -/
theorem deeper_and {x : Str} (separator : Text.toAsciiLowercase x = " and ".str) {d : Char}
    (member : d ∈ x) (depth : Int) : deeper depth d = depth := by
  have lowered : Text.asciiLower d ∈ " and ".str := separator ▸ List.mem_map_of_mem member
  rw [deeper, if_neg, if_neg]
  · rintro rfl
    exact absurd lowered (by decide)
  · rintro rfl
    exact absurd lowered (by decide)

/-- Brackets are counted from left to right. -/
theorem opened_append (depth : Int) (s t : Str) :
    opened depth (s ++ t) = opened (opened depth s) t := List.foldl_append

/-- The same for one character and the rest. -/
theorem opened_cons (depth : Int) (c : Char) (s : Str) :
    opened depth (c :: s) = opened (deeper depth c) s := rfl

/-- Behind characters that are no parentheses the depth is what it was. -/
theorem opened_flat {x : Str} (flat : ∀ d ∈ x, ∀ depth, deeper depth d = depth) (depth : Int) :
    opened depth x = depth := by
  induction x with
  | nil => rfl
  | cons d x inductionHypothesis =>
    rw [opened_cons, flat d List.mem_cons_self]
    exact inductionHypothesis (fun e member => flat e (List.mem_cons_of_mem _ member))

/-- Outside parentheses a separator is passed over. -/
theorem opened_separator {rest : Str} (depth : Int) (separator : andAt (c :: rest) = true) :
    deeper depth c = depth ∧ opened depth (c :: rest) = opened depth (rest.drop 4) := by
  obtain ⟨letters, whole⟩ := andAt_split separator
  refine ⟨deeper_and letters List.mem_cons_self depth, ?_⟩
  rw [whole, opened_append, opened_flat (fun d member => deeper_and letters member)]

/-- There are four characters behind the first of a separator. -/
theorem andAt_length {rest : Str} (separator : andAt (c :: rest) = true) : 4 ≤ rest.length := by
  have lengths := congrArg List.length (andAt_split separator).1
  rw [Text.toAsciiLowercase, List.length_map, List.length_cons, List.length_take] at lengths
  have five : " and ".str.length = 5 := rfl
  omega

/-- A text that begins with a separator begins with no `OR`, and with that separator, whatever
comes behind it. -/
theorem andAt_append {x : Str} (separator : Text.toAsciiLowercase x = " and ".str) (rest : Str) :
    orAt (x ++ rest) = false ∧ andAt (x ++ rest) = true := by
  rw [orAt, andAt, Text.toAsciiLowercase, List.map_append, ← Text.toAsciiLowercase, separator]
  exact ⟨rfl, rfl⟩

/-- A piece in front does not change whether the rest panics. -/
theorem pieces_panicked {attempt : Attempt (List Str)} {piece : Str} :
    (attempt >>= fun pieces => pure (piece :: pieces)) = .panicked ↔ attempt = .panicked := by
  rw [bind_panicked]
  exact or_iff_left (fun ⟨_, _, impossible⟩ => by cases impossible)

/-- A piece in front does not change whether the rest is found. -/
theorem pieces_found {attempt : Attempt (List Str)} {piece : Str} :
    (∃ pieces, (attempt >>= fun pieces => pure (piece :: pieces)) = .found pieces) ↔
      ∃ pieces, attempt = .found pieces := by
  cases attempt with
  | found value => exact iff_of_true ⟨_, rfl⟩ ⟨_, rfl⟩
  | refused => exact iff_of_false nofun nofun
  | panicked => exact iff_of_false nofun nofun

/-- An exposed character makes the split panic. -/
theorem splitTopAndFrom_of_exposed (foreign : Text.isAscii c = false) {piece piece' : Str}
    (level : opened depth before = 0)
    (split : ∃ pieces, splitTopAndFrom depth 0 piece before = .found pieces) :
    splitTopAndFrom depth 0 piece' (before ++ c :: after) = .panicked := by
  induction size : before.length using Nat.strongRecOn generalizing before depth piece piece' with
  | _ size inductionHypothesis =>
    subst size
    cases before with
    | nil =>
      have ground : depth = 0 := level
      have noSeparator : orAt (c :: after) = orAt [] ∧ andAt (c :: after) = andAt [] :=
        separatorAt_foreign [] after foreign
      rw [List.nil_append, splitTopAndFrom_cons, deeper_foreign foreign, if_pos ground,
        noSeparator.1, noSeparator.2, foreign]
      rfl
    | cons e t =>
      obtain ⟨sameOr, sameAnd⟩ : orAt (e :: (t ++ c :: after)) = orAt (e :: t) ∧
          andAt (e :: (t ++ c :: after)) = andAt (e :: t) :=
        separatorAt_foreign (e :: t) after foreign
      rw [List.cons_append, splitTopAndFrom_cons, sameOr, sameAnd]
      rw [splitTopAndFrom_cons] at split
      by_cases ground : deeper depth e = 0
      · rw [if_pos ground] at split ⊢
        cases disjunct : orAt (e :: t) with
        | true =>
          rw [disjunct, if_pos rfl] at split
          obtain ⟨_, impossible⟩ := split
          cases impossible
        | false =>
          rw [disjunct, if_neg Bool.false_ne_true] at split
          rw [if_neg Bool.false_ne_true]
          cases separator : andAt (e :: t) with
          | true =>
            rw [separator, if_pos rfl, pieces_found] at split
            obtain ⟨flat, passed⟩ := opened_separator depth separator
            rw [if_pos rfl, pieces_panicked, List.drop_append_of_le_length (andAt_length separator)]
            refine inductionHypothesis (t.drop 4).length ?_ ?_ split rfl
            · rw [List.length_drop, List.length_cons]
              omega
            · rwa [passed, flat.symm.trans ground] at level
          | false =>
            rw [separator, if_neg Bool.false_ne_true] at split
            rw [if_neg Bool.false_ne_true]
            cases plain : Text.isAscii e with
            | false => rfl
            | true =>
              rw [plain] at split
              exact inductionHypothesis t.length (Nat.lt_succ_self _)
                (by rwa [opened_cons, ground] at level) split rfl
      · rw [if_neg ground] at split ⊢
        exact inductionHypothesis t.length (Nat.lt_succ_self _) level split rfl

/-- Where the split panics, a character is exposed. -/
theorem exposed_of_splitTopAndFrom {piece : Str}
    (panicked : splitTopAndFrom depth 0 piece s = .panicked) :
    ∃ before c after, s = before ++ c :: after ∧ Text.isAscii c = false ∧
      opened depth before = 0 ∧ ∃ pieces, splitTopAndFrom depth 0 piece before = .found pieces := by
  induction size : s.length using Nat.strongRecOn generalizing s depth piece with
  | _ size inductionHypothesis =>
    subst size
    cases s with
    | nil => cases panicked
    | cons e t =>
      rw [splitTopAndFrom_cons] at panicked
      by_cases ground : deeper depth e = 0
      · rw [if_pos ground] at panicked
        cases disjunct : orAt (e :: t) with
        | true =>
          rw [disjunct, if_pos rfl] at panicked
          cases panicked
        | false =>
          rw [disjunct, if_neg Bool.false_ne_true] at panicked
          cases separator : andAt (e :: t) with
          | true =>
            rw [separator, if_pos rfl, pieces_panicked] at panicked
            obtain ⟨letters, whole⟩ := andAt_split separator
            obtain ⟨flat, -⟩ := opened_separator depth separator
            obtain ⟨before, c, after, rest, foreign, level, split⟩ :=
              inductionHypothesis (t.drop 4).length
                (by rw [List.length_drop, List.length_cons]; omega) panicked rfl
            refine ⟨e :: t.take 4 ++ before, c, after, ?_, foreign, ?_, ?_⟩
            · rw [whole, rest, List.append_assoc]
            · rw [opened_append, opened_flat (fun d member => deeper_and letters member), ← flat,
                ground, level]
            · obtain ⟨noOr, again⟩ := andAt_append letters before
              rw [List.cons_append] at noOr again ⊢
              rw [splitTopAndFrom_cons, if_pos ground, noOr, if_neg Bool.false_ne_true, again,
                if_pos rfl, pieces_found]
              have fixed : (t.take 4).length = 4 := by
                rw [List.length_take, Nat.min_eq_left (andAt_length separator)]
              rwa [List.drop_append_of_le_length (Nat.le_of_eq fixed.symm),
                List.drop_of_length_le (Nat.le_of_eq fixed), List.nil_append]
          | false =>
            rw [separator, if_neg Bool.false_ne_true] at panicked
            cases plain : Text.isAscii e with
            | false =>
              exact ⟨[], e, t, rfl, plain, by rw [← ground, deeper_foreign plain]; rfl, _, rfl⟩
            | true =>
              rw [plain] at panicked
              obtain ⟨before, c, after, rfl, foreign, level, split⟩ :=
                inductionHypothesis t.length (Nat.lt_succ_self _) panicked rfl
              obtain ⟨sameOr, sameAnd⟩ : orAt (e :: (before ++ c :: after)) = orAt (e :: before) ∧
                  andAt (e :: (before ++ c :: after)) = andAt (e :: before) :=
                separatorAt_foreign (e :: before) after foreign
              refine ⟨e :: before, c, after, rfl, foreign, by rw [opened_cons, ground, level], ?_⟩
              rw [splitTopAndFrom_cons, if_pos ground, ← sameOr, disjunct, ← sameAnd, separator,
                plain]
              exact split
      · rw [if_neg ground] at panicked
        obtain ⟨before, c, after, rfl, foreign, level, split⟩ :=
          inductionHypothesis t.length (Nat.lt_succ_self _) panicked rfl
        refine ⟨e :: before, c, after, rfl, foreign, level, ?_⟩
        rwa [splitTopAndFrom_cons, if_neg ground]

/-- The split panics exactly at the places that it compares at inside a character. -/
theorem splitTopAnd_panicked : splitTopAnd w = .panicked ↔ ExposedToAnd w := by
  constructor
  · exact exposed_of_splitTopAndFrom
  · rintro ⟨before, c, after, rfl, foreign, level, split⟩
    exact splitTopAndFrom_of_exposed foreign level split

/-! ## `parse_expr` -/

/-- The place of the first bracket. -/
def opening (s : Str) : Nat := s.findIdx (· == '(')

/-- The text is a call: a name, and parentheses that close at its end. -/
def isCall (s : Str) : Bool :=
  matchingParen s (opening s) = some (s.length - 1) && isIdent (Text.trim (s.take (opening s)))

/-- What stands between the parentheses of a call. -/
def inner (s : Str) : Str := (s.drop (opening s + 1)).dropLast

/-- The text is a bind. -/
def isBind (s : Str) : Bool := s.head? = some ':' && isIdent (s.drop 1)

/-- What has no operands. -/
def leaf (s : Str) : Attempt Expr :=
  if s.head? = some '\'' && s.getLast? = some '\'' && 2 ≤ s.length then pure (.lit s)
  else if (F64.parse s).isSome ||
      ["true".str, "false".str, "null".str].contains (Text.toAsciiLowercase s) then pure (.lit s)
  else if isDottedIdent s then pure (.col s)
  else pure (.raw s)

/-- A leaf is read without cutting it, so nothing panics. -/
theorem leaf_panicked : leaf s ≠ .panicked := by
  rw [leaf]
  split_ifs <;> exact nofun

/-- `parse_expr`, with what reads its operands. -/
def exprOf (read : Str → Attempt Expr) (source : Str) : Attempt Expr :=
  let s := Text.trim source
  if s.isEmpty then .refused
  else
    match findTop s "::".str with
    | .panicked => .panicked
    | .found pos =>
      read (s.take pos) >>= fun operand => pure (.cast operand (IrType.parse (s.drop (pos + 2))))
    | .refused =>
      if isBind s then .found (.bind (s.drop 1))
      else if isCall s then
        if (Text.trim (inner s)).isEmpty then .found (.fn (Text.trim (s.take (opening s))) [])
        else
          Attempt.ofOption (splitTopCommas (inner s)) >>= fun parts =>
            parts.mapM read >>= fun args => pure (.fn (Text.trim (s.take (opening s))) args)
      else leaf s

/-- One step of the reader, with the fuel for what is inside. -/
theorem parseExprWith_succ (fuel : Nat) (source : Str) :
    parseExprWith (fuel + 1) source = exprOf (parseExprWith fuel) source := by
  rw [parseExprWith]
  rfl

/-- Trimming makes no text longer. -/
theorem length_trim_le (s : Str) : (Text.trim s).length ≤ s.length := by
  rw [Text.trim, Text.trimEnd, List.length_reverse]
  have start : (Text.trimStart s).length ≤ s.length := (List.dropWhile_sublist _).length_le
  have back :=
    (List.dropWhile_sublist Text.isWhitespace (l := (Text.trimStart s).reverse)).length_le
  rw [List.length_reverse] at back
  exact back.trans start

/-- A place that is moved by one is inside a text that is longer by one. -/
theorem shifted_lt {attempt : Attempt Nat} {length : Nat}
    (inside : ∀ value, attempt = .found value → value < length)
    (found : (attempt >>= fun pos => pure (pos + 1)) = .found pos) : pos < length + 1 := by
  cases attempt with
  | found value =>
    obtain rfl := Attempt.found.inj found
    exact Nat.succ_lt_succ (inside value rfl)
  | refused => cases found
  | panicked => cases found

/-- A needle is found within the text. -/
theorem findTopFrom_lt (found : findTopFrom needle depth inStr s = .found pos) :
    pos < s.length := by
  induction s generalizing depth inStr pos with
  | nil => cases found
  | cons c rest inductionHypothesis =>
    rw [findTopFrom_cons] at found
    rw [List.length_cons]
    split_ifs at found
    · exact shifted_lt (fun _ => inductionHypothesis) found
    · obtain rfl := Attempt.found.inj found
      exact Nat.succ_pos _
    · exact shifted_lt (fun _ => inductionHypothesis) found

/-- The pieces of a list are no longer than it. -/
theorem splitTopCommasFrom_length {piece : Str} {parts : List Str}
    (split : splitTopCommasFrom depth piece s = some parts) :
    ∀ part ∈ parts, part.length ≤ piece.length + s.length := by
  induction s generalizing depth piece parts with
  | nil =>
    rw [splitTopCommasFrom] at split
    split_ifs at split
    obtain rfl := Option.some.inj split
    intro part member
    rw [List.mem_singleton.mp member]
    exact Nat.le_add_right _ _
  | cons c rest inductionHypothesis =>
    rw [splitTopCommasFrom] at split
    split_ifs at split
    · obtain ⟨later, there, rfl⟩ := Option.map_eq_some_iff.mp split
      intro part member
      rw [List.length_cons]
      rcases List.mem_cons.mp member with rfl | inLater
      · omega
      · have bound := inductionHypothesis there part inLater
        rw [List.length_nil] at bound
        omega
    · intro part member
      have bound := inductionHypothesis split part member
      rw [List.length_append, List.length_singleton] at bound
      rw [List.length_cons]
      omega

/-- An argument of a call is shorter than the call. -/
theorem argument_length {parts : List Str} (filled : s ≠ [])
    (split : splitTopCommas (inner s) = some parts) : ∀ part ∈ parts, part.length < s.length := by
  intro part member
  have bound := splitTopCommasFrom_length split part member
  have positive := List.length_pos_of_ne_nil filled
  rw [inner, List.length_dropLast, List.length_drop, List.length_nil] at bound
  omega

/-- Readers that agree on the items read the same. -/
theorem mapM_congr {read read' : T → Attempt U} {items : List T}
    (same : ∀ item ∈ items, read item = read' item) : items.mapM read = items.mapM read' := by
  induction items with
  | nil => rfl
  | cons first rest inductionHypothesis =>
    rw [List.mapM_cons, List.mapM_cons, same first List.mem_cons_self,
      inductionHypothesis (fun item member => same item (List.mem_cons_of_mem _ member))]

/-- Only shorter texts are read as operands. -/
theorem exprOf_congr {read read' : Str → Attempt Expr}
    (same : ∀ text : Str, text.length < source.length → read text = read' text) :
    exprOf read source = exprOf read' source := by
  have bound := length_trim_le source
  rw [exprOf, exprOf]
  by_cases empty : (Text.trim source).isEmpty = true
  · rw [if_pos empty, if_pos empty]
  · rw [if_neg empty, if_neg empty]
    have filled : Text.trim source ≠ [] := fun nothing => empty (List.isEmpty_iff.mpr nothing)
    cases found : findTop (Text.trim source) "::".str with
    | panicked => rfl
    | found pos =>
      have inside := findTopFrom_lt found
      dsimp only
      rw [same _ (by rw [List.length_take]; omega)]
    | refused =>
      dsimp only
      by_cases bind : isBind (Text.trim source) = true
      · rw [if_pos bind, if_pos bind]
      · rw [if_neg bind, if_neg bind]
        by_cases call : isCall (Text.trim source) = true
        · rw [if_pos call, if_pos call]
          by_cases none : (Text.trim (inner (Text.trim source))).isEmpty = true
          · rw [if_pos none, if_pos none]
          · rw [if_neg none, if_neg none]
            cases split : splitTopCommas (inner (Text.trim source)) with
            | none => rfl
            | some parts =>
              show (parts.mapM read >>= _) = (parts.mapM read' >>= _)
              rw [mapM_congr (fun part member =>
                same part ((argument_length filled split part member).trans_le bound))]
        · rw [if_neg call, if_neg call]

/-- The fuel is enough. -/
theorem parseExprWith_fuel (enough : s.length < n) (more : s.length < m) :
    parseExprWith n s = parseExprWith m s := by
  induction n generalizing m s with
  | zero => omega
  | succ n inductionHypothesis =>
    cases m with
    | zero => omega
    | succ m =>
      rw [parseExprWith_succ, parseExprWith_succ]
      exact exprOf_congr (fun text shorter => inductionHypothesis (by omega) (by omega))

/-- `parse_expr` reads its operands itself. -/
theorem parseExpr_eq (source : Str) : parseExpr source = exprOf parseExpr source := by
  rw [parseExpr, parseExprWith_succ]
  exact exprOf_congr (fun text shorter => parseExprWith_fuel shorter (Nat.lt_succ_self _))

/-- The sign of a cast is searched for. -/
theorem plain_cast : Plain "::".str := ⟨by decide, List.all_eq_true.mp (by decide)⟩

/-- Reading an expression comes to a text with an exposed character: its own, that of the
operand of a cast, or that of an argument after others that were read. -/
inductive Troubled : Str → Prop where
  | here {source : Str} (exposed : ExposedTo "::".str (Text.trim source)) : Troubled source
  | cast {source : Str} {pos : Nat} (found : findTop (Text.trim source) "::".str = .found pos)
      (operand : Troubled ((Text.trim source).take pos)) : Troubled source
  | argument {source : Str} {before after : List Str} {part : Str}
      (uncast : findTop (Text.trim source) "::".str = .refused)
      (noBind : isBind (Text.trim source) = false) (call : isCall (Text.trim source) = true)
      (filled : Text.trim (inner (Text.trim source)) ≠ [])
      (split : splitTopCommas (inner (Text.trim source)) = some (before ++ part :: after))
      (readable : ∀ earlier ∈ before, ∃ expr, parseExpr earlier = .found expr)
      (operand : Troubled part) : Troubled source

/-- A call is not empty. -/
theorem not_empty_of_isCall (call : isCall s = true) : s.isEmpty = false := by
  cases s with
  | nil => exact absurd call (by decide)
  | cons c rest => rfl

/-- What is troubled makes the reader panic, by induction on why it is. -/
theorem parseExpr_of_troubled (troubled : Troubled source) : parseExpr source = .panicked := by
  induction troubled with
  | @here source exposed =>
    have filled : (Text.trim source).isEmpty = false := by
      obtain ⟨before, c, after, whole, -⟩ := exposed
      rw [whole, List.isEmpty_eq_false_iff]
      exact List.append_ne_nil_of_right_ne_nil _ (List.cons_ne_nil _ _)
    rw [parseExpr_eq, exprOf, filled]
    rw [if_neg Bool.false_ne_true, (findTop_panicked plain_cast).mpr exposed]
  | @cast source pos found operand inductionHypothesis =>
    have filled : (Text.trim source).isEmpty = false := by
      rw [List.isEmpty_eq_false_iff]
      intro empty
      rw [empty] at found
      cases found
    rw [parseExpr_eq, exprOf, filled]
    rw [if_neg Bool.false_ne_true, found]
    exact bind_panicked.mpr (.inl inductionHypothesis)
  | @argument source before after part uncast noBind call filled split readable operand
      inductionHypothesis =>
    have nonempty : (Text.trim (inner (Text.trim source))).isEmpty = false :=
      List.isEmpty_eq_false_iff.mpr filled
    rw [parseExpr_eq, exprOf, not_empty_of_isCall call]
    rw [if_neg Bool.false_ne_true, uncast]
    dsimp only
    rw [noBind, if_neg Bool.false_ne_true, if_pos call, nonempty, if_neg Bool.false_ne_true, split]
    refine bind_panicked.mpr (.inr ⟨_, rfl, bind_panicked.mpr (.inl ?_)⟩)
    exact mapM_panicked.mpr ⟨before, part, after, rfl, readable, inductionHypothesis⟩

/-- And nothing else does: by induction on the length of the text. -/
theorem troubled_of_parseExpr (panicked : parseExpr source = .panicked) : Troubled source := by
  induction size : source.length using Nat.strongRecOn generalizing source with
  | _ size inductionHypothesis =>
    subst size
    have bound := length_trim_le source
    rw [parseExpr_eq, exprOf] at panicked
    by_cases empty : (Text.trim source).isEmpty = true
    · rw [if_pos empty] at panicked
      cases panicked
    · rw [if_neg empty] at panicked
      have filled : Text.trim source ≠ [] := fun nothing => empty (List.isEmpty_iff.mpr nothing)
      cases found : findTop (Text.trim source) "::".str with
      | panicked => exact .here ((findTop_panicked plain_cast).mp found)
      | found pos =>
        rw [found] at panicked
        have inside := findTopFrom_lt found
        have operand := (bind_panicked.mp panicked).resolve_right
          (fun ⟨_, _, impossible⟩ => by cases impossible)
        exact .cast found (inductionHypothesis _ (by rw [List.length_take]; omega) operand rfl)
      | refused =>
        rw [found] at panicked
        dsimp only at panicked
        cases bind : isBind (Text.trim source) with
        | true =>
          rw [bind, if_pos rfl] at panicked
          cases panicked
        | false =>
          rw [bind, if_neg Bool.false_ne_true] at panicked
          by_cases call : isCall (Text.trim source) = true
          · rw [if_pos call] at panicked
            by_cases none : (Text.trim (inner (Text.trim source))).isEmpty = true
            · rw [if_pos none] at panicked
              cases panicked
            · rw [if_neg none] at panicked
              obtain ⟨parts, taken, later⟩ :=
                (bind_panicked.mp panicked).resolve_left ofOption_panicked
              have split := ofOption_found.mp taken
              have operands := (bind_panicked.mp later).resolve_right
                (fun ⟨_, _, impossible⟩ => by cases impossible)
              obtain ⟨before, part, after, rfl, readable, panics⟩ := mapM_panicked.mp operands
              have shorter := argument_length filled split part
                (List.mem_append_right _ List.mem_cons_self)
              exact .argument found bind call (fun nothing => none (List.isEmpty_iff.mpr nothing))
                split readable (inductionHypothesis part.length (by omega) panics rfl)
          · rw [if_neg call] at panicked
            exact absurd panicked leaf_panicked

/-- `parse_expr` panics exactly where it comes to an exposed character. -/
theorem parseExpr_panicked : parseExpr source = .panicked ↔ Troubled source :=
  ⟨troubled_of_parseExpr, parseExpr_of_troubled⟩

end LumidPlatform.Read.Slices
