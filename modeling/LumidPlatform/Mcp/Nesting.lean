import LumidPlatform.Utf8
import LumidPlatform.Write.JsonEachRow

/-!
# How deep JSON is nested

What was written as JSON is read back, but for a value of too many levels. The levels of a value
can be counted in its text, where every bracket outside a string opens or closes one.
-/

namespace LumidPlatform

mutual

/-- How deep arrays and objects are nested. -/
def Json.depth : Json → Nat
  | .array items => Json.depthItems items + 1
  | .object members => Json.depthMembers members + 1
  | _ => 0

def Json.depthItems : List Json → Nat
  | [] => 0
  | item :: rest => max (Json.depth item) (Json.depthItems rest)

def Json.depthMembers : List (Str × Json) → Nat
  | [] => 0
  | (_, value) :: rest => max (Json.depth value) (Json.depthMembers rest)

end

namespace Mcp

/-- What `serde_json` writes and reads. A value is read back as it was written, unless it has more
levels than the reader takes. -/
structure Serde (crates : Crates) : Prop where
  reads : ∀ value, value.depth < recursionLimit → ∃ again,
    crates.fromSlice (crates.toVec value) = some again ∧ crates.toVec again = crates.toVec value
  refuses : ∀ value, recursionLimit ≤ value.depth → crates.fromSlice (crates.toVec value) = none
  /-- What is written is text, and a word is written between quotes. -/
  text : ∀ value, ∃ s, crates.toVec value = Text.utf8 s
  word : ∀ s, (∀ c ∈ s, Text.isAsciiLower c = true) →
    crates.toVec (.string s) = Text.utf8 ('"' :: s ++ ['"'])

namespace Nesting

/-! ## Counting in a text -/

/-- The levels that a text reaches from some level on, inside a string or outside. -/
def levels : Str → Bool → Nat → Nat
  | [], _, _ => 0
  | '\\' :: _ :: rest, true, level => levels rest true level
  | c :: rest, quoted, level =>
    if c = '"' then levels rest (!quoted) level
    else if quoted then levels rest true level
    else if c = '[' ∨ c = '\x7b' then max (level + 1) (levels rest false (level + 1))
    else if c = ']' ∨ c = '\x7d' then levels rest false (level - 1)
    else levels rest false level

/-- A character that escapes nothing. -/
theorem levels_cons {c : Char} (plain : c ≠ '\\') (rest : Str) (quoted : Bool) (level : Nat) :
    levels (c :: rest) quoted level =
      if c = '"' then levels rest (!quoted) level
      else if quoted then levels rest true level
      else if c = '[' ∨ c = '\x7b' then max (level + 1) (levels rest false (level + 1))
      else if c = ']' ∨ c = '\x7d' then levels rest false (level - 1)
      else levels rest false level := by
  rw [levels.eq_def]
  split
  next same => cases same
  next same => exact absurd (List.cons.inj same).1 plain
  next same _ =>
    obtain ⟨rfl, rfl⟩ := List.cons.inj same
    rfl

/-- A character that neither opens nor closes anything. -/
def inert (c : Char) : Bool := !(['"', '\\', '[', ']', '\x7b', '\x7d'].contains c)

theorem levels_inert {s : Str} (all : ∀ c ∈ s, inert c = true) (rest : Str) (quoted : Bool)
    (level : Nat) : levels (s ++ rest) quoted level = levels rest quoted level := by
  induction s with
  | nil => rfl
  | cons c others inductionHypothesis =>
    rw [List.forall_mem_cons] at all
    obtain ⟨notQuote, notSlash, notOpen, notClose, notBrace, notEnd⟩ :
        c ≠ '"' ∧ c ≠ '\\' ∧ c ≠ '[' ∧ c ≠ ']' ∧ c ≠ '\x7b' ∧ c ≠ '\x7d' := by
      simpa [inert] using all.1
    rw [List.cons_append, levels_cons notSlash, if_neg notQuote,
      if_neg (not_or.mpr ⟨notOpen, notBrace⟩), if_neg (not_or.mpr ⟨notClose, notEnd⟩)]
    have later := inductionHypothesis all.2
    cases quoted with
    | true => exact later
    | false => exact later

/-- A comma or a colon. -/
theorem levels_mark {c : Char} (plain : inert c = true) (rest : Str) (quoted : Bool)
    (level : Nat) : levels (c :: rest) quoted level = levels rest quoted level :=
  levels_inert (List.forall_mem_singleton.mpr plain) rest quoted level

theorem levels_quote (rest : Str) (quoted : Bool) (level : Nat) :
    levels ('"' :: rest) quoted level = levels rest (!quoted) level := by
  rw [levels_cons (by decide), if_pos rfl]

theorem levels_open {c : Char} (opens : c = '[' ∨ c = '\x7b') (rest : Str) (level : Nat) :
    levels (c :: rest) false level = max (level + 1) (levels rest false (level + 1)) := by
  have plain : c ≠ '\\' ∧ c ≠ '"' := by
    rcases opens with rfl | rfl <;> decide
  rw [levels_cons plain.1, if_neg plain.2,
    if_neg Bool.false_ne_true, if_pos opens]

theorem levels_close {c : Char} (closes : c = ']' ∨ c = '\x7d') (rest : Str) (level : Nat) :
    levels (c :: rest) false level = levels rest false (level - 1) := by
  have plain : c ≠ '\\' ∧ c ≠ '"' ∧ ¬(c = '[' ∨ c = '\x7b') := by
    rcases closes with rfl | rfl <;> decide
  rw [levels_cons plain.1, if_neg plain.2.1,
    if_neg Bool.false_ne_true, if_neg plain.2.2, if_pos closes]

/-- Characters of a string that are written stay inside of it. -/
theorem levels_escape (c : Char) (rest : Str) (level : Nat) :
    levels (Crates.Plain.escapeChar c ++ rest) true level = levels rest true level := by
  have digit : ∀ n < 16, inert (Nat.digitChar n) = true := by decide
  have pair (other : Char) (more : Str) :
      levels ('\\' :: other :: more) true level = levels more true level := by
    rw [levels]
  rw [Crates.Plain.escapeChar]
  split_ifs with quote slash back tab line feed carriage control
  · exact pair _ rest
  · exact pair _ rest
  · exact pair _ rest
  · exact pair _ rest
  · exact pair _ rest
  · exact pair _ rest
  · exact pair _ rest
  · refine (pair 'u' _).trans (levels_inert (s := ['0', '0', Nat.digitChar (c.toNat / 16),
      Nat.digitChar (c.toNat % 16)]) ?_ rest true level)
    have high := digit (c.toNat / 16) (by omega)
    have low := digit (c.toNat % 16) (by omega)
    exact List.forall_mem_cons.mpr ⟨by decide, List.forall_mem_cons.mpr ⟨by decide,
      List.forall_mem_cons.mpr ⟨high, List.forall_mem_singleton.mpr low⟩⟩⟩
  · rw [List.singleton_append, levels_cons slash, if_neg quote, if_pos rfl]

/-- A string is on no level of its own. -/
theorem levels_string (s rest : Str) (level : Nat) :
    levels ('"' :: s.flatMap Crates.Plain.escapeChar ++ '"' :: rest) false level =
      levels rest false level := by
  rw [List.cons_append, levels_quote]
  induction s with
  | nil => rw [List.flatMap_nil, List.nil_append, levels_quote]; rfl
  | cons c others inductionHypothesis =>
    rw [List.flatMap_cons, List.append_assoc, Bool.not_false, levels_escape]
    exact inductionHypothesis

/-! ## The levels of a value -/

open Write.JsonEachRow JsonPrinter

/-- The level that some depth reaches from a level on. -/
def reach (depth level : Nat) : Nat := if depth = 0 then 0 else level + depth

theorem reach_max (depth depth' level : Nat) :
    reach (max depth depth') level = max (reach depth level) (reach depth' level) := by
  rw [reach, reach, reach]
  split_ifs <;> omega

/-- A value in brackets reaches a level more. -/
theorem levels_bracketed {opening closing : Char} (opens : opening = '[' ∨ opening = '\x7b')
    (closes : closing = ']' ∨ closing = '\x7d') {inside : Str} {depth : Nat}
    (reaches : ∀ rest level, levels (inside ++ rest) false level =
      max (reach depth level) (levels rest false level)) (rest : Str) (level : Nat) :
    levels (opening :: inside ++ [closing] ++ rest) false level =
      max (reach (depth + 1) level) (levels rest false level) := by
  rw [List.append_assoc, List.singleton_append, List.cons_append, levels_open opens, reaches,
    levels_close closes, Nat.add_sub_cancel, reach, reach, if_neg (Nat.succ_ne_zero depth)]
  split_ifs <;> omega

theorem number_inert (n : JsonNumber) : ∀ c ∈ plainText (.number n), inert c = true := by
  have digit {c : Char} (isDigit : Text.isAsciiDigit c = true) : inert c = true := by
    have bounds : 48 ≤ c.toNat ∧ c.toNat ≤ 57 := by simpa [Text.isAsciiDigit] using isDigit
    have apart (other : Char) (outside : other.toNat < 48 ∨ 57 < other.toNat) : c ≠ other := by
      rintro rfl
      omega
    have all : ∀ other ∈ ['"', '\\', '[', ']', '\x7b', '\x7d'],
        other.toNat < 48 ∨ 57 < other.toNat := List.forall_iff_forall_mem.mp (by decide)
    rw [inert, Bool.not_eq_true', ← Bool.not_eq_true, List.contains_iff_mem]
    exact fun member => apart c (all c member) rfl
  have digits (n : Nat) : ∀ c ∈ Text.showNat n, inert c = true := fun c member =>
    digit (Text.isAsciiDigit_of_mem_showNat member)
  cases n with
  | float x =>
    rw [plainText]
    exact List.all_eq_true.mp (by decide)
  | int n =>
    rw [plainText]
    cases n with
    | ofNat n => exact digits n
    | negSucc n =>
      rw [Text.showInt, List.forall_mem_cons]
      exact ⟨by decide, digits _⟩

mutual

/-- The text of a value reaches as many levels as it has. -/
theorem levels_value : ∀ (value : Json) (rest : Str) (level : Nat),
    levels (plainText value ++ rest) false level =
      max (reach value.depth level) (levels rest false level)
  | .null, rest, level => by
    rw [plainText, levels_inert (List.all_eq_true.mp (by decide)), Json.depth, reach, if_pos rfl,
      Nat.zero_max]
    all_goals simp
  | .bool b, rest, level => by
    have plain : ∀ c ∈ Text.showBool b, inert c = true := by
      cases b <;> exact List.all_eq_true.mp (by decide)
    rw [plainText, levels_inert plain, Json.depth, reach, if_pos rfl, Nat.zero_max]
    all_goals simp
  | .number n, rest, level => by
    rw [levels_inert (number_inert n), Json.depth, reach, if_pos rfl, Nat.zero_max]
    all_goals simp
  | .string s, rest, level => by
    rw [plainText, List.append_assoc, List.singleton_append, levels_string, Json.depth, reach,
      if_pos rfl, Nat.zero_max]
    all_goals simp
  | .array items, rest, level => by
    rw [plainText, Json.depth]
    exact levels_bracketed (Or.inl rfl) (Or.inl rfl) (levels_items items) rest level
  | .object members, rest, level => by
    rw [plainText, Json.depth]
    exact levels_bracketed (Or.inr rfl) (Or.inr rfl) (levels_members members) rest level

theorem levels_items : ∀ (items : List Json) (rest : Str) (level : Nat),
    levels (Text.join [','] (plainItems items) ++ rest) false level =
      max (reach (Json.depthItems items) level) (levels rest false level)
  | [], rest, level => by
    rw [plainItems, Json.depthItems, reach, if_pos rfl, Nat.zero_max]
    rfl
  | [item], rest, level => by
    have single : Text.join [','] (plainItems [item]) = plainText item := by
      rw [plainItems, plainItems, Text.join, List.intercalate_singleton]
    rw [single, levels_value item, Json.depthItems, Json.depthItems, Nat.max_zero]
  | item :: next :: others, rest, level => by
    have joined : Text.join [','] (plainItems (item :: next :: others)) =
        plainText item ++ [','] ++ Text.join [','] (plainItems (next :: others)) := by
      rw [plainItems, plainItems, Text.join, List.intercalate_cons_cons]
      rfl
    have deepest : Json.depthItems (item :: next :: others) =
        max item.depth (Json.depthItems (next :: others)) := by rw [Json.depthItems]
    rw [joined, List.append_assoc, List.append_assoc, levels_value item, List.singleton_append,
      levels_mark (by decide), levels_items (next :: others), deepest, reach_max, max_assoc]

theorem levels_members : ∀ (members : List (Str × Json)) (rest : Str) (level : Nat),
    levels (Text.join [','] (plainMembers members) ++ rest) false level =
      max (reach (Json.depthMembers members) level) (levels rest false level)
  | [], rest, level => by
    rw [plainMembers, Json.depthMembers, reach, if_pos rfl, Nat.zero_max]
    rfl
  | [(key, value)], rest, level => by
    have single : Text.join [','] (plainMembers [(key, value)]) =
        '"' :: key.flatMap Crates.Plain.escapeChar ++ '"' :: ':' :: plainText value := by
      rw [plainMembers, plainMembers, Text.join, List.intercalate_singleton, List.append_assoc,
        List.singleton_append]
    rw [single, List.append_assoc]
    refine (levels_string key (':' :: (plainText value ++ rest)) level).trans ?_
    rw [levels_mark (by decide), levels_value value, Json.depthMembers, Json.depthMembers,
      Nat.max_zero]
  | (key, value) :: next :: others, rest, level => by
    have joined : Text.join [','] (plainMembers ((key, value) :: next :: others)) =
        '"' :: key.flatMap Crates.Plain.escapeChar ++ '"' :: ':' :: (plainText value ++
          ',' :: Text.join [','] (plainMembers (next :: others))) := by
      obtain ⟨name, other⟩ := next
      rw [plainMembers, plainMembers, Text.join, List.intercalate_cons_cons]
      simp [Text.join]
    have deepest : Json.depthMembers ((key, value) :: next :: others) =
        max value.depth (Json.depthMembers (next :: others)) := by rw [Json.depthMembers]
    have inner : '"' :: ':' :: (plainText value ++
        ',' :: Text.join [','] (plainMembers (next :: others))) ++ rest =
          '"' :: ':' :: (plainText value ++
            (',' :: Text.join [','] (plainMembers (next :: others)) ++ rest)) := by
      rw [List.cons_append, List.cons_append, List.append_assoc]
    rw [joined, List.append_assoc, inner]
    refine (levels_string key (':' :: (plainText value ++
      (',' :: Text.join [','] (plainMembers (next :: others)) ++ rest))) level).trans ?_
    rw [levels_mark (by decide), levels_value value, List.cons_append, levels_mark (by decide),
      levels_members (next :: others), deepest, reach_max, max_assoc]

end

/-- The levels of a value are those of its text. -/
theorem levels_plainText (value : Json) : levels (plainText value) false 0 = value.depth := by
  have whole := levels_value value [] 0
  rw [List.append_nil, levels, Nat.max_zero, reach, Nat.zero_add] at whole
  rw [whole]
  split_ifs with flat
  · exact flat.symm
  · rfl

/-! ## A reader -/

theorem utf8_join (parts : List Str) :
    Text.utf8 (Text.join [','] parts) = (Text.utf8 [',']).intercalate (parts.map Text.utf8) := by
  rw [Text.join]
  induction parts with
  | nil => rfl
  | cons part rest inductionHypothesis =>
    cases rest with
    | nil => simp
    | cons next others =>
      rw [List.intercalate_cons_cons, Text.utf8_append, Text.utf8_append, inductionHypothesis]
      simp only [List.map_cons, List.intercalate_cons_cons]

open Classical in
/-- `serde_json` on texts of plain values: what was written is read, within the limit. -/
noncomputable def crates : Crates :=
  { Crates.plain with
    toVec := fun value => Text.utf8 (plainText value)
    fromSlice := fun bytes =>
      if found : ∃ value : Json, value.depth < recursionLimit ∧
          Text.utf8 (plainText value) = bytes then some found.choose
      else none
    toVec_array := fun items => by
      rw [plainText, plainItems_eq, Text.utf8_append, ← List.singleton_append, Text.utf8_append,
        utf8_join, List.map_map]
      rfl
    toVec_object := fun members => by
      have entry (key : Str) (value : Json) :
          Text.utf8 (plainText (.string key) ++ ':' :: plainText value) =
            Text.utf8 (plainText (.string key)) ++ Text.utf8 [':'] ++
              Text.utf8 (plainText value) := by
        rw [← List.singleton_append, Text.utf8_append, Text.utf8_append, List.append_assoc]
      rw [plainText, plainMembers_eq, Text.utf8_append, ← List.singleton_append,
        Text.utf8_append, utf8_join, List.map_map]
      simp only [Function.comp_def, entry] }

theorem crates_serde : Serde crates where
  reads value shallow := by
    have found : ∃ other : Json, other.depth < recursionLimit ∧
        Text.utf8 (plainText other) = Text.utf8 (plainText value) := ⟨value, shallow, rfl⟩
    exact ⟨found.choose, dif_pos found, found.choose_spec.2⟩
  refuses value deep := by
    refine dif_neg ?_
    rintro ⟨other, shallow, same⟩
    rw [← levels_plainText, Text.utf8_injective same, levels_plainText] at shallow
    omega
  text value := ⟨plainText value, rfl⟩
  word s letters := by
    have kept : s.flatMap Crates.Plain.escapeChar = s := by
      induction s with
      | nil => rfl
      | cons c rest inductionHypothesis =>
        rw [List.forall_mem_cons] at letters
        have bounds : 97 ≤ c.toNat ∧ c.toNat ≤ 122 := by
          simpa [Text.isAsciiLower] using letters.1
        have single : Crates.Plain.escapeChar c = [c] := by
          have apart : c ≠ '"' ∧ c ≠ '\\' := by
            constructor
            · rintro rfl
              exact absurd bounds (by decide)
            · rintro rfl
              exact absurd bounds (by decide)
          rw [Crates.Plain.escapeChar, if_neg apart.1, if_neg apart.2]
          split_ifs <;> first | omega | rfl
        rw [List.flatMap_cons, single, inductionHypothesis letters.2]
        rfl
    change Text.utf8 (plainText (.string s)) = _
    rw [plainText, kept]

end Nesting

end Mcp

end LumidPlatform
