import Mathlib.Algebra.Order.Ring.Int
import Mathlib.Data.Char
import Mathlib.Data.List.AList
import Mathlib.Data.List.Infix
import Mathlib.Data.List.Lex
import Mathlib.Data.List.TakeWhile

/-!
# Rust text, as lists of scalar values

A `String` or `&str` of the source is the list of its Unicode scalar values. The
scanners of the source walk UTF-8 bytes; every byte they compare with is ASCII,
and no byte of a longer encoding is, so a scan over scalar values meets exactly
the same positions. Where the source pushes a single byte as a `char`, the byte
level is visible and `pushBytes` says what comes out.

Case mapping and white space follow the standard library. The Unicode tables of
the release in use are a structure whose fields also carry the facts about them
that later proofs rely on.
-/

/-- A string literal as its scalar values, kept folded by the simplifier. -/
def String.str (s : String) : List Char := s.toList

/-- A literal is read as its characters without a look at its bytes. -/
theorem String.str_ofList (chars : List Char) : (String.ofList chars).str = chars :=
  String.toList_ofList

/-- Literals are compared as such. -/
theorem String.str_inj {s t : String} : s.str = t.str ↔ s = t := String.toList_inj

namespace LumidPlatform

/-- A Rust string: its scalar values in order. -/
abbrev Str := List Char

/-- Texts are equal exactly where their comparison says so. -/
instance Str.lawful : LawfulBEq Str := inferInstance

/-- A byte vector. -/
abbrev Bytes := List UInt8

/-- A Rust hash map with string keys: one value a key. -/
abbrev HashMap (V : Type) := AList (fun _ : Str => V)

/-- Inserting pairs one by one into an empty map. -/
def mapOf {V : Type} (pairs : List (Str × V)) : HashMap V :=
  pairs.foldl (fun map pair => map.insert pair.1 pair.2) ∅

namespace Text

/-! ## Characters -/

/-- `char::is_whitespace`: the code points with the White_Space property. -/
def isWhitespace (c : Char) : Bool :=
  let n := c.toNat
  (9 ≤ n && n ≤ 13) || n == 32 || n == 0x85 || n == 0xA0 || n == 0x1680 ||
    (0x2000 ≤ n && n ≤ 0x200A) || n == 0x2028 || n == 0x2029 || n == 0x202F ||
    n == 0x205F || n == 0x3000

/-- `char::is_ascii`. -/
def isAscii (c : Char) : Bool := c.toNat < 128

/-- `char::is_ascii_uppercase`. -/
def isAsciiUpper (c : Char) : Bool := 65 ≤ c.toNat && c.toNat ≤ 90

/-- `char::is_ascii_lowercase`. -/
def isAsciiLower (c : Char) : Bool := 97 ≤ c.toNat && c.toNat ≤ 122

/-- `char::is_ascii_digit`. -/
def isAsciiDigit (c : Char) : Bool := 48 ≤ c.toNat && c.toNat ≤ 57

/-- `char::is_ascii_alphabetic`. -/
def isAsciiAlphabetic (c : Char) : Bool := isAsciiUpper c || isAsciiLower c

/-- `char::is_ascii_alphanumeric`. -/
def isAsciiAlphanumeric (c : Char) : Bool := isAsciiAlphabetic c || isAsciiDigit c

/-- `char::to_ascii_lowercase`. -/
def asciiLower (c : Char) : Char := if isAsciiUpper c then Char.ofNat (c.toNat + 32) else c

/-- `char::to_ascii_uppercase`. -/
def asciiUpper (c : Char) : Char := if isAsciiLower c then Char.ofNat (c.toNat - 32) else c

/-- `str::to_ascii_lowercase`. -/
def toAsciiLowercase (s : Str) : Str := s.map asciiLower

/-- A capital letter becomes a small one. -/
theorem asciiLower_upper {c : Char} (capital : isAsciiUpper c = true) :
    isAsciiLower (asciiLower c) = true := by
  have bounds : 65 ≤ c.toNat ∧ c.toNat ≤ 90 := by
    simpa [isAsciiUpper] using capital
  have value : (Char.ofNat (c.toNat + 32)).toNat = c.toNat + 32 := by
    have valid : (c.toNat + 32).isValidChar := Or.inl (by omega)
    rw [Char.ofNat, dif_pos valid]
    rfl
  simp only [asciiLower, if_pos capital, isAsciiLower, value, Bool.and_eq_true,
    decide_eq_true_eq]
  omega

/-- A character that lower-cases to ASCII is ASCII. -/
theorem isAscii_of_asciiLower {c : Char} (ascii : isAscii (asciiLower c) = true) :
    isAscii c = true := by
  by_cases capital : isAsciiUpper c = true
  · have bounds : 65 ≤ c.toNat ∧ c.toNat ≤ 90 := by
      simpa [isAsciiUpper] using capital
    simp only [isAscii, decide_eq_true_eq]
    omega
  · rwa [asciiLower, if_neg capital] at ascii

/-! ## Bytes -/

/-- `str::as_bytes`. -/
def utf8 (s : Str) : Bytes := s.flatMap String.utf8EncodeChar

/-- `str::len`: the number of bytes. -/
def byteLen (s : Str) : Nat := (utf8 s).length

/-- What `out.push(bytes[i] as char)` appends for the bytes of one scalar value:
an ASCII character is itself, any other becomes one character a byte. -/
def pushBytes (c : Char) : Str := (String.utf8EncodeChar c).map (fun byte => Char.ofNat byte.toNat)

/-- The second byte a three- or four-byte sequence admits after its first. -/
def secondByteFits (first second : UInt8) : Bool :=
  if first = 0xE0 then 0xA0 ≤ second && second ≤ 0xBF
  else if first = 0xED then 0x80 ≤ second && second ≤ 0x9F
  else if first = 0xF0 then 0x90 ≤ second && second ≤ 0xBF
  else if first = 0xF4 then 0x80 ≤ second && second ≤ 0x8F
  else 0x80 ≤ second && second ≤ 0xBF

/-- A byte that only comes after the first of a character. -/
def isContinuation (byte : UInt8) : Bool := 0x80 ≤ byte && byte ≤ 0xBF

/-- `String::from_utf8_lossy`: each maximal ill-formed prefix of a sequence
becomes one replacement character. -/
def fromUtf8Lossy : Bytes → Str
  | [] => []
  | b :: r =>
    if b < 0x80 then Char.ofNat b.toNat :: fromUtf8Lossy r
    else if 0xC2 ≤ b && b ≤ 0xDF then
      match r with
      | b2 :: r2 =>
        if isContinuation b2 then
          Char.ofNat ((b.toNat - 0xC0) * 64 + (b2.toNat - 0x80)) :: fromUtf8Lossy r2
        else '\uFFFD' :: fromUtf8Lossy (b2 :: r2)
      | [] => ['\uFFFD']
    else if 0xE0 ≤ b && b ≤ 0xEF then
      match r with
      | b2 :: b3 :: r3 =>
        if secondByteFits b b2 then
          if isContinuation b3 then
            Char.ofNat ((b.toNat - 0xE0) * 4096 + (b2.toNat - 0x80) * 64 + (b3.toNat - 0x80)) ::
              fromUtf8Lossy r3
          else '\uFFFD' :: fromUtf8Lossy (b3 :: r3)
        else '\uFFFD' :: fromUtf8Lossy (b2 :: b3 :: r3)
      | [b2] => if secondByteFits b b2 then ['\uFFFD'] else '\uFFFD' :: fromUtf8Lossy [b2]
      | [] => ['\uFFFD']
    else if 0xF0 ≤ b && b ≤ 0xF4 then
      match r with
      | b2 :: b3 :: b4 :: r4 =>
        if secondByteFits b b2 then
          if isContinuation b3 then
            if isContinuation b4 then
              Char.ofNat ((b.toNat - 0xF0) * 262144 + (b2.toNat - 0x80) * 4096 +
                (b3.toNat - 0x80) * 64 + (b4.toNat - 0x80)) :: fromUtf8Lossy r4
            else '\uFFFD' :: fromUtf8Lossy (b4 :: r4)
          else '\uFFFD' :: fromUtf8Lossy (b3 :: b4 :: r4)
        else '\uFFFD' :: fromUtf8Lossy (b2 :: b3 :: b4 :: r4)
      | [b2, b3] =>
        if secondByteFits b b2 then
          if isContinuation b3 then ['\uFFFD'] else '\uFFFD' :: fromUtf8Lossy [b3]
        else '\uFFFD' :: fromUtf8Lossy [b2, b3]
      | [b2] => if secondByteFits b b2 then ['\uFFFD'] else '\uFFFD' :: fromUtf8Lossy [b2]
      | [] => ['\uFFFD']
    else '\uFFFD' :: fromUtf8Lossy r

/-- An ASCII character is one byte, its code. -/
theorem utf8EncodeChar_ascii {c : Char} (ascii : c.toNat < 128) :
    String.utf8EncodeChar c = [UInt8.ofNat c.toNat] := by
  have small : c.val.toNat ≤ 127 := Nat.le_of_lt_succ ascii
  simp only [String.utf8EncodeChar, if_pos small, Char.toNat]

/-- A byte beyond ASCII, taken as a character, is no ASCII character. -/
theorem isAscii_highByte {n : Nat} (high : 128 ≤ n) (byte : n < 256) :
    isAscii (Char.ofNat (UInt8.ofNat n).toNat) = false := by
  have same : (UInt8.ofNat n).toNat = n := by
    rw [UInt8.toNat_ofNat', Nat.mod_eq_of_lt (by omega)]
  have value : (Char.ofNat n).toNat = n := by
    have valid : n.isValidChar := Or.inl (by omega)
    rw [Char.ofNat, dif_pos valid]
    rfl
  rw [same, isAscii, value, decide_eq_false_iff_not]
  omega

/-- The bytes of a character beyond ASCII are no ASCII characters. -/
theorem pushBytes_foreign {c : Char} (foreign : isAscii c = false) :
    ∀ d ∈ pushBytes c, isAscii d = false := by
  have code : ¬c.val.toNat ≤ 127 := by
    simp only [isAscii, decide_eq_false_iff_not, not_lt] at foreign
    exact Nat.not_le.mpr foreign
  intro d member
  simp only [pushBytes, String.utf8EncodeChar, if_neg code] at member
  split_ifs at member with small medium
  all_goals
    simp only [List.map_cons, List.map_nil, List.mem_cons, List.not_mem_nil, or_false] at member
    rcases member with rfl | rfl | rfl | rfl <;> exact isAscii_highByte (by omega) (by omega)

/-- An ASCII character is pushed as itself. -/
theorem pushBytes_ascii {c : Char} (ascii : isAscii c = true) : pushBytes c = [c] := by
  have code : c.toNat < 128 := by simpa [isAscii] using ascii
  rw [pushBytes, utf8EncodeChar_ascii code, List.map_singleton, UInt8.toNat_ofNat',
    Nat.mod_eq_of_lt (by omega), Char.ofNat_toNat]

/-- Every character has a byte. -/
theorem pushBytes_ne_nil (c : Char) : pushBytes c ≠ [] := by
  simp [pushBytes, String.utf8EncodeChar_ne_nil]

/-- A character is written as itself or as characters beyond ASCII. -/
theorem mem_pushBytes {c d : Char} (ascii : isAscii c = true) :
    c ∈ pushBytes d ↔ c = d := by
  by_cases plain : isAscii d = true
  · rw [pushBytes_ascii plain, List.mem_singleton]
  · have foreign := Bool.eq_false_iff.mpr plain
    constructor
    · intro member
      rw [pushBytes_foreign foreign c member] at ascii
      cases ascii
    · rintro rfl
      exact absurd ascii plain

/-- The bytes of a text are those of its characters in turn. -/
theorem utf8_cons (c : Char) (s : Str) : utf8 (c :: s) = String.utf8EncodeChar c ++ utf8 s := rfl

/-- An ASCII text has a byte for each character. -/
theorem byteLen_ascii {s : Str} (ascii : ∀ c ∈ s, c.toNat < 128) : byteLen s = s.length := by
  induction s with
  | nil => rfl
  | cons c rest inductionHypothesis =>
    have onward := inductionHypothesis (fun d member => ascii d (List.mem_cons_of_mem _ member))
    rw [byteLen] at onward ⊢
    rw [utf8_cons, utf8EncodeChar_ascii (ascii c List.mem_cons_self), List.singleton_append,
      List.length_cons, List.length_cons, onward]

/-- So the bytes of two texts follow each other. -/
theorem utf8_append (s t : Str) : utf8 (s ++ t) = utf8 s ++ utf8 t := List.flatMap_append

/-- The bytes of a text say which text it is. -/
theorem utf8_injective {s t : Str} (same : utf8 s = utf8 t) : s = t := by
  have encoded : s.utf8Encode = t.utf8Encode := congrArg List.toByteArray same
  rw [← String.toByteArray_ofList, ← String.toByteArray_ofList, String.toByteArray_inj] at encoded
  rw [← String.toList_ofList (l := s), encoded, String.toList_ofList]

/-! ### Byte offsets -/

/-- The length in bytes of a text, its first character apart. -/
theorem byteLen_cons (c : Char) (s : Str) : byteLen (c :: s) = c.utf8Size + byteLen s := by
  rw [byteLen, utf8_cons, List.length_append, String.length_utf8EncodeChar, byteLen]

/-- Lengths in bytes add up. -/
theorem byteLen_append (s t : Str) : byteLen (s ++ t) = byteLen s + byteLen t := by
  rw [byteLen, utf8_append, List.length_append, byteLen, byteLen]

/-- `&s[..n]`; `none` is the panic at an offset behind the end or within a character. -/
def sliceTo : Str → Nat → Option Str
  | _, 0 => some []
  | [], _ + 1 => none
  | c :: rest, n + 1 =>
    if c.utf8Size ≤ n + 1 then (sliceTo rest (n + 1 - c.utf8Size)).map (fun cut => c :: cut)
    else none

/-- A slice is the beginning of the text with that many bytes. -/
theorem sliceTo_eq_some {s cut : Str} {n : Nat} :
    sliceTo s n = some cut ↔ cut <+: s ∧ byteLen cut = n := by
  fun_induction sliceTo s n generalizing cut with
  | case1 s =>
    constructor
    · intro sliced
      obtain rfl := Option.some.inj sliced
      exact ⟨List.nil_prefix, rfl⟩
    · rintro ⟨-, none⟩
      cases cut with
      | nil => rfl
      | cons c rest =>
        have positive := Char.utf8Size_pos c
        rw [byteLen_cons] at none
        omega
  | case2 n =>
    refine iff_of_false (fun impossible => by cases impossible) ?_
    rintro ⟨inside, length⟩
    rw [List.prefix_nil.mp inside] at length
    cases length
  | case3 c rest n fits inductionHypothesis =>
    rw [Option.map_eq_some_iff]
    constructor
    · rintro ⟨later, sliced, rfl⟩
      obtain ⟨inside, length⟩ := inductionHypothesis.mp sliced
      refine ⟨List.cons_prefix_cons.mpr ⟨rfl, inside⟩, ?_⟩
      rw [byteLen_cons, length]
      omega
    · rintro ⟨inside, length⟩
      cases cut with
      | nil => cases length
      | cons d later =>
        obtain ⟨rfl, inRest⟩ := List.cons_prefix_cons.mp inside
        rw [byteLen_cons] at length
        exact ⟨later, inductionHypothesis.mpr ⟨inRest, by omega⟩, rfl⟩
  | case4 c rest n large =>
    refine iff_of_false (fun impossible => by cases impossible) ?_
    rintro ⟨inside, length⟩
    cases cut with
    | nil => cases length
    | cons d later =>
      obtain ⟨rfl, -⟩ := List.cons_prefix_cons.mp inside
      rw [byteLen_cons] at length
      omega

/-- A low byte is read as the character it is the code of. -/
theorem fromUtf8Lossy_low {b : UInt8} (low : b < 0x80) (rest : Bytes) :
    fromUtf8Lossy (b :: rest) = Char.ofNat b.toNat :: fromUtf8Lossy rest := by
  rw [fromUtf8Lossy.eq_def]
  simp only [if_pos low]

/-- ASCII text reads back from its bytes. -/
theorem fromUtf8Lossy_utf8 {s : Str} (ascii : ∀ c ∈ s, c.toNat < 128) :
    fromUtf8Lossy (utf8 s) = s := by
  induction s with
  | nil => rfl
  | cons c rest inductionHypothesis =>
    have code : c.toNat < 128 := ascii c List.mem_cons_self
    have byte : (UInt8.ofNat c.toNat).toNat = c.toNat := by
      rw [UInt8.toNat_ofNat', Nat.mod_eq_of_lt (by omega)]
    have low : UInt8.ofNat c.toNat < 0x80 := by
      rw [UInt8.lt_iff_toNat_lt, byte]
      exact code
    rw [utf8_cons, utf8EncodeChar_ascii code, List.singleton_append, fromUtf8Lossy_low low, byte,
      Char.ofNat_toNat,
      inductionHypothesis (fun d member => ascii d (List.mem_cons_of_mem c member))]

/-- The bytes of an ASCII text are the codes of its characters. -/
theorem mem_utf8_ascii {s : Str} (ascii : ∀ c ∈ s, c.toNat < 128) {b : UInt8}
    (member : b ∈ utf8 s) : ∃ c ∈ s, b = UInt8.ofNat c.toNat := by
  obtain ⟨c, inText, inChar⟩ := List.mem_flatMap.mp member
  rw [utf8EncodeChar_ascii (ascii c inText), List.mem_singleton] at inChar
  exact ⟨c, inText, inChar⟩

/-- `str::from_utf8`: nothing had to be replaced. -/
def fromUtf8 (bytes : Bytes) : Option Str :=
  if utf8 (fromUtf8Lossy bytes) = bytes then some (fromUtf8Lossy bytes) else none

/-! ## Slices and searches -/

/-- `str::trim_start`. -/
def trimStart (s : Str) : Str := s.dropWhile isWhitespace

/-- `str::trim_end`. -/
def trimEnd (s : Str) : Str := (s.reverse.dropWhile isWhitespace).reverse

/-- `str::trim`. -/
def trim (s : Str) : Str := trimEnd (trimStart s)

/-- Trimming leaves a visible part, and takes white space from what is around it. -/
theorem trim_around (before part after : Str) (visible : ∀ c ∈ part, isWhitespace c = false)
    (nonempty : part ≠ []) : ∃ left right, trim (before ++ part ++ after) = left ++ part ++ right ∧
      left <:+ before ∧ right <+: after ∧
        ∀ c, isWhitespace c = false → left.count c = before.count c := by
  have front : (part ++ after).dropWhile isWhitespace = part ++ after := by
    cases part with
    | nil => exact absurd rfl nonempty
    | cons c rest => simp [visible c List.mem_cons_self]
  have back : (part.reverse ++ (before.dropWhile isWhitespace).reverse).dropWhile isWhitespace =
      part.reverse ++ (before.dropWhile isWhitespace).reverse := by
    cases reversed : part.reverse with
    | nil => exact absurd (List.reverse_eq_nil_iff.mp reversed) nonempty
    | cons c rest =>
      have member : c ∈ part := List.mem_reverse.mp (reversed ▸ List.mem_cons_self)
      simp [visible c member]
  have start : trimStart (before ++ part ++ after) =
      before.dropWhile isWhitespace ++ part ++ after := by
    rw [trimStart, List.append_assoc, List.dropWhile_append, front]
    split_ifs with blank
    · rw [List.isEmpty_iff.mp blank]
      simp
    · simp
  refine ⟨before.dropWhile isWhitespace, (after.reverse.dropWhile isWhitespace).reverse, ?_,
    List.dropWhile_suffix _, ?_, ?_⟩
  · rw [trim, start, trimEnd, List.reverse_append, List.reverse_append, List.dropWhile_append, back]
    split_ifs with blank
    · rw [List.isEmpty_iff.mp blank]
      simp
    · simp
  · rw [← List.reverse_suffix, List.reverse_reverse]
    exact List.dropWhile_suffix _
  · intro c seen
    have absent : (before.takeWhile isWhitespace).count c = 0 := by
      apply List.count_eq_zero.mpr
      intro member
      have blank := List.mem_takeWhile_imp member
      simp [seen] at blank
    have whole := congrArg (List.count c)
      (List.takeWhile_append_dropWhile (p := isWhitespace) (l := before))
    rw [List.count_append, absent] at whole
    omega

/-- A text that trims to nothing is white space. -/
theorem blank_of_trim {s : Str} (empty : trim s = []) : ∀ c ∈ s, isWhitespace c = true := by
  intro c member
  by_contra seen
  have visible : isWhitespace c = false := by simpa using seen
  obtain ⟨before, after, rfl⟩ := List.append_of_mem member
  obtain ⟨left, right, trimmed, -⟩ := trim_around before [c] after (by simpa using visible)
    (by simp)
  rw [show before ++ c :: after = before ++ [c] ++ after by simp, trimmed] at empty
  simp at empty

/-- A character other than the separator is in one of the pieces. -/
theorem mem_splitOn {s : Str} {c sep : Char} (member : c ∈ s) (other : c ≠ sep) :
    ∃ piece ∈ s.splitOn sep, c ∈ piece := by
  induction s with
  | nil => simp at member
  | cons d rest inductionHypothesis =>
    rw [List.splitOn_cons_eq_if_modifyHead]
    obtain ⟨first, others, split⟩ := List.exists_cons_of_ne_nil (List.splitOn_ne_nil sep rest)
    rcases List.mem_cons.mp member with rfl | inRest
    · refine ⟨c :: first, ?_, List.mem_cons_self⟩
      simp [other, split]
    · obtain ⟨piece, inPieces, inPiece⟩ := inductionHypothesis inRest
      rw [split] at inPieces ⊢
      split_ifs
      · exact ⟨piece, List.mem_cons_of_mem _ inPieces, inPiece⟩
      · rcases List.mem_cons.mp inPieces with rfl | later
        · exact ⟨d :: piece, List.mem_cons_self, List.mem_cons_of_mem d inPiece⟩
        · exact ⟨piece, List.mem_cons_of_mem _ later, inPiece⟩

/-- A part without the separator is in one piece, with what stands around it there. -/
theorem splitOn_around {before part after : Str} {sep : Char} (whole : sep ∉ part) :
    ∃ earlier left right later,
      (before ++ part ++ after).splitOn sep = earlier ++ (left ++ part ++ right) :: later ∧
        left <:+ before ∧ right <+: after ∧
        ∀ c, c ≠ sep → (∀ piece ∈ earlier, c ∉ piece) → left.count c = before.count c := by
  have onRight : ∀ left, sep ∉ left → ∃ right later,
      (left ++ part ++ after).splitOn sep = (left ++ part ++ right) :: later ∧ right <+: after := by
    intro left free
    by_cases more : sep ∈ after
    · obtain ⟨right, others, rfl, notIn⟩ := List.eq_append_cons_of_mem more
      refine ⟨right, others.splitOn sep, ?_, List.prefix_append right _⟩
      rw [← List.append_assoc]
      apply List.splitOn_append_cons_self_of_not_mem
      simp [free, whole, notIn]
    · refine ⟨after, [], ?_, List.prefix_refl after⟩
      apply List.splitOn_eq_singleton
      simp [free, whole, more]
  by_cases separated : sep ∈ before
  · obtain ⟨reversed, others, same, notIn⟩ :=
      List.eq_append_cons_of_mem (List.mem_reverse.mpr separated)
    have cut : before = others.reverse ++ sep :: reversed.reverse := by
      rw [← List.reverse_reverse before, same]
      simp
    obtain ⟨right, later, split, inAfter⟩ := onRight reversed.reverse (by simpa using notIn)
    refine ⟨others.reverse.splitOn sep, reversed.reverse, right, later, ?_, ?_, inAfter, ?_⟩
    · rw [cut, ← split, ← List.splitOn_append_cons_self]
      simp
    · rw [cut]
      exact ⟨others.reverse ++ [sep], by simp⟩
    · intro c other absent
      have none' : c ∉ others.reverse := by
        intro member
        obtain ⟨piece, inPieces, inPiece⟩ := mem_splitOn member other
        exact absent piece inPieces inPiece
      rw [cut, List.count_append, List.count_eq_zero.mpr none', List.count_cons_of_ne other.symm,
        Nat.zero_add]
  · obtain ⟨right, later, split, inAfter⟩ := onRight before separated
    exact ⟨[], before, right, later, split, List.suffix_refl before, inAfter, fun _ _ _ => rfl⟩

/-- `str::trim_end_matches` with a character. -/
def trimEndMatches (c : Char) (s : Str) : Str := (s.reverse.dropWhile (· == c)).reverse

/-- `str::starts_with`. -/
def startsWith (s word : Str) : Bool := word.isPrefixOf s

/-- `str::strip_prefix`. -/
def stripPrefix (s word : Str) : Option Str :=
  if startsWith s word then some (s.drop word.length) else none

/-- `str::contains` with a string: some suffix begins with it. -/
def contains (s word : Str) : Bool := s.tails.any (fun rest => startsWith rest word)

/-- A text that begins with a word contains it. -/
theorem contains_append_self (word rest : Str) : contains (word ++ rest) word = true := by
  apply List.any_eq_true.mpr
  refine ⟨word ++ rest, ?_, by simp [startsWith]⟩
  exact (List.mem_tails _ _).mpr (List.suffix_refl _)

/-- `str::split_once` with a character. -/
def splitOnce (c : Char) : Str → Option (Str × Str)
  | [] => none
  | head :: rest =>
    if head = c then some ([], rest)
    else (splitOnce c rest).map (fun parts => (head :: parts.1, parts.2))

/-- `str::rsplit(c).next()`: the text after the last occurrence of a character. -/
def afterLast (c : Char) (s : Str) : Str := (s.reverse.takeWhile (· ≠ c)).reverse

/-- `[String]::join`. -/
def join (separator : Str) (parts : List Str) : Str := separator.intercalate parts

/-- `Ord` on strings: UTF-8 order, which is the order of scalar values. -/
def le (left right : Str) : Bool := decide (left ≤ right)

/-! ## Numbers -/

/-- Decimal digits of a natural number, as `to_string` writes it. -/
def showNat (n : Nat) : Str := Nat.toDigits 10 n

/-- `i64::to_string`. -/
def showInt : Int → Str
  | .ofNat n => showNat n
  | .negSucc n => '-' :: showNat (n + 1)

/-- Different numbers are written differently. -/
theorem showNat_injective {n m : Nat} (same : showNat n = showNat m) : n = m := by
  have read := congrArg (fun digits => Nat.ofDigitChars 10 digits 0) same
  simpa [showNat, Nat.ofDigitChars_ten_toDigits] using read

/-- A number is written with digits only. -/
theorem isDigit_of_mem_showNat {n : Nat} {c : Char} (member : c ∈ showNat n) : c.isDigit = true :=
  Nat.isDigit_of_mem_toDigits (by omega) (by omega) member

/-- The same with a sign. -/
theorem showInt_injective {i j : Int} (same : showInt i = showInt j) : i = j := by
  have signed : ∀ n m : Nat, showNat n ≠ '-' :: showNat m := by
    intro n m mixed
    have digit := isDigit_of_mem_showNat (n := n) (mixed ▸ List.mem_cons_self)
    exact absurd digit (by decide)
  cases i with
  | ofNat n =>
    cases j with
    | ofNat m => exact congrArg Int.ofNat (showNat_injective same)
    | negSucc m => exact absurd same (signed n (m + 1))
  | negSucc n =>
    cases j with
    | ofNat m => exact absurd same.symm (signed m (n + 1))
    | negSucc m =>
      have magnitudes := showNat_injective (List.cons.inj same).2
      exact congrArg Int.negSucc (Nat.succ.inj magnitudes)

/-- `bool::to_string`. -/
def showBool (b : Bool) : Str := if b then "true".str else "false".str

/-- The two booleans are written differently. -/
theorem showBool_injective {a b : Bool} (same : showBool a = showBool b) : a = b := by
  cases a <;> cases b <;> first | rfl | exact absurd same (by decide)

/-- A non-empty run of decimal digits, read as a number. -/
def parseDigits (s : Str) : Option Nat :=
  if s.isEmpty || !s.all isAsciiDigit then none
  else some (s.foldl (fun value digit => value * 10 + (digit.toNat - 48)) 0)

/-- The digits are those of ASCII. -/
theorem isAsciiDigit_of_mem_showNat {n : Nat} {c : Char} (member : c ∈ showNat n) :
    isAsciiDigit c = true := by
  have digit := isDigit_of_mem_showNat member
  simp only [Char.isDigit, Bool.and_eq_true, decide_eq_true_eq, UInt32.le_iff_toNat_le] at digit
  simp only [isAsciiDigit, Bool.and_eq_true, decide_eq_true_eq]
  exact digit

/-- A number reads back from its digits, also behind zeros. -/
theorem parseDigits_padded (zeros n : Nat) :
    parseDigits (List.replicate zeros '0' ++ showNat n) = some n := by
  have skipped : (List.replicate zeros '0').foldl
      (fun value digit => value * 10 + (digit.toNat - 48)) 0 = 0 := by
    induction zeros with
    | zero => rfl
    | succ zeros inductionHypothesis => exact inductionHypothesis
  have digits : (List.replicate zeros '0' ++ showNat n).all isAsciiDigit = true := by
    rw [List.all_append, List.all_replicate, Bool.and_eq_true]
    refine ⟨by split <;> rfl, List.all_eq_true.mpr fun c => isAsciiDigit_of_mem_showNat⟩
  have filled : (List.replicate zeros '0' ++ showNat n).isEmpty = false := by
    rw [List.isEmpty_eq_false_iff]
    exact List.append_ne_nil_of_right_ne_nil _ Nat.toDigits_ne_nil
  have value := Nat.ofDigitChars_ten_toDigits (n := n)
  rw [Nat.ofDigitChars_eq_foldl] at value
  rw [parseDigits, filled, digits, Bool.not_true, Bool.or_self, if_neg Bool.false_ne_true,
    List.foldl_append, skipped]
  simp only [Nat.mul_comm 10] at value
  exact congrArg some value

/-- A number reads back from its digits. -/
theorem parseDigits_showNat (n : Nat) : parseDigits (showNat n) = some n :=
  parseDigits_padded 0 n

/-- `str::parse::<i64>`: an optional sign, then digits, within the 64-bit range. -/
def parseI64 (s : Str) : Option Int :=
  let signed : Option Int := match s with
    | '-' :: digits => (parseDigits digits).map (fun n => -(n : Int))
    | '+' :: digits => (parseDigits digits).map (fun n => (n : Int))
    | digits => (parseDigits digits).map (fun n => (n : Int))
  signed.filter (fun n => -9223372036854775808 ≤ n && n ≤ 9223372036854775807)

/-- A number within the range is read as what was printed. -/
theorem parseI64_showInt {i : Int} (low : -2 ^ 63 ≤ i) (high : i < 2 ^ 63) :
    parseI64 (showInt i) = some i := by
  have inRange : (decide (-9223372036854775808 ≤ i) && decide (i ≤ 9223372036854775807)) = true := by
    rw [Bool.and_eq_true, decide_eq_true_eq, decide_eq_true_eq]
    omega
  cases i with
  | ofNat n =>
    unfold parseI64
    dsimp only [showInt]
    split
    · rename_i shown
      have digit := isAsciiDigit_of_mem_showNat (shown ▸ List.mem_cons_self)
      exact absurd digit (by decide)
    · rename_i shown
      have digit := isAsciiDigit_of_mem_showNat (shown ▸ List.mem_cons_self)
      exact absurd digit (by decide)
    · rw [parseDigits_showNat]
      exact Option.filter_eq_some_iff.mpr ⟨rfl, inRange⟩
  | negSucc n =>
    unfold parseI64
    change Option.filter _ (Option.map _ (Option.bind (parseDigits (showNat (n + 1))) _)) = _
    rw [parseDigits_showNat]
    exact Option.filter_eq_some_iff.mpr ⟨rfl, inRange⟩

end Text

/-! ## Case mapping -/

/-- The Unicode tables of the standard library in use, with the facts about every
Unicode release that proofs rely on: ASCII maps as ASCII, a foreign character
never maps to ASCII other than a letter, and no mapping turns a visible
character into white space or into nothing. -/
structure Unicode where
  /-- `char::to_uppercase`. -/
  upper : Char → Str
  /-- `char::to_lowercase`. -/
  lower : Char → Str
  cased : Char → Bool
  caseIgnorable : Char → Bool
  /-- Whether `Debug` of a string writes a character as its code point. -/
  debugEscaped : Char → Bool
  upper_ascii : ∀ c, Text.isAscii c = true → upper c = [Text.asciiUpper c]
  lower_ascii : ∀ c, Text.isAscii c = true → lower c = [Text.asciiLower c]
  lower_foreign : ∀ c, Text.isAscii c = false →
    ∀ d ∈ lower c, Text.isAscii d = false ∨ Text.isAsciiLower d = true
  lower_visible : ∀ c, Text.isWhitespace c = false →
    ∃ d ∈ lower c, Text.isWhitespace d = false

namespace Unicode

variable (tables : Unicode)

/-- `str::to_uppercase`. -/
def toUppercase (s : Str) : Str := s.flatMap tables.upper

/-- Whether the first character that is not case-ignorable is cased. -/
def caseIgnorableThenCased (s : Str) : Bool :=
  match s.dropWhile tables.caseIgnorable with
  | [] => false
  | c :: _ => tables.cased c

/-- The lower case of `str::to_lowercase` at one position. A capital sigma ending
a word is the one character whose mapping looks at its neighbours. -/
def lowerAt (before : Str) (c : Char) (after : Str) : Str :=
  if c = 'Σ' then
    if tables.caseIgnorableThenCased before && !tables.caseIgnorableThenCased after then ['ς']
    else ['σ']
  else tables.lower c

/-- `str::to_lowercase` of a suffix, with the characters before it nearest first. -/
def toLowercaseFrom (before : Str) : Str → Str
  | [] => []
  | c :: rest => tables.lowerAt before c rest ++ toLowercaseFrom (c :: before) rest

/-- `str::to_lowercase`. -/
def toLowercase (s : Str) : Str := tables.toLowercaseFrom [] s

/-- `Debug` of one character inside a string. -/
def debugChar (c : Char) : Str :=
  if c = '"' then "\\\"".str
  else if c = '\\' then "\\\\".str
  else if c = '\t' then "\\t".str
  else if c = '\r' then "\\r".str
  else if c = '\n' then "\\n".str
  else if c = Char.ofNat 0 then "\\0".str
  else if tables.debugEscaped c then
    "\\u\x7b".str ++ Nat.toDigits 16 c.toNat ++ "\x7d".str
  else [c]

/-- `Debug` of a string. -/
def debug (s : Str) : Str := '"' :: s.flatMap tables.debugChar ++ ['"']

/-- `Debug` of a list of strings. -/
def debugList (parts : List Str) : Str :=
  '[' :: Text.join ", ".str (parts.map tables.debug) ++ [']']

/-- A character of an ASCII text maps to its ASCII lower case wherever it stands. -/
theorem lowerAt_ascii (before : Str) (c : Char) (after : Str) (ascii : Text.isAscii c = true) :
    tables.lowerAt before c after = [Text.asciiLower c] := by
  have notSigma : c ≠ 'Σ' := by
    rintro rfl
    exact absurd ascii (by decide)
  simp only [lowerAt, if_neg notSigma, tables.lower_ascii c ascii]

/-- Lower-casing an ASCII text is ASCII lower-casing, whatever stands before it. -/
theorem toLowercaseFrom_ascii (before s : Str) (ascii : ∀ c ∈ s, Text.isAscii c = true) :
    tables.toLowercaseFrom before s = Text.toAsciiLowercase s := by
  induction s generalizing before with
  | nil => rfl
  | cons c rest inductionHypothesis =>
    have head : tables.lowerAt before c rest = [Text.asciiLower c] :=
      tables.lowerAt_ascii before c rest (ascii c List.mem_cons_self)
    have tail := inductionHypothesis (c :: before)
      (fun other member => ascii other (List.mem_cons_of_mem c member))
    simp only [toLowercaseFrom, head, tail, Text.toAsciiLowercase, List.map_cons,
      List.singleton_append]

/-- `str::to_lowercase` of a part, in its place between what is before it, nearest first,
and after it. -/
def lowerIn (before : Str) : Str → Str → Str
  | [], _ => []
  | c :: rest, after =>
    tables.lowerAt before c (rest ++ after) ++ lowerIn (c :: before) rest after

/-- Lowering goes from left to right; each part is lowered with what stands around it, which decides
on a final sigma. -/
theorem toLowercaseFrom_append (before s after : Str) :
    tables.toLowercaseFrom before (s ++ after) =
      tables.lowerIn before s after ++ tables.toLowercaseFrom (s.reverse ++ before) after := by
  induction s generalizing before with
  | nil => rfl
  | cons c rest inductionHypothesis =>
    rw [List.cons_append, toLowercaseFrom, inductionHypothesis, lowerIn, List.append_assoc]
    simp

/-- An ASCII part is lower-cased by itself. -/
theorem toLowercaseFrom_ascii_append (before s after : Str)
    (ascii : ∀ c ∈ s, Text.isAscii c = true) :
    tables.toLowercaseFrom before (s ++ after) =
      Text.toAsciiLowercase s ++ tables.toLowercaseFrom (s.reverse ++ before) after := by
  induction s generalizing before with
  | nil => rfl
  | cons c rest inductionHypothesis =>
    rw [List.cons_append, toLowercaseFrom,
      tables.lowerAt_ascii before c (rest ++ after) (ascii c List.mem_cons_self),
      inductionHypothesis (c :: before)
        (fun other member => ascii other (List.mem_cons_of_mem c member))]
    simp [Text.toAsciiLowercase]

/-- Lower-casing neither makes nor removes an ASCII character that is no letter. -/
theorem count_lowerAt (before : Str) (c : Char) (after : Str) {d : Char}
    (ascii : Text.isAscii d = true) (notLetter : Text.isAsciiAlphabetic d = false) :
    (tables.lowerAt before c after).count d = [c].count d := by
  have notUpper : Text.isAsciiUpper d = false := (Bool.or_eq_false_iff.mp notLetter).1
  have notLower : Text.isAsciiLower d = false := (Bool.or_eq_false_iff.mp notLetter).2
  by_cases plain : Text.isAscii c = true
  · rw [tables.lowerAt_ascii before c after plain]
    by_cases capital : Text.isAsciiUpper c = true
    · have lowered : Text.isAsciiLower (Text.asciiLower c) = true := Text.asciiLower_upper capital
      have other : Text.asciiLower c ≠ d := by
        rintro rfl
        simp [notLower] at lowered
      have different : c ≠ d := by
        rintro rfl
        simp [notUpper] at capital
      simp [other, different]
    · rw [Text.asciiLower, if_neg capital]
  · have foreign : Text.isAscii c = false := by simpa using plain
    have different : c ≠ d := by
      rintro rfl
      exact plain ascii
    have absent : d ∉ tables.lowerAt before c after := by
      intro member
      rw [lowerAt] at member
      split_ifs at member
      · exact absurd (List.mem_singleton.mp member ▸ ascii) (by decide)
      · exact absurd (List.mem_singleton.mp member ▸ ascii) (by decide)
      · rcases tables.lower_foreign c foreign d member with beyond | letter
        · simp [ascii] at beyond
        · simp [notLower] at letter
    rw [List.count_eq_zero.mpr absent]
    simp [different]

/-- Lowering makes letters only, so an ASCII character that is none is neither added nor lost. -/
theorem count_lowerIn (before s after : Str) {d : Char}
    (ascii : Text.isAscii d = true) (notLetter : Text.isAsciiAlphabetic d = false) :
    (tables.lowerIn before s after).count d = s.count d := by
  induction s generalizing before with
  | nil => rfl
  | cons c rest inductionHypothesis =>
    rw [lowerIn, List.count_append, inductionHypothesis,
      tables.count_lowerAt before c (rest ++ after) ascii notLetter, ← List.count_append]
    rfl

/-- A visible character stays visible. -/
theorem lowerAt_visible (before : Str) {c : Char} (after : Str)
    (visible : Text.isWhitespace c = false) :
    ∃ d ∈ tables.lowerAt before c after, Text.isWhitespace d = false := by
  rw [lowerAt]
  split_ifs
  · exact ⟨'ς', List.mem_singleton.mpr rfl, by decide⟩
  · exact ⟨'σ', List.mem_singleton.mpr rfl, by decide⟩
  · exact tables.lower_visible c visible

/-- Each character of a text is lowered somewhere in it. -/
theorem lowerIn_mem (before : Str) {s : Str} (after : Str) {c : Char} (member : c ∈ s) :
    ∃ near far, ∀ d ∈ tables.lowerAt near c far, d ∈ tables.lowerIn before s after := by
  induction s generalizing before with
  | nil => simp at member
  | cons first rest inductionHypothesis =>
    rcases List.mem_cons.mp member with rfl | later
    · refine ⟨before, rest ++ after, fun d inHere => ?_⟩
      exact List.mem_append_left _ inHere
    · obtain ⟨near, far, all⟩ := inductionHypothesis (first :: before) later
      exact ⟨near, far, fun d inHere => List.mem_append_right _ (all d inHere)⟩

/-- With nothing behind it a text is lowered as the rest of one. -/
theorem lowerIn_nil_after (before s : Str) :
    tables.lowerIn before s [] = tables.toLowercaseFrom before s := by
  induction s generalizing before with
  | nil => rfl
  | cons c rest inductionHypothesis =>
    rw [lowerIn, inductionHypothesis, List.append_nil, toLowercaseFrom]

/-- The tables of a text that has ASCII letters only: every other character is
its own image. They serve where a concrete input is plain ASCII. -/
def ascii : Unicode where
  upper c := [Text.asciiUpper c]
  lower c := [Text.asciiLower c]
  cased := Text.isAsciiAlphabetic
  caseIgnorable _ := false
  debugEscaped c := c.toNat < 32 || c.toNat == 127
  upper_ascii _ _ := rfl
  lower_ascii _ _ := rfl
  lower_foreign c foreign d member := by
    have same : d = c := by
      simp only [List.mem_singleton] at member
      rw [member]
      have notUpper : Text.isAsciiUpper c = false := by
        simp only [Text.isAscii, decide_eq_false_iff_not, not_lt] at foreign
        simp only [Text.isAsciiUpper, Bool.and_eq_false_iff, decide_eq_false_iff_not, not_le]
        omega
      simp [Text.asciiLower, notUpper]
    exact Or.inl (same ▸ foreign)
  lower_visible c visible := by
    refine ⟨Text.asciiLower c, List.mem_singleton.mpr rfl, ?_⟩
    by_cases capital : Text.isAsciiUpper c = true
    · have bounds : 65 ≤ c.toNat ∧ c.toNat ≤ 90 := by
        simpa [Text.isAsciiUpper] using capital
      have value : (Char.ofNat (c.toNat + 32)).toNat = c.toNat + 32 := by
        have valid : (c.toNat + 32).isValidChar := Or.inl (by omega)
        rw [Char.ofNat, dif_pos valid]
        rfl
      simp only [Text.asciiLower, if_pos capital, Text.isWhitespace, value]
      simp only [Bool.or_eq_false_iff, Bool.and_eq_false_iff, decide_eq_false_iff_not, not_le,
        beq_eq_false_iff_ne]
      omega
    · simp only [Text.asciiLower, if_neg capital, visible]

end Unicode

end LumidPlatform
