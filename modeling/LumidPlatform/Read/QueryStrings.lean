import LumidPlatform.Utf8
import LumidPlatform.Read.Exec

/-!
# Percent-decoding

A query string is cut at its separators, and each part is decoded byte by byte: three bytes that
begin with a percent sign and go on with two hexadecimal digits are one byte, and all others stay.
What an encoder wrote is read back. The digits are read from a slice of the text, and the end of
the slice need not be the end of a character.
-/

namespace LumidPlatform.Read.QueryStrings

open LumidPlatform.Read.Exec

/-! ## What decoding is to do -/

/-- Two hexadecimal digits after a percent sign are one byte; all else is kept. -/
def unescape : Bytes → Bytes
  | 37 :: high :: low :: rest =>
    match hexPair high low with
    | some byte => byte :: unescape rest
    | none => 37 :: unescape (high :: low :: rest)
  | b :: rest => b :: unescape rest
  | [] => []

/-- A plus sign is a space. -/
def spaced (s : Str) : Str := s.map (fun c => if c = '+' then ' ' else c)

/-- The text that decoding is to give. -/
def decoded (s : Str) : Str := Text.fromUtf8Lossy (unescape (Text.utf8 (spaced s)))

/-- The slice of two bytes at the beginning of a text ends within a character. -/
def cuts : Str → Bool
  | [] => false
  | c :: rest =>
    3 ≤ c.utf8Size || (c.utf8Size == 1 && rest.head?.any (fun d => 2 ≤ d.utf8Size))

/-- After no percent sign the slice ends within a character. -/
def Safe : Str → Bool
  | [] => true
  | c :: rest => !(c == '%' && cuts rest) && Safe rest

/-- A text is safe if after none of its percent signs a character would be cut. -/
theorem safe_iff (s : Str) : Safe s = true ↔ ∀ rest, '%' :: rest <:+ s → cuts rest = false := by
  induction s with
  | nil => simp [Safe]
  | cons c rest inductionHypothesis =>
    rw [Safe, Bool.and_eq_true, inductionHypothesis]
    constructor
    · rintro ⟨here, later⟩ tail suffix
      rcases List.suffix_cons_iff.mp suffix with whole | inside
      · obtain ⟨rfl, rfl⟩ := List.cons.inj whole
        simpa using here
      · exact later tail inside
    · intro all
      refine ⟨?_, fun tail inside => all tail (inside.trans (List.suffix_cons c rest))⟩
      by_cases percent : c = '%'
      · subst percent
        simp [all rest (List.suffix_refl _)]
      · simp [percent]

/-! ## Decoding bytes -/

/-- Behind no percent sign does a third byte continue a character. -/
def SafeBytes (bytes : Bytes) : Prop :=
  ∀ high low rest, 37 :: high :: low :: rest <:+ bytes →
    rest.head?.any Text.isContinuation = false

/-- The same of bytes, the first one apart. -/
theorem safeBytes_cons {b : UInt8} {rest : Bytes} : SafeBytes (b :: rest) ↔
    (∀ high low more, b :: rest = 37 :: high :: low :: more →
      more.head?.any Text.isContinuation = false) ∧ SafeBytes rest := by
  constructor
  · intro safe
    refine ⟨fun high low more whole => ?_, fun high low more inside => ?_⟩
    · exact safe high low more (whole ▸ List.suffix_refl _)
    · exact safe high low more (inside.trans (List.suffix_cons b rest))
  · rintro ⟨here, later⟩ high low more suffix
    rcases List.suffix_cons_iff.mp suffix with whole | inside
    · exact here high low more whole.symm
    · exact later high low more inside

/-- A byte other than a percent sign is safe by itself. -/
theorem safeBytes_cons_other {b : UInt8} (other : b ≠ 37) {rest : Bytes} :
    SafeBytes (b :: rest) ↔ SafeBytes rest := by
  rw [safeBytes_cons, and_iff_right]
  exact fun high low more whole => absurd (List.cons.inj whole).1 other

/-- The percent sign is no digit. -/
theorem hexDigit_ne_percent {b : UInt8} {n : Nat} (digit : hexDigit b = some n) : b ≠ 37 := by
  rintro rfl
  cases digit

/-- So neither digit of a pair is one. -/
theorem hexPair_digits {high low byte : UInt8} (pair : hexPair high low = some byte) :
    high ≠ 37 ∧ low ≠ 37 := by
  rw [hexPair] at pair
  cases first : hexDigit high with
  | none =>
    rw [first] at pair
    cases pair
  | some h =>
    cases second : hexDigit low with
    | none =>
      rw [first, second] at pair
      cases pair
    | some l => exact ⟨hexDigit_ne_percent first, hexDigit_ne_percent second⟩

/-- A byte other than a percent sign stands for itself. -/
theorem unescape_cons {b : UInt8} (other : b ≠ 37) (rest : Bytes) :
    unescape (b :: rest) = b :: unescape rest := by
  rw [unescape.eq_2 b rest fun _ _ _ same => absurd same other]

/-- So does a percent sign without two bytes after it. -/
theorem unescape_short {rest : Bytes} (short : rest.length < 2) :
    unescape (37 :: rest) = 37 :: unescape rest := by
  cases rest with
  | nil => rfl
  | cons h more =>
    cases more with
    | nil => rfl
    | cons l others =>
      simp only [List.length_cons] at short
      omega

/-- The bytes are decoded exactly where no slice ends within a character. -/
theorem pctDecodeBytes_iff (bytes : Bytes) :
    (SafeBytes bytes → pctDecodeBytes bytes = some (unescape bytes)) ∧
      (¬SafeBytes bytes → pctDecodeBytes bytes = none) := by
  fun_induction pctDecodeBytes bytes with
  | case1 =>
    refine ⟨fun _ => rfl, fun hazard => absurd ?_ hazard⟩
    exact fun _ _ _ suffix => absurd (List.suffix_nil.mp suffix) (by simp)
  | case2 high low rest continues =>
    refine ⟨fun safe => ?_, fun _ => rfl⟩
    rw [safe high low rest (List.suffix_refl _)] at continues
    cases continues
  | case3 high low rest ends byte pair inductionHypothesis =>
    obtain ⟨highOther, lowOther⟩ := hexPair_digits pair
    have same : SafeBytes (37 :: high :: low :: rest) ↔ SafeBytes rest := by
      rw [safeBytes_cons, safeBytes_cons_other highOther, safeBytes_cons_other lowOther,
        and_iff_right]
      intro _ _ more whole
      obtain rfl : rest = more := by simpa using (List.cons.inj (List.cons.inj (List.cons.inj
        whole).2).2).2
      exact Bool.eq_false_iff.mpr ends
    rw [same, unescape, pair]
    refine ⟨fun safe => ?_, fun hazard => ?_⟩
    · rw [inductionHypothesis.1 safe]
      rfl
    · rw [inductionHypothesis.2 hazard]
      rfl
  | case4 high low rest ends pair inductionHypothesis =>
    have same : SafeBytes (37 :: high :: low :: rest) ↔ SafeBytes (high :: low :: rest) := by
      rw [safeBytes_cons, and_iff_right]
      intro _ _ more whole
      obtain rfl : rest = more := by simpa using (List.cons.inj (List.cons.inj (List.cons.inj
        whole).2).2).2
      exact Bool.eq_false_iff.mpr ends
    rw [same, unescape, pair]
    refine ⟨fun safe => ?_, fun hazard => ?_⟩
    · rw [inductionHypothesis.1 safe]
      rfl
    · rw [inductionHypothesis.2 hazard]
      rfl
  | case5 b high low rest other inductionHypothesis =>
    rw [safeBytes_cons_other other, unescape_cons other]
    refine ⟨fun safe => ?_, fun hazard => ?_⟩
    · rw [inductionHypothesis.1 safe]
      rfl
    · rw [inductionHypothesis.2 hazard]
      rfl
  | case6 b rest short inductionHypothesis =>
    have few : rest.length < 2 := by
      match rest with
      | [] => decide
      | [_] => simp
      | high :: low :: more => exact absurd rfl (short high low more)
    have same : SafeBytes (b :: rest) ↔ SafeBytes rest := by
      rw [safeBytes_cons, and_iff_right]
      intro high low more whole
      rw [(List.cons.inj whole).2] at few
      simp only [List.length_cons] at few
      omega
    have shown : unescape (b :: rest) = b :: unescape rest := by
      by_cases percent : b = 37
      · subst percent
        exact unescape_short few
      · exact unescape_cons percent rest
    rw [same, shown]
    refine ⟨fun safe => ?_, fun hazard => ?_⟩
    · rw [inductionHypothesis.1 safe]
      rfl
    · rw [inductionHypothesis.2 hazard]
      rfl

/-! ## Decoding texts -/

/-- A text does not begin inside a character. -/
theorem head_utf8 (s : Str) : (Text.utf8 s).head?.any Text.isContinuation = false := by
  cases s with
  | nil => rfl
  | cons c rest =>
    obtain ⟨lead, tail, bytes, first, -, -⟩ := Text.encode_shape c
    rw [Text.utf8_cons, bytes, List.cons_append, List.head?_cons, Option.any_some, first]

/-- The third byte of a text continues a character exactly where a slice of two bytes cuts one. -/
theorem cuts_iff (s : Str) : cuts s = false ↔
    ∀ high low rest, Text.utf8 s = high :: low :: rest →
      rest.head?.any Text.isContinuation = false := by
  cases s with
  | nil => exact iff_of_true rfl (by simp [Text.utf8])
  | cons c rest =>
    obtain ⟨lead, tail, bytes, -, follow, -⟩ := Text.encode_shape c
    have size : tail.length + 1 = c.utf8Size := by
      rw [← String.length_utf8EncodeChar, bytes, List.length_cons]
    rw [cuts, Text.utf8_cons, bytes, ← size]
    match tail with
    | [] =>
      cases rest with
      | nil => exact iff_of_true rfl (by simp [Text.utf8])
      | cons d more =>
        obtain ⟨leadNext, tailNext, bytesNext, -, followNext, -⟩ := Text.encode_shape d
        have sizeNext : tailNext.length + 1 = d.utf8Size := by
          rw [← String.length_utf8EncodeChar, bytesNext, List.length_cons]
        rw [Text.utf8_cons, bytesNext, List.head?_cons, Option.any_some, ← sizeNext]
        match tailNext with
        | [] =>
          refine iff_of_true rfl fun high low others shape => ?_
          obtain rfl := (List.cons.inj (List.cons.inj shape).2).2
          exact head_utf8 more
        | second :: later =>
          refine iff_of_false (by simp) fun all => ?_
          have ends := all lead leadNext (second :: later ++ Text.utf8 more) rfl
          rw [List.cons_append, List.head?_cons, Option.any_some,
            followNext second List.mem_cons_self] at ends
          cases ends
    | [second] =>
      refine iff_of_true (by simp) fun high low others shape => ?_
      obtain rfl := (List.cons.inj (List.cons.inj shape).2).2
      exact head_utf8 rest
    | second :: third :: later =>
      refine iff_of_false (by simp) fun all => ?_
      have ends := all lead second (third :: later ++ Text.utf8 rest) rfl
      rw [List.cons_append, List.head?_cons, Option.any_some,
        follow third (List.mem_cons_of_mem _ List.mem_cons_self)] at ends
      cases ends

/-- The percent sign is a character of its own. -/
theorem isContinuation_ne_percent {b : UInt8} (follow : Text.isContinuation b = true) :
    b ≠ 37 := by
  rintro rfl
  cases follow

/-- The later bytes of a character are safe. -/
theorem safeBytes_append_tail {tail : Bytes} (follow : ∀ b ∈ tail, Text.isContinuation b = true)
    (rest : Bytes) : SafeBytes (tail ++ rest) ↔ SafeBytes rest := by
  induction tail with
  | nil => rfl
  | cons b more inductionHypothesis =>
    rw [List.cons_append,
      safeBytes_cons_other (isContinuation_ne_percent (follow b List.mem_cons_self)),
      inductionHypothesis (fun other member => follow other (List.mem_cons_of_mem b member))]

/-- The bytes of a text are safe where the text is. -/
theorem safeBytes_utf8 (s : Str) : SafeBytes (Text.utf8 s) ↔ Safe s = true := by
  induction s with
  | nil => exact iff_of_true (fun _ _ _ suffix => absurd (List.suffix_nil.mp suffix) (by simp)) rfl
  | cons c rest inductionHypothesis =>
    obtain ⟨lead, tail, bytes, -, follow, code⟩ := Text.encode_shape c
    rw [Text.utf8_cons, bytes, List.cons_append, Safe, Bool.and_eq_true, ← inductionHypothesis]
    by_cases percent : c = '%'
    · subst percent
      have encoded : String.utf8EncodeChar '%' = [37] := rfl
      obtain ⟨rfl, rfl⟩ := List.cons.inj (bytes.symm.trans encoded)
      have here := cuts_iff rest
      rw [List.nil_append, safeBytes_cons]
      refine and_congr_left' ?_
      constructor
      · intro all
        have uncut : cuts rest = false :=
          here.mpr fun high low more shape => all high low more (by rw [shape])
        simp [uncut]
      · intro uncut high low more whole
        have ends : cuts rest = false := by simpa using uncut
        exact here.mp ends high low more (List.cons.inj whole).2
    · have other : lead ≠ 37 := by
        intro same
        have value := (code 37 (by decide)).mp same
        exact percent (Char.ext (UInt32.toNat_inj.mp value))
      rw [safeBytes_cons_other other, safeBytes_append_tail follow]
      simp [percent]

/-- A plus sign becomes a blank, which is as long. -/
theorem cuts_spaced (s : Str) : cuts (spaced s) = cuts s := by
  have size (c : Char) : (if c = '+' then ' ' else c).utf8Size = c.utf8Size := by
    split_ifs with plus
    · rw [plus]
      rfl
    · rfl
  cases s with
  | nil => rfl
  | cons c rest =>
    rw [spaced, List.map_cons, cuts, cuts, size]
    cases rest with
    | nil => rfl
    | cons d more =>
      rw [List.map_cons, List.head?_cons, List.head?_cons, Option.any_some, Option.any_some, size]

/-- So replacing plus signs changes nothing about what is safe. -/
theorem safe_spaced (s : Str) : Safe (spaced s) = Safe s := by
  induction s with
  | nil => rfl
  | cons c rest inductionHypothesis =>
    have cut := cuts_spaced rest
    rw [spaced] at cut inductionHypothesis
    rw [spaced, List.map_cons, Safe, Safe, cut, inductionHypothesis]
    by_cases plus : c = '+'
    · subst plus
      rfl
    · rw [if_neg plus]

/-- A text is decoded exactly where it is safe; elsewhere a slice panics. -/
theorem pctDecode_eq (s : Str) : pctDecode s = if Safe s then some (decoded s) else none := by
  have bytes := pctDecodeBytes_iff (Text.utf8 (spaced s))
  rw [safeBytes_utf8, safe_spaced] at bytes
  have shape : pctDecode s =
      (pctDecodeBytes (Text.utf8 (spaced s))).map Text.fromUtf8Lossy := rfl
  rw [shape]
  by_cases safe : Safe s = true
  · rw [if_pos safe, bytes.1 safe]
    rfl
  · rw [if_neg safe, bytes.2 safe]
    rfl

/-! ## Encoders -/

/-- A hexadecimal digit, in either case. -/
def isHex (c : Char) : Bool :=
  Text.isAsciiDigit c || ('a' ≤ c && c ≤ 'f') || ('A' ≤ c && c ≤ 'F')

/-- The byte of an ASCII character. -/
def charByte (c : Char) : UInt8 := UInt8.ofNat c.toNat

/-- How an encoder may write a byte: as the character that it is, but for four marks and what is
not ASCII; as a percent sign and two digits; and a space as a plus sign. -/
inductive Form : UInt8 → Str → Prop where
  | raw (c : Char) (ascii : c.toNat < 128) (plain : c ∉ "%&=+".str) : Form (charByte c) [c]
  | escaped (byte : UInt8) (high low : Char) (digits : isHex high = true ∧ isHex low = true)
      (pair : hexPair (charByte high) (charByte low) = some byte) : Form byte ['%', high, low]
  | space : Form 32 ['+']

/-- How it may write bytes. -/
inductive Encodes : Bytes → Str → Prop where
  | nil : Encodes [] []
  | cons {byte : UInt8} {form : Str} {rest : Bytes} {text : Str} (first : Form byte form)
      (later : Encodes rest text) : Encodes (byte :: rest) (form ++ text)

/-- How it may write a pair. -/
def EncodesPair (pair : Str × Str) (text : Str) : Prop :=
  ∃ name value, Encodes (Text.utf8 pair.1) name ∧ Encodes (Text.utf8 pair.2) value ∧
    text = name ++ '=' :: value

/-- How it may write a query. -/
def EncodesQuery (pairs : List (Str × Str)) (query : Str) : Prop :=
  ∃ texts, List.Forall₂ EncodesPair pairs texts ∧ query = Text.join ['&'] texts

/-- The digits are ASCII characters, and none of those with a meaning. -/
theorem isHex_ascii {c : Char} (hex : isHex c = true) : c.toNat < 128 ∧ c ∉ "%&=+".str := by
  have bound (low high : Char) (small : high.toNat < 128) (inside : low ≤ c ∧ c ≤ high) :
      c.toNat < 128 := Nat.lt_of_le_of_lt inside.2 small
  have ranges := hex
  simp only [isHex, Text.isAsciiDigit, Bool.or_eq_true, Bool.and_eq_true, decide_eq_true_eq]
    at ranges
  refine ⟨?_, fun mark => ?_⟩
  · rcases ranges with (digit | lower) | upper
    · omega
    · exact bound 'a' 'f' (by decide) lower
    · exact bound 'A' 'F' (by decide) upper
  · have none : "%&=+".str.all (fun d => !isHex d) = true := by decide
    have marks : ∀ d ∈ "%&=+".str, isHex d = false := fun d mark => by
      simpa using List.all_eq_true.mp none d mark
    rw [marks c mark] at hex
    cases hex

/-- So are the characters that a byte is written with. -/
theorem form_ascii {byte : UInt8} {form : Str} (written : Form byte form) :
    ∀ c ∈ form, c.toNat < 128 ∧ c ≠ '&' ∧ c ≠ '=' := by
  have plain {c : Char} (other : c ∉ "%&=+".str) : c ≠ '&' ∧ c ≠ '=' :=
    ⟨fun same => other (same ▸ by decide), fun same => other (same ▸ by decide)⟩
  cases written with
  | raw c ascii other => exact List.forall_mem_singleton.mpr ⟨ascii, plain other⟩
  | escaped byte high low digits pair =>
    have first := isHex_ascii digits.1
    have second := isHex_ascii digits.2
    exact List.forall_mem_cons.mpr ⟨by decide, List.forall_mem_cons.mpr
      ⟨⟨first.1, plain first.2⟩, List.forall_mem_singleton.mpr ⟨second.1, plain second.2⟩⟩⟩
  | space => exact List.forall_mem_singleton.mpr (by decide)

/-- So are those of an encoded text. -/
theorem encodes_ascii {bytes : Bytes} {text : Str} (written : Encodes bytes text) :
    ∀ c ∈ text, c.toNat < 128 ∧ c ≠ '&' ∧ c ≠ '=' := by
  induction written with
  | nil => simp
  | cons first later inductionHypothesis =>
    intro c member
    rcases List.mem_append.mp member with here | there
    · exact form_ascii first c here
    · exact inductionHypothesis c there

/-- An ASCII text is safe: no character of it has several bytes. -/
theorem safe_ascii {s : Str} (ascii : ∀ c ∈ s, c.toNat < 128) : Safe s = true := by
  have size (c : Char) (member : c ∈ s) : c.utf8Size = 1 := by
    rw [← String.length_utf8EncodeChar, Text.utf8EncodeChar_ascii (ascii c member)]
    rfl
  rw [safe_iff]
  intro rest suffix
  have inside (c : Char) (member : c ∈ rest) : c ∈ s :=
    suffix.subset (List.mem_cons_of_mem _ member)
  cases rest with
  | nil => rfl
  | cons c more =>
    have first := size c (inside c List.mem_cons_self)
    cases more with
    | nil => simp [cuts, first]
    | cons d others =>
      have second := size d (inside d (List.mem_cons_of_mem _ List.mem_cons_self))
      simp [cuts, first, second]

/-- What was written for a byte is read as that byte. -/
theorem unescape_form {byte : UInt8} {form : Str} (written : Form byte form) (rest : Bytes) :
    unescape (Text.utf8 (spaced form) ++ rest) = byte :: unescape rest := by
  cases written with
  | raw c ascii plain =>
    have notPlus : c ≠ '+' := fun same => plain (same ▸ by decide)
    have notPercent : charByte c ≠ 37 := by
      intro same
      have value := congrArg UInt8.toNat same
      rw [charByte, Text.toNat_byte (by omega)] at value
      have percent : c = '%' := Char.ext (UInt32.toNat_inj.mp value)
      exact plain (percent ▸ by decide)
    have shown : Text.utf8 (spaced [c]) = [charByte c] := by
      rw [spaced, List.map_singleton, if_neg notPlus, Text.utf8, List.flatMap_singleton,
        Text.utf8EncodeChar_ascii ascii]
      rfl
    rw [shown, List.singleton_append, unescape_cons notPercent]
  | escaped byte high low digits pair =>
    have first := isHex_ascii digits.1
    have second := isHex_ascii digits.2
    have highPlus : high ≠ '+' := fun same => first.2 (same ▸ by decide)
    have lowPlus : low ≠ '+' := fun same => second.2 (same ▸ by decide)
    have shown : Text.utf8 (spaced ['%', high, low]) = [37, charByte high, charByte low] := by
      rw [spaced, List.map_cons, List.map_cons, List.map_singleton, if_neg (by decide),
        if_neg highPlus, if_neg lowPlus, Text.utf8_cons, Text.utf8_cons, Text.utf8_cons,
        Text.utf8EncodeChar_ascii first.1, Text.utf8EncodeChar_ascii second.1]
      rfl
    rw [shown, List.cons_append, List.cons_append, List.singleton_append, unescape, pair]
  | space =>
    have shown : Text.utf8 (spaced ['+']) = [32] := rfl
    rw [shown, List.singleton_append, unescape_cons (by decide)]

/-- An encoded text is read as the bytes that it stands for. -/
theorem unescape_encodes {bytes : Bytes} {text : Str} (written : Encodes bytes text) :
    unescape (Text.utf8 (spaced text)) = bytes := by
  induction written with
  | nil => rfl
  | cons first later inductionHypothesis =>
    rw [spaced, List.map_append, Text.utf8_append, ← spaced, ← spaced, unescape_form first,
      inductionHypothesis]

/-- A text that was encoded is read back. -/
theorem pctDecode_encodes {s text : Str} (written : Encodes (Text.utf8 s) text) :
    pctDecode text = some s := by
  rw [pctDecode_eq, if_pos (safe_ascii fun c member => (encodes_ascii written c member).1),
    decoded, unescape_encodes written, Text.fromUtf8Lossy_utf8_self]

/-! ## Queries -/

/-- A text is split at the first of its signs. -/
theorem splitOnce_append {c : Char} {front : Str} (absent : c ∉ front) (back : Str) :
    Text.splitOnce c (front ++ c :: back) = some (front, back) := by
  induction front with
  | nil => rw [List.nil_append, Text.splitOnce, if_pos rfl]
  | cons d rest inductionHypothesis =>
    rw [List.mem_cons, not_or] at absent
    rw [List.cons_append, Text.splitOnce, if_neg (Ne.symm absent.1),
      inductionHypothesis absent.2]
    rfl

/-- A pair that is encoded is read as itself. -/
theorem parsePair_encodes {pair : Str × Str} {text : Str} (written : EncodesPair pair text) :
    parsePair text = some pair ∧ '&' ∉ text ∧ text.isEmpty = false := by
  obtain ⟨name, value, first, second, rfl⟩ := written
  have absent : '=' ∉ name := fun member => (encodes_ascii first _ member).2.2 rfl
  refine ⟨?_, ?_, by simp⟩
  · rw [parsePair, splitOnce_append absent, Option.getD_some]
    simp only [pctDecode_encodes first, pctDecode_encodes second]
  · rw [List.mem_append, List.mem_cons]
    rintro (inName | sign | inValue)
    · exact (encodes_ascii first _ inName).2.1 rfl
    · exact absurd sign (by decide)
    · exact (encodes_ascii second _ inValue).2.1 rfl

/-- A query that was encoded is cut into its pairs. -/
theorem parseQuery_encodes {pairs : List (Str × Str)} {query : Str}
    (written : EncodesQuery pairs query) : parseQuery (some query) = some (mapOf pairs) := by
  obtain ⟨texts, each, rfl⟩ := written
  have plain : ∀ text ∈ texts, '&' ∉ text ∧ text.isEmpty = false := by
    induction each with
    | nil => simp
    | cons first later inductionHypothesis =>
      exact List.forall_mem_cons.mpr ⟨(parsePair_encodes first).2, inductionHypothesis⟩
  have parsed : texts.mapM parsePair = some pairs := by
    induction each with
    | nil => rfl
    | cons first later inductionHypothesis =>
      rw [List.mapM_cons, (parsePair_encodes first).1, inductionHypothesis fun text member =>
        plain text (List.mem_cons_of_mem _ member)]
      rfl
  have parts : ((Text.join ['&'] texts).splitOn '&').filter (fun pair => !pair.isEmpty) =
      texts := by
    by_cases none : texts = []
    · subst none
      rfl
    · rw [Text.join, List.splitOn_intercalate '&' (fun text member => (plain text member).1) none]
      exact List.filter_eq_self.mpr fun text member => by simp [(plain text member).2]
  rw [parseQuery, parts, parsed]
  rfl

/-- Names that are told apart keep their values. -/
theorem lookup_mapOf {pairs : List (Str × Str)} (distinct : (pairs.map Prod.fst).Nodup)
    {name value : Str} : (mapOf pairs).lookup name = some value ↔ (name, value) ∈ pairs := by
  induction pairs using List.reverseRecOn with
  | nil => simp [mapOf, AList.lookup_empty]
  | append_singleton before pair inductionHypothesis =>
    rw [List.map_append, List.nodup_append] at distinct
    have step : mapOf (before ++ [pair]) = (mapOf before).insert pair.1 pair.2 := by
      rw [mapOf, List.foldl_append]
      rfl
    have fresh : ∀ other ∈ before, other.1 ≠ pair.1 := fun other member =>
      distinct.2.2 _ (List.mem_map_of_mem member) _ List.mem_cons_self
    rw [step, List.mem_append, List.mem_singleton]
    by_cases same : name = pair.1
    · subst same
      have absent : (pair.1, value) ∉ before := fun member => fresh _ member rfl
      rw [AList.lookup_insert, Option.some.injEq, or_iff_right absent]
      exact ⟨fun value => value ▸ rfl, fun whole => (congrArg Prod.snd whole).symm⟩
    · rw [AList.lookup_insert_ne same, inductionHypothesis distinct.1, or_iff_left]
      exact fun whole => same (congrArg Prod.fst whole)

/-- Every encoded query is read back, and a text is decoded, with all that is malformed kept,
exactly where no percent sign is followed by a character of three or four bytes, or by one of
one byte and then one of more. -/
theorem decoding_iff (pairs : List (Str × Str)) (query s : Str) :
    ((pairs.map Prod.fst).Nodup → EncodesQuery pairs query →
      ∃ map, parseQuery (some query) = some map ∧
        ∀ name value, map.lookup name = some value ↔ (name, value) ∈ pairs) ∧
      (pctDecode s = some (decoded s) ↔ Safe s = true) := by
  constructor
  · intro distinct written
    exact ⟨_, parseQuery_encodes written, fun name value => lookup_mapOf distinct⟩
  · rw [pctDecode_eq]
    by_cases safe : Safe s = true
    · rw [if_pos safe]
      exact iff_of_true rfl safe
    · rw [if_neg safe]
      exact iff_of_false nofun safe

/-- A percent sign before a character of three bytes panics. -/
theorem percent_euro_panics : ¬∀ s, pctDecode s = some (decoded s) := by
  intro all
  have panics : pctDecode "%€".str = none :=
    Option.isNone_iff_eq_none.mp (by decide +kernel)
  have returns := all "%€".str
  rw [panics] at returns
  cases returns

end LumidPlatform.Read.QueryStrings
