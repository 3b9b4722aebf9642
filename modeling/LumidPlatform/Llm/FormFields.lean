import LumidPlatform.Utf8
import LumidPlatform.Lib.Multipart
import LumidPlatform.Llm.Dispatch

/-!
# The model of a transcription

A transcription names its model in a form field. The handler looks for the name as bytes,
wherever they are, and reads one line after the next blank line. So it reads the field
exactly when the first mention of the name is followed by no blank line ahead of the one
that begins the field's value, and when the value is one line of text.
-/

namespace LumidPlatform.Llm.FormFields

open Multipart

/-! ## Cutting at a mark -/

/-- A cut is at the first place of the mark. -/
theorem cutAt_first {mark bytes ahead tail : Bytes}
    (cut : cutAt mark bytes = some (ahead, tail)) :
    bytes = ahead ++ mark ++ tail ∧ First mark ahead := by
  induction bytes generalizing ahead with
  | nil => cases cut
  | cons byte rest inductionHypothesis =>
    rw [cutAt] at cut
    by_cases starts : mark.isPrefixOf (byte :: rest)
    · rw [if_pos starts] at cut
      obtain ⟨rfl, rfl⟩ := Prod.mk.inj (Option.some.inj cut)
      obtain ⟨more, whole⟩ := List.isPrefixOf_iff_prefix.mp starts
      refine ⟨?_, First.nil⟩
      rw [← whole, List.drop_left, List.nil_append]
    · rw [if_neg starts] at cut
      obtain ⟨⟨later, after⟩, found, parts⟩ := Option.map_eq_some_iff.mp cut
      obtain ⟨rfl, rfl⟩ := Prod.mk.inj parts
      obtain ⟨whole, first⟩ := inductionHypothesis found
      refine ⟨by rw [whole]; rfl, first.cons (fun begins => starts ?_)⟩
      refine List.isPrefixOf_iff_prefix.mpr (begins.trans ?_)
      rw [whole]
      exact List.prefix_append (byte :: (later ++ mark)) after

/-- A mark that is there is found. -/
theorem cutAt_isSome {mark ahead tail : Bytes} (nonempty : mark ≠ []) :
    (cutAt mark (ahead ++ mark ++ tail)).isSome := by
  induction ahead with
  | nil =>
    obtain ⟨byte, rest, rfl⟩ := List.exists_cons_of_ne_nil nonempty
    have starts : (byte :: rest).isPrefixOf (byte :: (rest ++ tail)) = true :=
      List.isPrefixOf_iff_prefix.mpr (List.prefix_append (byte :: rest) tail)
    simp only [List.nil_append, List.cons_append, cutAt, if_pos starts, Option.isSome_some]
  | cons byte more inductionHypothesis =>
    simp only [List.cons_append, cutAt]
    split_ifs with starts
    · rfl
    · simpa using inductionHypothesis

/-- What is found is the first one. -/
theorem cutAt_eq_some_iff {mark bytes ahead tail : Bytes} (nonempty : mark ≠ []) :
    cutAt mark bytes = some (ahead, tail) ↔ bytes = ahead ++ mark ++ tail ∧ First mark ahead := by
  refine ⟨cutAt_first, fun ⟨whole, first⟩ => ?_⟩
  obtain ⟨⟨front, back⟩, cut⟩ := Option.isSome_iff_exists.mp (whole ▸ cutAt_isSome nonempty)
  obtain ⟨other, firstOther⟩ := cutAt_first cut
  obtain ⟨rfl, rfl⟩ := first.unique firstOther (whole.symm.trans other)
  exact cut

/-! ## Where the value is read -/

/-- What the scan looks for. -/
def mention : Bytes := Text.utf8 "name=\"model\"".str

/-- What ends the headers of a part. -/
def blankLine : Bytes := Text.utf8 "\r\n\r\n".str

/-- What follows the first blank line after the first mention. -/
def valueFrom (body : Bytes) : Option Bytes :=
  (cutAt mention body).bind (fun named => (cutAt blankLine named.2).map Prod.snd)

/-- The text that is read there, up to the end of the line. -/
def lineRead (tail : Bytes) : Option Str :=
  (cutAt crlf tail).bind (fun value =>
    ((Text.fromUtf8 value.1).map Text.trim).filter (fun s => !s.isEmpty))

/-- The scan in two steps: up to the value, and along its line. -/
theorem multipartModel_eq (body : Bytes) :
    multipartModel body = (valueFrom body).bind lineRead := by
  unfold multipartModel valueFrom
  rw [Option.bind_assoc]
  congr 1
  funext named
  rw [Option.bind_map]
  rfl

/-- The bytes have a mention of the name, and the first blank line after the first
mention is their end. -/
def EndsNamed (bytes : Bytes) : Prop :=
  ∃ front between, bytes = front ++ mention ++ between ++ blankLine ∧
    First mention front ∧ First blankLine between

/-- The value is read at a place exactly when the bytes ahead of it end the search. -/
theorem valueFrom_iff (ahead tail : Bytes) :
    valueFrom (ahead ++ tail) = some tail ↔ EndsNamed ahead := by
  constructor
  · intro found
    obtain ⟨⟨front, rest⟩, named, headed⟩ := Option.bind_eq_some_iff.mp found
    obtain ⟨⟨between, value⟩, blank, same⟩ := Option.map_eq_some_iff.mp headed
    obtain rfl : value = tail := same
    obtain ⟨whole, first⟩ := cutAt_first named
    obtain ⟨split, firstBlank⟩ := cutAt_first blank
    refine ⟨front, between, ?_, first, firstBlank⟩
    have both : ahead ++ value = front ++ mention ++ between ++ blankLine ++ value := by
      rw [whole]
      dsimp only at split
      rw [split]
      simp only [List.append_assoc]
    exact List.append_cancel_right both
  · rintro ⟨front, between, rfl, first, firstBlank⟩
    have named : cutAt mention (front ++ mention ++ between ++ blankLine ++ tail) =
        some (front, between ++ blankLine ++ tail) :=
      (cutAt_eq_some_iff (by decide)).mpr ⟨by simp only [List.append_assoc], first⟩
    have blank : cutAt blankLine (between ++ blankLine ++ tail) = some (between, tail) :=
      (cutAt_eq_some_iff (by decide)).mpr ⟨rfl, firstBlank⟩
    rw [valueFrom, named, Option.bind_some, blank]
    rfl

/-! ## What the line says -/

/-- A text up to its first line break, and the rest from there on. -/
def lines : Str → Str × Str
  | [] => ([], [])
  | '\r' :: '\n' :: rest => ([], '\r' :: '\n' :: rest)
  | c :: rest => (c :: (lines rest).1, (lines rest).2)

/-- A line and the rest are the text. -/
theorem lines_eq (text : Str) : (lines text).1 ++ (lines text).2 = text := by
  fun_induction lines text with
  | case1 => rfl
  | case2 rest => rfl
  | case3 c rest _ inductionHypothesis => rw [List.cons_append, inductionHypothesis]

/-- The rest is empty, or begins with the break. -/
theorem lines_rest (text : Str) :
    (lines text).2 = [] ∨ ∃ rest, (lines text).2 = '\r' :: '\n' :: rest := by
  fun_induction lines text with
  | case1 => exact .inl rfl
  | case2 rest => exact .inr ⟨rest, rfl⟩
  | case3 c rest _ inductionHypothesis => exact inductionHypothesis

/-- Only the character itself has the byte of an ASCII character. -/
theorem byte_ne {c d : Char} (ascii : d.toNat < 128) (other : c ≠ d) :
    ∀ b ∈ String.utf8EncodeChar c, b ≠ UInt8.ofNat d.toNat := by
  obtain ⟨lead, tail, bytes, _, continued, begins⟩ := Text.encode_shape c
  rw [bytes]
  intro b member same
  rcases List.mem_cons.mp member with rfl | inTail
  · exact other (Char.ext (UInt32.toNat_inj.mp ((begins d.toNat ascii).mp same)))
  · have low := Text.not_continuation_byte (n := d.toNat) (.inl ascii) (by omega)
    rw [← same, continued b inTail] at low
    cases low

/-- The bytes of the first line have no line break, and none ends in them and the next. -/
theorem first_line (text : Str) : First crlf (Text.utf8 (lines text).1) := by
  fun_induction lines text with
  | case1 => exact First.nil
  | case2 rest => exact First.nil
  | case3 c rest unbroken inductionHypothesis =>
    rw [Text.utf8_cons]
    by_cases carriage : c = '\r'
    · subst carriage
      refine inductionHypothesis.cons (fun begins => ?_)
      have next := (List.cons_prefix_cons.mp begins).2
      cases line : (lines rest).1 with
      | nil =>
        rw [line] at next
        exact absurd next (by decide)
      | cons d more =>
        have newline : d = '\n' := by
          by_contra other
          obtain ⟨lead, tail, bytes, _⟩ := Text.encode_shape d
          have differs := byte_ne (d := '\n') (by decide) other lead
            (by rw [bytes]; exact List.mem_cons_self)
          rw [line, Text.utf8_cons, bytes] at next
          exact differs (List.cons_prefix_cons.mp next).1.symm
        have whole := lines_eq rest
        rw [line, newline, List.cons_append] at whole
        exact unbroken _ rfl whole.symm
    · exact inductionHypothesis.append_left
        (fun member => byte_ne (d := '\r') (by decide) carriage 13 member rfl)

/-- A text followed by a line break is cut after its first line. -/
theorem cutAt_lines (text : Str) (rest : Bytes) :
    ∃ tail, cutAt crlf (Text.utf8 text ++ (crlf ++ rest)) =
      some (Text.utf8 (lines text).1, tail) := by
  have whole := congrArg Text.utf8 (lines_eq text)
  rw [Text.utf8_append] at whole
  rcases lines_rest text with last | ⟨more, broken⟩
  · refine ⟨rest, (cutAt_eq_some_iff (by decide)).mpr ⟨?_, first_line text⟩⟩
    rw [← whole, last, show Text.utf8 [] = [] from rfl, List.append_nil, List.append_assoc]
  · refine ⟨Text.utf8 more ++ (crlf ++ rest),
      (cutAt_eq_some_iff (by decide)).mpr ⟨?_, first_line text⟩⟩
    rw [← whole, broken, List.append_assoc, List.append_assoc]
    rfl

/-- How many characters of a text are no white space. -/
def visible (text : Str) : Nat := text.countP (fun c => !Text.isWhitespace c)

/-- White space in front has nothing that can be seen. -/
theorem visible_dropWhile (text : Str) :
    visible (text.dropWhile Text.isWhitespace) = visible text := by
  have dropped : (text.takeWhile Text.isWhitespace).countP (fun c => !Text.isWhitespace c) = 0 :=
    List.countP_eq_zero.mpr (fun c member => by simp [List.mem_takeWhile_imp member])
  have whole := congrArg visible
    (List.takeWhile_append_dropWhile (p := Text.isWhitespace) (l := text))
  unfold visible at whole ⊢
  rw [List.countP_append, dropped] at whole
  omega

/-- Nor has it behind. -/
theorem visible_trim (text : Str) : visible (Text.trim text) = visible text := by
  have reversed (s : Str) : visible s.reverse = visible s := List.countP_reverse
  rw [Text.trim, Text.trimEnd, reversed, visible_dropWhile, reversed, Text.trimStart,
    visible_dropWhile]

/-- Blank text at the end is trimmed away. -/
theorem trim_append_blank (text : Str) {rest : Str}
    (blank : ∀ c ∈ rest, Text.isWhitespace c = true) :
    Text.trim (text ++ rest) = Text.trim text := by
  unfold Text.trim Text.trimStart Text.trimEnd
  rw [List.dropWhile_append]
  split_ifs with empty
  · rw [List.isEmpty_iff.mp empty, List.dropWhile_eq_nil_iff.mpr blank]
  · rw [List.reverse_append, List.dropWhile_append_of_pos (by simpa using blank)]

/-- The first line trims to what the whole text does exactly when the others are blank. -/
theorem trim_lines_iff (text : Str) :
    Text.trim (lines text).1 = Text.trim text ↔
      ∀ c ∈ (lines text).2, Text.isWhitespace c = true := by
  constructor
  · intro same
    have counts := congrArg visible same
    rw [visible_trim, visible_trim] at counts
    have whole := congrArg visible (lines_eq text)
    unfold visible at counts whole
    rw [List.countP_append] at whole
    have none : (lines text).2.countP (fun c => !Text.isWhitespace c) = 0 := by omega
    intro c member
    simpa using List.countP_eq_zero.mp none c member
  · intro blank
    calc Text.trim (lines text).1 = Text.trim ((lines text).1 ++ (lines text).2) :=
          (trim_append_blank (lines text).1 blank).symm
      _ = Text.trim text := by rw [lines_eq]

/-- What is read as UTF-8 is the encoding of its text. -/
theorem fromUtf8_eq_some_iff {bytes : Bytes} {text : Str} :
    Text.fromUtf8 bytes = some text ↔ bytes = Text.utf8 text := by
  unfold Text.fromUtf8
  constructor
  · intro read
    split_ifs at read with whole
    rw [← Option.some.inj read, whole]
  · rintro rfl
    rw [Text.fromUtf8Lossy_utf8_self, if_pos rfl]

/-- A first line that is not blank, and only blank ones after it. -/
structure OneLine (text : Str) : Prop where
  first : Text.trim (lines text).1 ≠ []
  others : ∀ c ∈ (lines text).2, Text.isWhitespace c = true

/-- A value is read back, up to white space around it, if it is on one line. -/
theorem lineRead_iff (text : Str) (rest : Bytes) :
    lineRead (Text.utf8 text ++ (crlf ++ rest)) = some (Text.trim text) ↔ OneLine text := by
  obtain ⟨tail, cut⟩ := cutAt_lines text rest
  rw [lineRead, cut, Option.bind_some, fromUtf8_eq_some_iff.mpr rfl, Option.map_some,
    Option.filter_some]
  constructor
  · intro read
    split_ifs at read with visible
    have same := Option.some.inj read
    exact ⟨by simpa using visible, (trim_lines_iff text).mp same⟩
  · intro line
    have same := (trim_lines_iff text).mpr line.others
    rw [if_pos (by simpa using line.first), same]

/-! ## The law -/

/-- The model is the text of the field, without the white space around it, and it is read
from the content of the field's part. -/
structure ReadsField {form : Form} (field : Field form (ascii "model")) : Prop where
  source : valueFrom form.encode = some (field.part.content ++ (crlf ++ field.after))
  returned : ∃ text, Text.fromUtf8 field.part.content = some text ∧
    multipartModel form.encode = some (Text.trim text)

/-- Ahead of the field's content the last blank line is the first one after the first
mention of the name, and the content is one line of text. -/
structure Legible {form : Form} (field : Field form (ascii "model")) : Prop where
  mentioned : EndsNamed field.ahead
  line : ∃ text, field.part.content = Text.utf8 text ∧ OneLine text

/-- The field is what routes a form exactly when the search for its name ends at its
headers and its value is one line of text. -/
theorem readsField_iff {form : Form} (field : Field form (ascii "model")) :
    ReadsField field ↔ Legible field := by
  have source : valueFrom form.encode = some (field.part.content ++ (crlf ++ field.after)) ↔
      EndsNamed field.ahead := by
    rw [field.encode_eq]
    exact valueFrom_iff field.ahead _
  constructor
  · rintro ⟨found, text, decoded, returned⟩
    refine ⟨source.mp found, text, fromUtf8_eq_some_iff.mp decoded, ?_⟩
    rw [multipartModel_eq, found, Option.bind_some, fromUtf8_eq_some_iff.mp decoded] at returned
    exact (lineRead_iff text field.after).mp returned
  · rintro ⟨mentioned, text, content, line⟩
    refine ⟨source.mpr mentioned, text, fromUtf8_eq_some_iff.mpr content, ?_⟩
    rw [multipartModel_eq, source.mpr mentioned, Option.bind_some, content]
    exact (lineRead_iff text field.after).mpr line

/-! ## Ordinary forms -/

/-- A name that the headers of the field's part mention, and that nothing ahead of it does,
ends the search at these headers. -/
theorem endsNamed_of_headers {form : Form} {field : Field form (ascii "model")}
    {front rest : Bytes} (headed : field.part.headers ≠ [])
    (mentioned : field.part.head = front ++ mention ++ rest)
    (first : First mention
      (form.opening ++ field.earlier.flatMap form.block ++ crlf ++ front)) :
    EndsNamed field.ahead := by
  obtain ⟨lines, split, blank⟩ := Part.head_eq headed
  have inside : ∃ between, lines = front ++ mention ++ between := by
    rcases List.append_eq_append_iff.mp (mentioned.symm.trans split) with
      ⟨between, whole, _⟩ | ⟨cut, whole, overlap⟩
    · exact ⟨between, whole⟩
    · -- the last byte of the mention is a quote, which is in no blank line
      cases cut with
      | nil => exact ⟨[], by rw [List.append_nil] at whole ⊢; exact whole.symm⟩
      | cons b more =>
        have quote : (34 : UInt8) ∈ b :: more := by
          have ends := congrArg List.getLast? whole
          rw [List.getLast?_append_of_ne_nil front (by decide : mention ≠ []),
            List.getLast?_append_of_ne_nil lines (List.cons_ne_nil b more)] at ends
          exact List.mem_of_getLast? (ends.symm.trans (by decide))
        exact absurd (overlap ▸ List.mem_append_left rest quote) (by decide)
  obtain ⟨between, rfl⟩ := inside
  refine ⟨form.opening ++ field.earlier.flatMap form.block ++ crlf ++ front, between, ?_, first,
    blank.of_append⟩
  rw [Field.ahead, split]
  simp only [List.append_assoc]
  rfl

/-! ## A recording and its model -/

/-- The boundary of the examples. -/
def boundary : Boundary :=
  ⟨ascii "xYz", by decide, List.all_eq_true.mp (by decide), by decide⟩

/-- A header line. -/
def header (text : String) (nonempty : ascii text ≠ []) (unbroken : 13 ∉ ascii text) : Line :=
  ⟨ascii text, nonempty, unbroken⟩

/-- The recorded file. -/
def recording : Part :=
  ⟨[header "Content-Disposition: form-data; name=\"file\"; filename=\"talk.wav\"" (by decide)
    (by decide), header "Content-Type: audio/wav" (by decide) (by decide)], ascii "RIFF"⟩

/-- The part with the model's name. -/
def modelPart : Part :=
  ⟨[header "Content-Disposition: form-data; name=\"model\"" (by decide) (by decide)],
    ascii "whisper-1"⟩

/-- A form as a client sends it: the recording, then the model. -/
def transcription : Form :=
  { boundary := boundary
    preamble := none
    parts := [recording, modelPart]
    epilogue := none
    apart := by decide +kernel
    apartAhead := nofun }

/-- Its field. -/
def transcriptionField : Field transcription (ascii "model") :=
  { earlier := [recording]
    part := modelPart
    later := []
    parts_eq := rfl
    named := by decide +kernel
    first := by decide +kernel }

/-- Of an ordinary form the field is read. -/
theorem transcription_legible : Legible transcriptionField ∧
    multipartModel transcription.encode = some "whisper-1".str := by
  have read : multipartModel transcription.encode = some "whisper-1".str := by decide +kernel
  exact ⟨(readsField_iff transcriptionField).mp
    ⟨by decide +kernel, "whisper-1".str, by decide +kernel, read⟩, read⟩

/-! ## A file that is called like the field -/

/-- A file that is named like the field. -/
def filePart : Part :=
  ⟨[header "Content-Disposition: form-data; name=\"file\"; filename=\"model\"" (by decide)
    (by decide)], ascii "RIFF"⟩

/-- A form with that file in front. -/
def upload : Form :=
  { boundary := boundary
    preamble := none
    parts := [filePart, modelPart]
    epilogue := none
    apart := by decide +kernel
    apartAhead := nofun }

/-- Its field. -/
def uploadField : Field upload (ascii "model") :=
  { earlier := [filePart]
    part := modelPart
    later := []
    parts_eq := rfl
    named := by decide +kernel
    first := by decide +kernel }

/-- The file is taken for the model. -/
theorem file_named_model_read :
    multipartModel upload.encode = some "RIFF".str ∧ ¬ReadsField uploadField := by
  have read : multipartModel upload.encode = some "RIFF".str := by decide +kernel
  refine ⟨read, fun reads => ?_⟩
  obtain ⟨text, decoded, returned⟩ := reads.returned
  have content : Text.fromUtf8 modelPart.content = some "whisper-1".str := by decide +kernel
  obtain rfl := Option.some.inj (content.symm.trans decoded)
  exact absurd (read.symm.trans returned) (by decide +kernel)

end LumidPlatform.Llm.FormFields
