import Mathlib.Data.List.Infix
import Mathlib.Data.List.TakeWhile

/-!
# Multipart forms

How a form is written as one body: parts between delimiter lines, each with its header
lines, a blank line and its content. What is written has one reading, since a delimiter
stands nowhere inside a part. A part has the name that its disposition header gives it.
-/

namespace Multipart

/-! ## First places -/

section FirstPlaces

variable {α : Type} {mark ahead tail other rest : List α}

/-- The mark after these symbols is the first one: none ends earlier. -/
def First (mark ahead : List α) : Prop :=
  ∀ front back, ahead ++ mark = front ++ mark ++ back → back = []

/-- Nothing stands ahead of what begins with the mark. -/
theorem First.nil : First mark [] := by
  intro front back same
  have lengths := congrArg List.length same
  simp only [List.nil_append, List.length_append] at lengths
  exact List.eq_nil_of_length_eq_zero (by omega)

/-- A symbol more leaves the first place where it was, unless the mark begins there. -/
theorem First.cons {symbol : α} (first : First mark ahead)
    (absent : ¬mark <+: symbol :: (ahead ++ mark)) : First mark (symbol :: ahead) := by
  intro front back same
  cases front with
  | nil => exact absurd ⟨back, same.symm⟩ absent
  | cons other more => exact first more back (List.cons.inj same).2

/-- Symbols other than the first one of the mark leave its first place where it was. -/
theorem First.append_left {lead : α} {more front : List α} (first : First (lead :: more) ahead)
    (absent : lead ∉ front) : First (lead :: more) (front ++ ahead) := by
  induction front with
  | nil => exact first
  | cons symbol front inductionHypothesis =>
    have others := inductionHypothesis (fun member => absent (List.mem_cons_of_mem symbol member))
    refine others.cons (fun begins => absent ?_)
    exact (List.cons_prefix_cons.mp begins).1 ▸ List.mem_cons_self

/-- What comes first in a text comes first in its end. -/
theorem First.of_append {front : List α} (first : First mark (front ++ ahead)) :
    First mark ahead := by
  intro before back same
  refine first (front ++ before) back ?_
  rw [List.append_assoc, same]
  simp only [List.append_assoc]

/-- The first place is the same in every reading. -/
theorem First.unique (first : First mark ahead) (firstOther : First mark other)
    (same : ahead ++ mark ++ tail = other ++ mark ++ rest) : ahead = other ∧ tail = rest := by
  have meet : ahead ++ mark = other ++ mark := by
    rcases List.append_eq_append_iff.mp same with ⟨back, longer, _⟩ | ⟨back, longer, _⟩
    · rw [firstOther ahead back longer, List.append_nil] at longer
      exact longer.symm
    · rw [first other back longer, List.append_nil] at longer
      exact longer
  have equal := List.append_cancel_right meet
  subst equal
  exact ⟨rfl, List.append_cancel_left same⟩

/-- A mark whose first symbol does not come again in it overlaps no other. So the mark after
symbols that do not have it is the first. -/
theorem First.of_absent {lead : α} {more : List α} (once : lead ∉ more)
    (absent : ¬(lead :: more) <:+: ahead) : First (lead :: more) ahead := by
  intro front back same
  rcases List.append_eq_append_iff.mp same with ⟨cut, longer, split⟩ | ⟨cut, longer, _⟩
  · cases cut with
    | nil =>
      rw [List.append_nil] at longer
      exact absurd ⟨front, [], by rw [List.append_nil, longer]⟩ absent
    | cons symbol inside =>
      obtain ⟨rfl, _⟩ := List.cons.inj split
      rcases List.append_eq_append_iff.mp longer with ⟨between, earlier, overlap⟩ |
        ⟨between, _, overlap⟩
      · cases between with
        | nil =>
          rw [List.nil_append] at overlap
          rw [← overlap] at split
          exact List.self_eq_append_right.mp split
        | cons symbol inner =>
          have again := (List.cons.inj overlap).2
          exact absurd (again ▸ List.mem_append_right inner List.mem_cons_self) once
      · rw [overlap] at split
        have lengths := congrArg List.length split
        simp only [List.length_append, List.length_cons] at lengths
        exact List.eq_nil_of_length_eq_zero (by omega)
  · exact absurd ⟨front, cut, longer.symm⟩ absent

end FirstPlaces

/-! ## Lines, parts and forms -/

/-- Forms are sequences of octets. -/
abbrev Octets := List UInt8

/-- The octets of an ASCII text. -/
def ascii (text : String) : Octets := text.toList.map (fun c => UInt8.ofNat c.toNat)

/-- The line break. -/
def crlf : Octets := [13, 10]

/-- A header line without its end. -/
@[ext] structure Line where
  octets : Octets
  nonempty : octets ≠ []
  unbroken : 13 ∉ octets

/-- A header line with its break. -/
def Line.encode (line : Line) : Octets := line.octets ++ crlf

/-- A part: its headers and its content. -/
structure Part where
  headers : List Line
  content : Octets

/-- The header lines and the blank line after them. -/
def Part.head (part : Part) : Octets := part.headers.flatMap Line.encode ++ crlf

/-- The headers with the blank line, and the content. -/
def Part.encode (part : Part) : Octets := part.head ++ part.content

/-- The characters that a boundary may have. -/
def isBoundaryChar (b : UInt8) : Bool :=
  (48 ≤ b && b ≤ 57) || (65 ≤ b && b ≤ 90) || (97 ≤ b && b ≤ 122) ||
    (ascii "'()+_,-./:=? ").contains b

/-- A boundary as the standard has it: up to 70 of the characters that it allows, and no blank at
the end. -/
@[ext] structure Boundary where
  octets : Octets
  size : 0 < octets.length ∧ octets.length ≤ 70
  chars : ∀ b ∈ octets, isBoundaryChar b = true
  noSpaceLast : octets.getLast? ≠ some 32

/-- The delimiter without its line break. -/
def Boundary.dashed (boundary : Boundary) : Octets := 45 :: 45 :: boundary.octets

/-- What stands between two parts. -/
def Boundary.delimiter (boundary : Boundary) : Octets := crlf ++ boundary.dashed

/-- A form. The delimiter is in no part, with its headers, and not in the text ahead of
the first part. -/
@[ext] structure Form where
  boundary : Boundary
  preamble : Option Octets
  parts : List Part
  epilogue : Option Octets
  apart : ∀ part ∈ parts, ¬boundary.delimiter <:+: crlf ++ part.encode
  apartAhead : ∀ text, preamble = some text → ¬boundary.delimiter <:+: crlf ++ text

namespace Form

variable (form : Form)

/-- All up to the line end of the first delimiter line. -/
def opening : Octets :=
  match form.preamble with
  | none => form.boundary.dashed
  | some text => text ++ form.boundary.delimiter

/-- A part between the delimiter before it and the one after it. -/
def block (part : Part) : Octets := crlf ++ part.encode ++ form.boundary.delimiter

/-- The end of a form: the last delimiter is closed by two dashes, and an epilogue may follow. -/
def closing : Octets :=
  match form.epilogue with
  | none => [45, 45]
  | some text => [45, 45] ++ crlf ++ text

/-- The octets of a form. -/
def encode : Octets := form.opening ++ form.parts.flatMap form.block ++ form.closing

end Form

/-! ## The name of a part -/

/-- The lower case of a letter. -/
def lower (b : UInt8) : UInt8 := if 65 ≤ b && b ≤ 90 then b + 32 else b

/-- Blanks and tabs. -/
def isBlank (b : UInt8) : Bool := b == 32 || b == 9

/-- Without blanks around. -/
def strip (octets : Octets) : Octets :=
  ((octets.dropWhile isBlank).reverse.dropWhile isBlank).reverse

/-- What stands ahead of a mark, in lower case, and what stands after it. -/
def pair (mark : UInt8) (octets : Octets) : Octets × Octets :=
  ((octets.takeWhile (· ≠ mark)).map lower, (octets.dropWhile (· ≠ mark)).drop 1)

/-- Puts symbols ahead of the first piece. -/
def glue (front : Octets) : List Octets → List Octets
  | [] => [front]
  | piece :: more => (front ++ piece) :: more

/-- The pieces between the semicolons outside quoted strings. -/
def pieces (quoted : Bool) : Octets → List Octets
  | [] => [[]]
  | 92 :: b :: rest =>
    if quoted then glue [92, b] (pieces quoted rest) else glue [92] (pieces quoted (b :: rest))
  | 34 :: rest => glue [34] (pieces (!quoted) rest)
  | 59 :: rest => if quoted then glue [59] (pieces quoted rest) else [] :: pieces quoted rest
  | b :: rest => glue [b] (pieces quoted rest)

/-- The inside of a quoted string, up to its closing quote. -/
def unescape : Octets → Octets
  | [] => []
  | 92 :: b :: rest => b :: unescape rest
  | 34 :: _ => []
  | b :: rest => b :: unescape rest

/-- The value of a parameter: a quoted string or a token. -/
def parameterValue : Octets → Octets
  | 34 :: rest => unescape rest
  | token => token

/-- The value of a parameter of a header, if it is the one. -/
def parameter (name piece : Octets) : Option Octets :=
  let found := pair 61 (strip piece)
  if found.1 = name then some (parameterValue found.2) else none

/-- The name in a disposition header of a form's part. -/
def Line.formName (line : Line) : Option Octets :=
  let header := pair 58 line.octets
  if header.1 = ascii "content-disposition" then
    match pieces false header.2 with
    | kind :: parameters =>
      if (strip kind).map lower = ascii "form-data" then
        parameters.findSome? (parameter (ascii "name"))
      else none
    | [] => none
  else none

/-- The name of the field that a part is for. -/
def Part.name (part : Part) : Option Octets := part.headers.findSome? Line.formName

/-- The first part with a name, and the parts on both sides of it. -/
structure Field (form : Form) (name : Octets) where
  earlier : List Part
  part : Part
  later : List Part
  parts_eq : form.parts = earlier ++ part :: later
  named : part.name = some name
  first : ∀ other ∈ earlier, other.name ≠ some name

namespace Field

variable {form : Form} {name : Octets} (field : Field form name)

/-- All of the body ahead of the content of the part. -/
def ahead : Octets :=
  form.opening ++ field.earlier.flatMap form.block ++ crlf ++ field.part.head

/-- All of the body from the delimiter after the content on, without its line break. -/
def after : Octets :=
  form.boundary.dashed ++ field.later.flatMap form.block ++ form.closing

/-- The content of the part stands in the body, with a line break after it. -/
theorem encode_eq :
    form.encode = field.ahead ++ (field.part.content ++ (crlf ++ field.after)) := by
  simp [Form.encode, field.parts_eq, ahead, after, Form.block, Part.encode, Boundary.delimiter]

end Field

/-! ## One reading -/

/-- The delimiter begins with its only carriage return. -/
theorem Boundary.delimiter_first {boundary : Boundary} {octets : Octets}
    (apart : ¬boundary.delimiter <:+: octets) : First boundary.delimiter octets := by
  have once : (13 : UInt8) ∉ 10 :: boundary.dashed := by
    intro member
    have inside : (13 : UInt8) ∈ boundary.octets := by
      simpa [dashed] using member
    exact absurd (boundary.chars 13 inside) (by decide)
  exact First.of_absent once apart

/-- A line break comes first after octets without a return. -/
theorem crlf_first {octets : Octets} (absent : 13 ∉ octets) : First crlf octets :=
  First.of_absent (by decide) (fun inside => absent (inside.subset List.mem_cons_self))

/-- The blank line after the headers is the first one in them. -/
theorem Part.head_eq {part : Part} (headed : part.headers ≠ []) :
    ∃ lines, part.head = lines ++ (crlf ++ crlf) ∧ First (crlf ++ crlf) lines := by
  obtain ⟨headers, content⟩ := part
  unfold head
  induction headers with
  | nil => exact absurd rfl headed
  | cons line more inductionHypothesis =>
    cases more with
    | nil =>
      refine ⟨line.octets, by simp [Line.encode], ?_⟩
      have empty : First (crlf ++ crlf) [] := First.nil
      have first := empty.append_left line.unbroken
      rwa [List.append_nil] at first
    | cons next others =>
      obtain ⟨lines, split, first⟩ := inductionHypothesis (by simp)
      refine ⟨line.octets ++ (crlf ++ lines), ?_, ?_⟩
      · rw [List.flatMap_cons, List.append_assoc, split, Line.encode]
        simp only [List.append_assoc]
      · -- the line break is followed by a line, and so begins no blank line
        refine First.append_left (First.cons (First.append_left first (by decide)) ?_) line.unbroken
        intro begins
        have broken : crlf <+: lines ++ (crlf ++ crlf) :=
          (List.cons_prefix_cons.mp ((List.cons_prefix_cons.mp begins).2)).2
        rw [← split, List.flatMap_cons, Line.encode] at broken
        cases written : next.octets with
        | nil => exact next.nonempty written
        | cons b rest =>
          rw [written] at broken
          have unbroken := next.unbroken
          rw [written] at unbroken
          exact unbroken ((List.cons_prefix_cons.mp broken).1 ▸ List.mem_cons_self)

/-- A part is read back from its headers, its blank line and its content. -/
theorem Part.encode_injective {part other : Part} (same : part.encode = other.encode) :
    part = other := by
  obtain ⟨headers, content⟩ := part
  obtain ⟨otherHeaders, otherContent⟩ := other
  simp only [encode, head] at same
  -- a header line does not begin with a line break, so both lists of headers end at once
  have begins (line : Line) (rest : Octets) (both : Octets) :
      crlf ++ both ≠ line.encode ++ rest := by
    intro meet
    cases written : line.octets with
    | nil => exact line.nonempty written
    | cons b more =>
      have unbroken := line.unbroken
      rw [Line.encode, written] at meet
      rw [written] at unbroken
      exact unbroken ((List.cons.inj meet).1 ▸ List.mem_cons_self)
  induction headers generalizing otherHeaders with
  | nil =>
    cases otherHeaders with
    | nil => simpa using same
    | cons line lines =>
      simp only [List.flatMap_nil, List.nil_append, List.flatMap_cons, List.append_assoc] at same
      exact absurd same (begins line _ _)
  | cons line lines inductionHypothesis =>
    cases otherHeaders with
    | nil =>
      simp only [List.flatMap_nil, List.nil_append, List.flatMap_cons, List.append_assoc] at same
      exact absurd same.symm (begins line _ _)
    | cons otherLine otherLines =>
      have lineByLine : line.octets ++ crlf ++ (lines.flatMap Line.encode ++ crlf ++ content) =
          otherLine.octets ++ crlf ++ (otherLines.flatMap Line.encode ++ crlf ++ otherContent) := by
        simpa [Line.encode] using same
      obtain ⟨octets, rest⟩ := (crlf_first line.unbroken).unique
        (crlf_first otherLine.unbroken) lineByLine
      have lineEq : line = otherLine := Line.ext octets
      have linesEq := inductionHypothesis otherLines rest
      simp only [Part.mk.injEq] at linesEq ⊢
      exact ⟨by rw [lineEq, linesEq.1], linesEq.2⟩

namespace Form

variable {form other : Form}

/-- With a line break ahead of it, a body begins with the text ahead of the first delimiter. -/
theorem crlf_opening (form : Form) :
    ∃ text, crlf ++ form.opening = text ++ form.boundary.delimiter ∧
      First form.boundary.delimiter text ∧
      text = match form.preamble with | none => [] | some preamble => crlf ++ preamble := by
  cases written : form.preamble with
  | none => exact ⟨[], by rw [opening, written]; rfl, First.nil, rfl⟩
  | some preamble =>
    refine ⟨crlf ++ preamble, by rw [opening, written]; simp, ?_, rfl⟩
    exact Boundary.delimiter_first (form.apartAhead preamble written)

/-- Parts after a delimiter are read back one by one, up to the closing delimiter. -/
theorem parts_unique (boundary : form.boundary = other.boundary) {parts others : List Part}
    (apart : ∀ part ∈ parts, ¬form.boundary.delimiter <:+: crlf ++ part.encode)
    (apartOthers : ∀ part ∈ others, ¬form.boundary.delimiter <:+: crlf ++ part.encode)
    (same : parts.flatMap form.block ++ form.closing =
      others.flatMap other.block ++ other.closing) :
    parts = others ∧ form.closing = other.closing := by
  have closing_begins (f : Form) : ∃ rest, f.closing = 45 :: rest := by
    cases written : f.epilogue with
    | none => exact ⟨[45], by simp [closing, written]⟩
    | some text => exact ⟨45 :: (crlf ++ text), by simp [closing, written]⟩
  have blocks : other.block = form.block := by
    funext part
    rw [block, block, boundary]
  rw [blocks] at same
  induction parts generalizing others with
  | nil =>
    cases others with
    | nil => exact ⟨rfl, by simpa using same⟩
    | cons part parts =>
      obtain ⟨rest, dashes⟩ := closing_begins form
      simp [dashes, block, crlf] at same
  | cons part parts inductionHypothesis =>
    cases others with
    | nil =>
      obtain ⟨rest, dashes⟩ := closing_begins other
      simp [dashes, block, crlf] at same
    | cons otherPart otherParts =>
      simp only [List.flatMap_cons, block, List.append_assoc] at same
      simp only [← List.append_assoc crlf, ← List.append_assoc (crlf ++ _)] at same
      obtain ⟨encoded, rest⟩ :=
        (Boundary.delimiter_first (apart part List.mem_cons_self)).unique
          (Boundary.delimiter_first (apartOthers otherPart List.mem_cons_self)) same
      have partEq := Part.encode_injective (List.append_cancel_left encoded)
      obtain ⟨partsEq, closingEq⟩ := inductionHypothesis
        (fun later member => apart later (List.mem_cons_of_mem part member))
        (fun later member => apartOthers later (List.mem_cons_of_mem otherPart member)) rest
      exact ⟨by rw [partEq, partsEq], closingEq⟩

/-- A body has one reading for a boundary. -/
theorem encode_injective (boundary : form.boundary = other.boundary)
    (same : form.encode = other.encode) : form = other := by
  obtain ⟨text, textEq, firstText, textIs⟩ := crlf_opening form
  obtain ⟨otherText, otherEq, firstOther, otherIs⟩ := crlf_opening other
  rw [← boundary] at otherEq firstOther
  have bodies : text ++ form.boundary.delimiter ++
        (form.parts.flatMap form.block ++ form.closing) =
      otherText ++ form.boundary.delimiter ++
        (other.parts.flatMap other.block ++ other.closing) := by
    rw [← textEq, ← otherEq]
    simpa [encode] using same
  obtain ⟨ahead, rest⟩ := firstText.unique firstOther bodies
  have preamble : form.preamble = other.preamble := by
    rw [textIs, otherIs] at ahead
    cases left : form.preamble <;> cases right : other.preamble <;>
      simp_all [crlf]
  obtain ⟨parts, closing⟩ := parts_unique boundary form.apart (boundary ▸ other.apart) rest
  have epilogue : form.epilogue = other.epilogue := by
    simp only [Form.closing] at closing
    cases left : form.epilogue <;> cases right : other.epilogue <;>
      simp_all [crlf]
  exact Form.ext boundary preamble parts epilogue

end Form

end Multipart
