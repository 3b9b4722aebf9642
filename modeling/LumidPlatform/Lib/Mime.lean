import Mathlib.Data.List.Basic
import Mathlib.Data.List.TakeWhile

/-!
# The MIME type of a header

How a browser reads a Content-Type header: the value is split at its commas outside quoted
strings, every part is parsed as a MIME type, and the last one that is valid counts. Only
the essence is kept: the type and the subtype in lower case, without parameters.
-/

namespace Mime

structure Essence where
  type : List Char
  subtype : List Char
  deriving DecidableEq

def Essence.text (essence : Essence) : List Char := essence.type ++ '/' :: essence.subtype

/-! ## Characters -/

def isUpper (c : Char) : Bool := 65 ≤ c.toNat && c.toNat ≤ 90

def lower (c : Char) : Char := if isUpper c then Char.ofNat (c.toNat + 32) else c

/-- Tab, line feed, carriage return and space. -/
def isWhitespace (c : Char) : Bool := c == '\t' || c == '\n' || c == '\r' || c == ' '

def isTabOrSpace (c : Char) : Bool := c == '\t' || c == ' '

/-- The characters of a token. -/
def isToken (c : Char) : Bool :=
  isUpper c || (97 ≤ c.toNat && c.toNat ≤ 122) || (48 ≤ c.toNat && c.toNat ≤ 57) ||
    "!#$%&'*+-.^_`|~".toList.contains c

def stripEnd (blank : Char → Bool) (input : List Char) : List Char :=
  (input.reverse.dropWhile blank).reverse

def strip (blank : Char → Bool) (input : List Char) : List Char :=
  stripEnd blank (input.dropWhile blank)

/-! ## Parsing -/

/-- A MIME type without its parameters, which never make it invalid. -/
def parse (input : List Char) : Option Essence :=
  let input := strip isWhitespace input
  let type := input.takeWhile (· ≠ '/')
  match input.dropWhile (· ≠ '/') with
  | [] => none
  | _ :: rest =>
    let subtype := stripEnd isWhitespace (rest.takeWhile (· ≠ ';'))
    if type ≠ [] ∧ type.all isToken ∧ subtype ≠ [] ∧ subtype.all isToken then
      some ⟨type.map lower, subtype.map lower⟩
    else none

/-- Where in a header value a character stands. -/
inductive Place where
  | outside
  | quoted
  | escaped

/-- The place after a character. -/
def Place.next : Place → Char → Place
  | outside, c => if c = '"' then quoted else outside
  | quoted, c => if c = '"' then outside else if c = '\\' then escaped else quoted
  | escaped, _ => quoted

/-- Puts a character before the first part. -/
def consFirst (c : Char) : List (List Char) → List (List Char)
  | [] => [[c]]
  | part :: parts => (c :: part) :: parts

/-- The parts of a value at its commas outside quoted strings. -/
def splitFrom : Place → List Char → List (List Char)
  | _, [] => [[]]
  | place, c :: rest =>
    match place with
    | .outside =>
      if c = ',' then [] :: splitFrom .outside rest
      else consFirst c (splitFrom (Place.outside.next c) rest)
    | place => consFirst c (splitFrom (place.next c) rest)

def split (value : List Char) : List (List Char) :=
  (splitFrom .outside value).map (strip isTabOrSpace)

/-- The essence of the last part that is a MIME type other than `*/*`. -/
def extract (value : List Char) : Option Essence :=
  (((split value).filterMap parse).filter (fun essence => essence.text != "*/*".toList)).getLast?

/-! ## Kinds -/

/-- `text/xml`, `application/xml`, and every subtype that ends in `+xml`. -/
def Essence.isXml (essence : Essence) : Bool :=
  essence.text == "text/xml".toList || essence.text == "application/xml".toList ||
    "+xml".toList.isSuffixOf essence.subtype

/-- The names that JavaScript has, or has had. -/
def javaScriptNames : List (List Char) := [
  "application/ecmascript".toList, "application/javascript".toList,
  "application/x-ecmascript".toList, "application/x-javascript".toList,
  "text/ecmascript".toList, "text/javascript".toList, "text/javascript1.0".toList,
  "text/javascript1.1".toList, "text/javascript1.2".toList, "text/javascript1.3".toList,
  "text/javascript1.4".toList, "text/javascript1.5".toList, "text/jscript".toList,
  "text/livescript".toList, "text/x-ecmascript".toList, "text/x-javascript".toList]

def Essence.isJavaScript (essence : Essence) : Bool := javaScriptNames.contains essence.text

/-! ## What a parsed value looks like -/

/-- Blanks around a part that begins and ends with none are stripped, and nothing else. -/
theorem strip_around {blank : Char → Bool} {before part after : List Char}
    (lead : ∀ c ∈ before, blank c = true) (plain : ∀ c ∈ part, blank c = false)
    (nonempty : part ≠ []) (trail : ∀ c ∈ after, blank c = true) :
    strip blank (before ++ part ++ after) = part := by
  have keeps {first : List Char} (visible : ∀ c ∈ first, blank c = false) (present : first ≠ [])
      (rest : List Char) : (first ++ rest).dropWhile blank = first ++ rest := by
    cases first with
    | nil => exact absurd rfl present
    | cons c first => simp [visible c List.mem_cons_self]
  have front : (before ++ part ++ after).dropWhile blank = part ++ after := by
    rw [List.append_assoc, List.dropWhile_append_of_pos lead, keeps plain nonempty]
  have back : (after.reverse ++ part.reverse).dropWhile blank = part.reverse := by
    rw [List.dropWhile_append_of_pos (fun c member => trail c (List.mem_reverse.mp member))]
    have kept := keeps (fun c member => plain c (List.mem_reverse.mp member))
      (List.reverse_ne_nil_iff.mpr nonempty) []
    rwa [List.append_nil] at kept
  rw [strip, stripEnd, front, List.reverse_append, back, List.reverse_reverse]

/-- What is stripped from the end is blank. -/
theorem stripEnd_append (blank : Char → Bool) (input : List Char) :
    ∃ after, input = stripEnd blank input ++ after ∧ ∀ c ∈ after, blank c = true := by
  refine ⟨(input.reverse.takeWhile blank).reverse, ?_, ?_⟩
  · rw [stripEnd, ← List.reverse_append, List.takeWhile_append_dropWhile, List.reverse_reverse]
  · intro c member
    exact List.mem_takeWhile_imp (List.mem_reverse.mp member)

/-- What is stripped is blank. -/
theorem strip_append (blank : Char → Bool) (input : List Char) :
    ∃ before after, input = before ++ strip blank input ++ after ∧
      (∀ c ∈ before, blank c = true) ∧ ∀ c ∈ after, blank c = true := by
  obtain ⟨after, whole, trail⟩ := stripEnd_append blank (input.dropWhile blank)
  refine ⟨input.takeWhile blank, after, ?_, fun c member => List.mem_takeWhile_imp member, trail⟩
  rw [strip, List.append_assoc, ← whole, List.takeWhile_append_dropWhile]

/-- A value that spells an essence: blanks, the type and the subtype, blanks, and perhaps
parameters. -/
def Spells (input : List Char) (essence : Essence) : Prop :=
  ∃ before type subtype blank parameters,
    input = before ++ (type ++ '/' :: subtype) ++ blank ++ parameters ∧
    (∀ c ∈ before, isWhitespace c = true) ∧ (∀ c ∈ blank, isWhitespace c = true) ∧
    (∀ c ∈ type, isToken c = true) ∧ (∀ c ∈ subtype, isToken c = true) ∧
    (parameters = [] ∨ ∃ rest, parameters = ';' :: rest) ∧
    essence = ⟨type.map lower, subtype.map lower⟩

/-- Blanks around a value do not matter. -/
theorem Spells.around {input : List Char} {essence : Essence} (spells : Spells input essence)
    {before after : List Char} (lead : ∀ c ∈ before, isWhitespace c = true)
    (trail : ∀ c ∈ after, isWhitespace c = true) :
    Spells (before ++ input ++ after) essence := by
  obtain ⟨first, type, subtype, blank, parameters, rfl, front, gap, inType, inSubtype, ends, named⟩ :=
    spells
  have lead' : ∀ c ∈ before ++ first, isWhitespace c = true := by
    intro c member
    exact (List.mem_append.mp member).elim (lead c) (front c)
  rcases ends with rfl | ⟨rest, rfl⟩
  · refine ⟨before ++ first, type, subtype, blank ++ after, [], by simp, lead', ?_, inType,
      inSubtype, .inl rfl, named⟩
    intro c member
    exact (List.mem_append.mp member).elim (gap c) (trail c)
  · exact ⟨before ++ first, type, subtype, blank, ';' :: (rest ++ after), by simp, lead', gap,
      inType, inSubtype, .inr ⟨_, rfl⟩, named⟩

/-- A value that parses spells what it parses to. -/
theorem spells_of_parse {input : List Char} {essence : Essence}
    (parsed : parse input = some essence) : Spells input essence := by
  obtain ⟨before, after, whole, lead, trail⟩ := strip_append isWhitespace input
  suffices inner : Spells (strip isWhitespace input) essence by
    rw [whole]
    exact inner.around lead trail
  rw [parse] at parsed
  dsimp only at parsed
  generalize strip isWhitespace input = stripped at parsed
  have parts := List.takeWhile_append_dropWhile (p := (· ≠ '/')) (l := stripped)
  split at parsed
  · cases parsed
  · rename_i slash rest found
    split_ifs at parsed with valid
    obtain ⟨-, inType, -, inSubtype⟩ := valid
    obtain rfl := Option.some.inj parsed
    have stops := List.head?_dropWhile_not (· ≠ '/') stripped
    rw [found] at stops
    obtain rfl : slash = '/' := by simpa using stops
    obtain ⟨blank, gap, blanks⟩ := stripEnd_append isWhitespace (rest.takeWhile (· ≠ ';'))
    have after := List.takeWhile_append_dropWhile (p := (· ≠ ';')) (l := rest)
    refine ⟨[], stripped.takeWhile (· ≠ '/'), stripEnd isWhitespace (rest.takeWhile (· ≠ ';')),
      blank, rest.dropWhile (· ≠ ';'), ?_, by simp, blanks, List.all_eq_true.mp inType,
      List.all_eq_true.mp inSubtype, ?_, rfl⟩
    · have spelled : stripEnd isWhitespace (rest.takeWhile (· ≠ ';')) ++ blank ++
          rest.dropWhile (· ≠ ';') = rest := by rw [← gap, after]
      calc stripped = stripped.takeWhile (· ≠ '/') ++ '/' :: rest := by rw [← found, parts]
        _ = stripped.takeWhile (· ≠ '/') ++ '/' :: (stripEnd isWhitespace
            (rest.takeWhile (· ≠ ';')) ++ blank ++ rest.dropWhile (· ≠ ';')) := by rw [spelled]
        _ = _ := by simp
    · cases ends : rest.dropWhile (· ≠ ';') with
      | nil => exact .inl rfl
      | cons c left =>
        have stops := List.head?_dropWhile_not (· ≠ ';') rest
        rw [ends] at stops
        obtain rfl : c = ';' := by simpa using stops
        exact .inr ⟨left, rfl⟩

/-! ## A value of one part -/

theorem length_consFirst (c : Char) {parts : List (List Char)} (present : parts ≠ []) :
    (consFirst c parts).length = parts.length := by
  cases parts with
  | nil => exact absurd rfl present
  | cons part parts => rfl

theorem consFirst_ne_nil (c : Char) (parts : List (List Char)) : consFirst c parts ≠ [] := by
  cases parts with
  | nil => simp [consFirst]
  | cons part parts => simp [consFirst]

theorem splitFrom_ne_nil (place : Place) (value : List Char) : splitFrom place value ≠ [] := by
  cases value with
  | nil => simp [splitFrom]
  | cons c rest =>
    cases place with
    | outside =>
      rw [splitFrom]
      split_ifs
      · simp
      · exact consFirst_ne_nil c _
    | quoted => exact consFirst_ne_nil c _
    | escaped => exact consFirst_ne_nil c _

/-- A value with no comma outside quoted strings is its own part. -/
theorem splitFrom_single {place : Place} {value : List Char}
    (single : (splitFrom place value).length = 1) : splitFrom place value = [value] := by
  induction value generalizing place with
  | nil =>
    cases place with
    | outside => rfl
    | quoted => rfl
    | escaped => rfl
  | cons c rest inductionHypothesis =>
    have onward {later : Place} (here : (consFirst c (splitFrom later rest)).length = 1) :
        consFirst c (splitFrom later rest) = [c :: rest] := by
      rw [length_consFirst c (splitFrom_ne_nil later rest)] at here
      rw [inductionHypothesis here]
      rfl
    cases place with
    | outside =>
      rw [splitFrom] at single ⊢
      split_ifs at single ⊢ with comma
      · rw [List.length_cons] at single
        exact absurd (List.eq_nil_of_length_eq_zero (Nat.succ.inj single)) (splitFrom_ne_nil _ rest)
      · exact onward single
    | quoted => exact onward single
    | escaped => exact onward single

/-- A value always has a part. -/
theorem split_pos (value : List Char) : 0 < (split value).length := by
  rw [split, List.length_map]
  exact List.length_pos_of_ne_nil (splitFrom_ne_nil _ value)

/-- What is extracted from a value of one part is spelled by that value. -/
theorem spells_of_extract {value : List Char} {essence : Essence}
    (single : (split value).length ≤ 1) (extracted : extract value = some essence) :
    Spells value essence := by
  have one : (splitFrom .outside value).length = 1 := by
    have least := split_pos value
    rw [split, List.length_map] at single least
    omega
  have whole : split value = [strip isTabOrSpace value] := by
    rw [split, splitFrom_single one]
    rfl
  have parsed : parse (strip isTabOrSpace value) = some essence := by
    have member := List.mem_of_getLast? extracted
    obtain ⟨part, inside, found⟩ := List.mem_filterMap.mp (List.mem_filter.mp member).1
    rw [whole, List.mem_singleton] at inside
    rw [← inside, found]
  obtain ⟨before, after, around, lead, trail⟩ := strip_append isTabOrSpace value
  have blank (c : Char) (space : isTabOrSpace c = true) : isWhitespace c = true := by
    simp only [isTabOrSpace, isWhitespace, Bool.or_eq_true, beq_iff_eq] at space ⊢
    tauto
  rw [around]
  exact (spells_of_parse parsed).around (fun c member => blank c (lead c member))
    (fun c member => blank c (trail c member))

end Mime
