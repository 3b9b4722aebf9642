import Mathlib.Data.List.Basic
import Mathlib.Data.List.TakeWhile

/-!
# The lexical rules of PostgreSQL

A text is cut into lexemes: white space, comments (which nest), string literals (plain,
with escapes, between dollar tags), quoted and plain names, numbers, and single symbols.
A string goes on past its closing quote where white space with a line break, and then
another quote, follow. A number is decimal, and what follows its digits begins a lexeme
of its own. A quoted token that is never closed runs to the end of the text.
-/

namespace SqlLexer

inductive Kind where
  | space
  | comment
  | literal
  | name
  | quotedName
  | number
  | symbol
  deriving DecidableEq

/-- A lexeme, with the text before and after it. -/
structure Lexeme where
  before : List Char
  kind : Kind
  text : List Char
  after : List Char
  deriving DecidableEq

/-! ## Characters -/

def isSpace (c : Char) : Bool :=
  c == ' ' || c == '\t' || c == '\n' || c == '\r' || c.toNat == 11 || c.toNat == 12

def isNewline (c : Char) : Bool := c == '\n' || c == '\r'

def isDigit (c : Char) : Bool := 48 ≤ c.toNat && c.toNat ≤ 57

/-- A letter, an underscore, or a character beyond ASCII. -/
def startsName (c : Char) : Bool :=
  (65 ≤ c.toNat && c.toNat ≤ 90) || (97 ≤ c.toNat && c.toNat ≤ 122) || c == '_' || 128 ≤ c.toNat

def continuesTag (c : Char) : Bool := startsName c || isDigit c

def continuesName (c : Char) : Bool := continuesTag c || c == '$'

/-! ## Scanners

Each takes the text after the characters that announce a token, and says how many more
characters belong to it. -/

/-- Up to the line break. -/
def lineLength (s : List Char) : Nat := (s.takeWhile (fun c => !isNewline c)).length

/-- Up to the end of the comment that closes as many openings. -/
def blockLength : Nat → List Char → Nat
  | 0, _ => 0
  | depth + 1, '*' :: '/' :: rest => 2 + blockLength depth rest
  | depth + 1, '/' :: '*' :: rest => 2 + blockLength (depth + 2) rest
  | depth + 1, _ :: rest => 1 + blockLength (depth + 1) rest
  | _ + 1, [] => 0

/-- Up to a quote that is not doubled; with `escapes`, a backslash takes the next
character along. `none` where the text ends first. -/
def quotedLength (quote : Char) (escapes : Bool) : List Char → Option Nat
  | [] => none
  | c :: rest =>
    if c = quote then
      match rest with
      | d :: more => if d = quote then (quotedLength quote escapes more).map (· + 2) else some 1
      | [] => some 1
    else if escapes && c == '\\' then
      match rest with
      | _ :: more => (quotedLength quote escapes more).map (· + 2)
      | [] => none
    else (quotedLength quote escapes rest).map (· + 1)

/-- White space, and comments that end with their line. -/
def gapLength : Nat → List Char → Nat
  | 0, _ => 0
  | fuel + 1, s =>
    match s with
    | '-' :: '-' :: rest =>
      match rest.drop (lineLength rest) with
      | [] => 0
      | _ :: more => 2 + lineLength rest + 1 + gapLength fuel more
    | c :: rest => if isSpace c then 1 + gapLength fuel rest else 0
    | [] => 0

/-- The characters from a closed string to the quote that continues it. -/
def continuation (s : List Char) : Option Nat :=
  let gap := gapLength s.length s
  if (s.take gap).any isNewline && (s.drop gap).head? == some '\'' then some (gap + 1) else none

/-- A string literal, with all that continues it. -/
def stringLength (escapes : Bool) : Nat → List Char → Nat
  | 0, s => s.length
  | fuel + 1, s =>
    match quotedLength '\'' escapes s with
    | none => s.length
    | some closed =>
      match continuation (s.drop closed) with
      | none => closed
      | some gap => closed + gap + stringLength escapes fuel (s.drop (closed + gap))

/-- The tag between the dollars that open a literal. -/
def dollarTag (s : List Char) : Option (List Char) :=
  let tag := s.takeWhile continuesTag
  if (s.drop tag.length).head? = some '$' && !(tag.head?.any isDigit) then some tag else none

/-- Up to the closing tag. -/
def dollarLength (tag : List Char) : List Char → Nat
  | [] => 0
  | c :: rest =>
    if ('$' :: tag ++ ['$']).isPrefixOf (c :: rest) then tag.length + 2
    else 1 + dollarLength tag rest

/-- The digits after a decimal point. -/
def fractionLength (s : List Char) : Nat :=
  match s with
  | '.' :: rest => 1 + (rest.takeWhile isDigit).length
  | _ => 0

/-- An exponent that has digits. -/
def exponentLength (s : List Char) : Nat :=
  match s with
  | e :: rest =>
    if e = 'e' ∨ e = 'E' then
      let sign := if rest.head? = some '+' ∨ rest.head? = some '-' then 1 else 0
      let digits := ((rest.drop sign).takeWhile isDigit).length
      if digits = 0 then 0 else 1 + sign + digits
    else 0
  | [] => 0

/-- A number, after its first digit. -/
def numberLength (s : List Char) : Nat :=
  let whole := (s.takeWhile isDigit).length
  let fraction := fractionLength (s.drop whole)
  whole + fraction + exponentLength (s.drop (whole + fraction))

/-- The lexeme that begins with a character: its kind, and how many characters of the
rest belong to it. -/
def scan (c : Char) (rest : List Char) : Kind × Nat :=
  if isSpace c then (.space, (rest.takeWhile isSpace).length)
  else if c = '-' ∧ rest.head? = some '-' then (.comment, 1 + lineLength (rest.drop 1))
  else if c = '/' ∧ rest.head? = some '*' then (.comment, 1 + blockLength 1 (rest.drop 1))
  else if c = '\'' then (.literal, stringLength false rest.length rest)
  else if (c = 'e' ∨ c = 'E') ∧ rest.head? = some '\'' then
    (.literal, 1 + stringLength true rest.length (rest.drop 1))
  else if c = '"' then
    match quotedLength '"' false rest with
    | some closed => (.quotedName, closed)
    | none => (.literal, rest.length)
  else if startsName c then (.name, (rest.takeWhile continuesName).length)
  else if isDigit c then (.number, numberLength rest)
  else if c = '.' ∧ rest.head?.any isDigit then
    let digits := (rest.takeWhile isDigit).length
    (.number, digits + exponentLength (rest.drop digits))
  else if c = '$' then
    match dollarTag rest with
    | some tag => (.literal, tag.length + 1 + dollarLength tag (rest.drop (tag.length + 1)))
    | none => (.symbol, (rest.takeWhile isDigit).length)
  else (.symbol, 0)

/-- The lexemes of a text, in order, after what was read before it. -/
def lexFrom : Nat → List Char → List Char → List Lexeme
  | 0, _, _ => []
  | _ + 1, _, [] => []
  | fuel + 1, before, c :: rest =>
    let found := scan c rest
    let text := c :: rest.take found.2
    let after := rest.drop found.2
    ⟨before, found.1, text, after⟩ :: lexFrom fuel (before ++ text) after

def lex (s : List Char) : List Lexeme := lexFrom s.length [] s

/-- The lexemes other than white space and comments. -/
def tokens (s : List Char) : List Lexeme :=
  (lex s).filter (fun t => t.kind != .space && t.kind != .comment)

/-- The name a token is, with the text before and after it. -/
def Lexeme.asName (t : Lexeme) : Option (List Char × List Char × List Char) :=
  match t.kind, t.text with
  | .name, text => some (t.before, text, t.after)
  | .quotedName, quote :: rest =>
    some (t.before ++ [quote], rest.dropLast, rest.getLast?.toList ++ t.after)
  | _, _ => none

/-! ## Lexemes in their text -/

theorem mem_lexFrom {fuel : Nat} {before s : List Char} {t : Lexeme}
    (member : t ∈ lexFrom fuel before s) : t.before ++ t.text ++ t.after = before ++ s := by
  induction fuel generalizing before s with
  | zero => simp [lexFrom] at member
  | succ fuel inductionHypothesis =>
    cases s with
    | nil => simp [lexFrom] at member
    | cons c rest =>
      rw [lexFrom] at member
      rcases List.mem_cons.mp member with rfl | later
      · simp
      · rw [inductionHypothesis later]
        simp

/-- A token stands in the text where it says. -/
theorem mem_tokens {s : List Char} {t : Lexeme} (member : t ∈ tokens s) :
    t.before ++ t.text ++ t.after = s := by
  have inText := mem_lexFrom (List.mem_filter.mp member).1
  simpa using inText

/-- So does the name that it is. -/
theorem asName_text {s : List Char} {t : Lexeme} {before name after : List Char}
    (member : t ∈ tokens s) (named : t.asName = some (before, name, after)) :
    before ++ name ++ after = s := by
  have whole := mem_tokens member
  rw [Lexeme.asName] at named
  split at named
  · obtain ⟨rfl, rfl, rfl⟩ : t.before = before ∧ t.text = name ∧ t.after = after := by
      simpa using named
    exact whole
  · rename_i quote rest _ text
    obtain ⟨rfl, rfl, rfl⟩ : t.before ++ [quote] = before ∧ rest.dropLast = name ∧
        rest.getLast?.toList ++ t.after = after := by simpa using named
    rw [text] at whole
    have closed : rest.dropLast ++ rest.getLast?.toList = rest := by
      cases last : rest.getLast? with
      | none => simp [List.getLast?_eq_none_iff.mp last]
      | some c => exact List.dropLast_append_getLast? c last
    calc t.before ++ [quote] ++ rest.dropLast ++ (rest.getLast?.toList ++ t.after)
        = t.before ++ quote :: (rest.dropLast ++ rest.getLast?.toList) ++ t.after := by simp
      _ = s := by rw [closed, whole]
  · simp at named

end SqlLexer
