import LumidPlatform.Lib.SqlPrinted
import Mathlib.Algebra.Order.Ring.Nat

/-!
# Transactions and their configuration

The statements that configure a transaction before its queries: it can be made read-only, take
on a role, and set parameters for itself alone. They are read from the words of a text, where
plain names are folded to lower case and quoted names are taken as they stand, both of them up
to the length of a name. A query that is prepared is one statement.
-/

namespace SqlLexer

/-- What is configured of a transaction. A role and a parameter that nothing has set are those
of the session. -/
structure Session where
  readOnly : Bool := false
  role : Option (List Char) := none
  settings : List Char → Option (List Char) := fun _ => none

inductive Command where
  | readOnly
  | setRole (name : List Char)
  | setLocal (name value : List Char)
  deriving DecidableEq

def folded (text : List Char) : List Char := text.map Char.toLower

/-- A key word, in any case. -/
def Word.isKey (key : List Char) (word : Word) : Bool :=
  word.kind == .name && folded word.text == key

/-- The first characters of a name, as far as they fit into some bytes. -/
def clip : Nat → List Char → List Char
  | _, [] => []
  | room, c :: rest => if c.utf8Size ≤ room then c :: clip (room - c.utf8Size) rest else []

/-- The bytes of a name that count. -/
def nameRoom : Nat := 63

/-- The name that a word gives. A quoted one has to say something. -/
def Word.ident (word : Word) : Option (List Char) :=
  match word.kind with
  | .name => some (clip nameRoom (folded word.text))
  | .quotedName =>
    if (unquote word.text).isEmpty then none else some (clip nameRoom (unquote word.text))
  | _ => none

/-- The value of a parameter: a number of 31 bits, or a name. -/
def Word.value (word : Word) : Option (List Char) :=
  match word.kind with
  | .number =>
    if word.text.all isDigit && Nat.ofDigitChars 10 word.text 0 < 2 ^ 31 then some word.text
    else none
  | _ => word.ident

/-- The role that a name stands for. The name `none`, quoted or not, stands for that of the
session. -/
def roleOf (name : List Char) : Option (List Char) :=
  if name = "none".toList then none else some name

/-- The command of a statement. -/
def command (statement : List Word) : Option Command :=
  match statement with
  | [set, second, third, fourth] =>
    if !set.isKey ['s', 'e', 't'] then none
    else if second.isKey "transaction".toList && third.isKey "read".toList &&
        fourth.isKey "only".toList then some .readOnly
    else if second.isKey "local".toList && third.isKey "role".toList then
      fourth.ident.map .setRole
    else none
  | [set, scope, parameter, equals, given] =>
    if set.isKey ['s', 'e', 't'] && scope.isKey "local".toList && equals == ⟨.symbol, ['=']⟩ then
      parameter.ident.bind (fun name => given.value.map (.setLocal name))
    else none
  | _ => none

namespace Session

variable (session : Session)

def perform : Command → Session
  | .readOnly => { session with readOnly := true }
  | .setRole name => { session with role := roleOf name }
  | .setLocal name value =>
    { session with settings := Function.update session.settings name (some value) }

/-- The statements of a text, one after the other. A text with a zero is not sent. -/
def execute (text : List Char) : Option Session :=
  if text.contains '\x00' then none
  else ((statements text).mapM command).map (fun commands => commands.foldl perform session)

/-- Texts that are executed one after the other. -/
def executeAll (texts : List (List Char)) : Option Session :=
  texts.foldlM execute session

end Session

/-- The statement of a text that is prepared. One of several statements is refused. -/
def prepared (text : List Char) : Option (List Word) :=
  if text.contains '\x00' then none
  else
    match statements text with
    | [statement] => some statement
    | _ => none

/-! ## Names -/

theorem clip_of_fits {room : Nat} {name : List Char}
    (fits : (name.map Char.utf8Size).sum ≤ room) : clip room name = name := by
  induction name generalizing room with
  | nil => rfl
  | cons c rest inductionHypothesis =>
    rw [List.map_cons, List.sum_cons] at fits
    rw [clip, if_pos (by omega), inductionHypothesis (by omega)]

/-- A name that is short enough and not `none` stands for itself. -/
theorem roleOf_clip {name : List Char} (fits : (name.map Char.utf8Size).sum ≤ nameRoom)
    (named : name ≠ "none".toList) : roleOf (clip nameRoom name) = some name := by
  rw [clip_of_fits fits, roleOf, if_neg named]

/-! ## Texts of several statements -/

theorem statements_single {s : List Char} (something : words s ≠ [])
    (absent : semicolon ∉ words s) : statements s = [words s] := by
  rw [statements, List.splitOn_eq_singleton absent, List.filter_cons_of_pos, List.filter_nil]
  rw [Bool.not_eq_true', List.isEmpty_eq_false_iff]
  exact something

/-- The first statement ends at the first semicolon. -/
theorem statements_cons {s rest : List Char} {first : List Word}
    (cut : words s = first ++ semicolon :: words rest) (something : first ≠ [])
    (absent : semicolon ∉ first) : statements s = first :: statements rest := by
  rw [statements, cut, List.splitOn_append_cons_self, List.splitOn_eq_singleton absent,
    List.singleton_append, List.filter_cons_of_pos, statements]
  rw [Bool.not_eq_true', List.isEmpty_eq_false_iff]
  exact something

namespace Session

variable {session : Session} {text rest : List Char}

/-- A text of one statement performs its command. -/
theorem execute_single {said : Command} (clean : '\x00' ∉ text) (something : words text ≠ [])
    (absent : semicolon ∉ words text) (read : command (words text) = some said) :
    session.execute text = some (session.perform said) := by
  rw [execute, if_neg (mt List.contains_iff_mem.mp clean), statements_single something absent,
    List.mapM_cons, read]
  rfl

/-- A text performs its first command, and then the others. -/
theorem execute_cons {first : List Word} {said : Command}
    (clean : '\x00' ∈ text ↔ '\x00' ∈ rest)
    (cut : words text = first ++ semicolon :: words rest) (something : first ≠ [])
    (absent : semicolon ∉ first) (read : command first = some said) :
    session.execute text = (session.perform said).execute rest := by
  have zeros : text.contains '\x00' = rest.contains '\x00' :=
    Bool.eq_iff_iff.mpr (List.contains_iff_mem.trans (clean.trans List.contains_iff_mem.symm))
  rw [execute, statements_cons cut something absent, List.mapM_cons, read, execute, zeros]
  cases (statements rest).mapM command with
  | none => rfl
  | some commands => rfl

end Session

/-! ## Texts that are prepared -/

variable {text rest : List Char} {first : List Word}

/-- What is prepared of a text with some words in front is its one statement with them. -/
theorem prepared_front (said : words text = first ++ words rest) (absent : semicolon ∉ first)
    (something : first ≠ []) {statement : List Word} (sent : prepared text = some statement) :
    statement = first ++ (statements rest).flatten ∧ (statements rest).length ≤ 1 := by
  have one : statements text = [statement] := by
    rw [prepared] at sent
    split_ifs at sent
    split at sent
    · rename_i only
      rw [only, Option.some.inj sent]
    · cases sent
  -- The front goes with what stands before the first semicolon of the rest.
  have cuts : ∃ head tail, (words rest).splitOn semicolon = head :: tail ∧
      (words text).splitOn semicolon = (first ++ head) :: tail := by
    by_cases several : semicolon ∈ words rest
    · obtain ⟨head, back, parts, early⟩ := List.eq_append_cons_of_mem several
      have apart : semicolon ∉ first ++ head := by
        rw [List.mem_append, not_or]
        exact ⟨absent, early⟩
      refine ⟨head, back.splitOn semicolon, ?_, ?_⟩
      · rw [parts, List.splitOn_append_cons_self, List.splitOn_eq_singleton early]
        rfl
      · rw [said, parts, ← List.append_assoc, List.splitOn_append_cons_self,
          List.splitOn_eq_singleton apart]
        rfl
    · have apart : semicolon ∉ words text := by
        rw [said, List.mem_append, not_or]
        exact ⟨absent, several⟩
      exact ⟨words rest, [], List.splitOn_eq_singleton several, by
        rw [List.splitOn_eq_singleton apart, said]⟩
  obtain ⟨head, tail, restCut, textCut⟩ := cuts
  have spoken : (!(first ++ head).isEmpty) = true := by
    rw [Bool.not_eq_true', List.isEmpty_eq_false_iff]
    exact List.append_ne_nil_of_left_ne_nil something _
  rw [statements, textCut, List.filter_cons, if_pos spoken] at one
  obtain ⟨rfl, nothing⟩ := List.cons.inj one
  rw [statements, restCut, List.filter_cons, nothing]
  by_cases empty : head = []
  · rw [empty]
    simp
  · have full : (!head.isEmpty) = true := by
      rw [Bool.not_eq_true', List.isEmpty_eq_false_iff]
      exact empty
    rw [if_pos full, List.flatten_singleton]
    exact ⟨rfl, le_rfl⟩

/-- Words in front of a text without a semicolon are prepared with it. -/
theorem prepared_of_front (clean : '\x00' ∉ text) (said : words text = first ++ words rest)
    (absent : semicolon ∉ first) (something : first ≠ []) (one : semicolon ∉ words rest) :
    prepared text = some (first ++ words rest) := by
  have none : semicolon ∉ words text := by
    rw [said, List.mem_append, not_or]
    exact ⟨absent, one⟩
  have spoken : words text ≠ [] := by
    rw [said]
    exact List.append_ne_nil_of_left_ne_nil something _
  rw [prepared, if_neg (mt List.contains_iff_mem.mp clean), statements_single spoken none, said]

end SqlLexer
