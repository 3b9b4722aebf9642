import LumidPlatform.Lib.Csv

/-!
# The text of a `COPY`

The CSV format as PostgreSQL's `COPY` reads it. A text is cut into lines at the line feeds
outside quotes, and a line is cut into its fields; quotes may begin and end anywhere in a field. A
field that is a certain text stands for `NULL`, unless quotes are in it, and a line of a backslash
and a dot ends the data. Lines end as the first one does; where that is a carriage return, the
text is not read here.

The writer quotes the fields that cannot do without. They come back as they were, but for those
that stand for `NULL`.
-/

namespace CopyCsv

open Csv

/-! ## Lines -/

/-- No line is left, or one that ends the data. -/
def done : List Char → Bool
  | [] => true
  | '\\' :: '.' :: '\n' :: _ => true
  | _ => false

/-- The rest of a line and the lines after it, inside quotes or outside of them. -/
def cutLines : Bool → List Char → Option (List Char × List (List Char))
  | _, [] => some ([], [])
  | inQuote, '"' :: rest => (cutLines (!inQuote) rest).map fun r => ('"' :: r.1, r.2)
  | false, '\n' :: rest =>
    if done rest then some ([], []) else (cutLines false rest).map fun r => ([], r.1 :: r.2)
  | false, '\r' :: _ => none
  | inQuote, c :: rest => (cutLines inQuote rest).map fun r => (c :: r.1, r.2)

/-- The lines of a text. -/
def lines (text : List Char) : Option (List (List Char)) :=
  if done text then some [] else (cutLines false text).map fun r => r.1 :: r.2

/-! ## Fields -/

/-- What is read from inside a field: the rest of it, whether quotes are in it, and the fields
after it. -/
structure Reading where
  field : Field
  quotes : Bool
  others : List (Option Field)

def Reading.prepend (s : Field) (r : Reading) : Reading := { r with field := s ++ r.field }

/-- The field that is read; the token is `NULL`. -/
def Reading.cell (token : Field) (r : Reading) : Option Field :=
  if r.quotes = false ∧ r.field = token then none else some r.field

def Reading.all (token : Field) (r : Reading) : List (Option Field) := r.cell token :: r.others

/-- The rest of a field, inside quotes or outside of them. -/
def cutFields (token : Field) : Bool → List Char → Option Reading
  | false, [] => some ⟨[], false, []⟩
  | true, [] => none
  | false, ',' :: rest => (cutFields token false rest).map fun r => ⟨[], false, r.all token⟩
  | false, '"' :: rest => (cutFields token true rest).map fun r => { r with quotes := true }
  | true, '"' :: '"' :: rest => (cutFields token true rest).map (Reading.prepend ['"'])
  | true, '"' :: rest => cutFields token false rest
  | inQuote, c :: rest => (cutFields token inQuote rest).map (Reading.prepend [c])

/-- The fields of a line. -/
def fields (token : Field) (line : List Char) : Option (List (Option Field)) :=
  (cutFields token false line).map (Reading.all token)

/-- The rows of a text. -/
def read (token : Field) (text : List Char) : Option (List (List (Option Field))) :=
  (lines text).bind (List.mapM (fields token))

/-! ## Writing -/

/-- The text of a line, without its end. A record of an empty field is in quotes, so that there is
a record. -/
def body (fs : List Field) : List Char :=
  if fs = [[]] then ['"', '"'] else [','].intercalate (fs.map escape)

/-- The text of some records. -/
def write (records : List (List Field)) : List Char := records.flatMap fun fs => body fs ++ ['\n']

/-- What a field is read as. -/
def cellOf (token s : Field) : Option Field := if Clean s ∧ s = token then none else some s

variable {s : Field} {token : Field} {c : Char} {rest : List Char}

/-! ## The lines of what is written -/

theorem solid_ne (solid : c ∉ special) : c ≠ ',' ∧ c ≠ '"' ∧ c ≠ '\n' ∧ c ≠ '\r' := by
  simpa [special, not_or] using solid

theorem cutLines_solid (solid : c ∉ special) (rest : List Char) :
    cutLines false (c :: rest) = (cutLines false rest).map fun r => (c :: r.1, r.2) := by
  obtain ⟨-, quote, feed, ret⟩ := solid_ne solid
  rw [cutLines.eq_5 false c rest (fun same => quote same) (fun _ same => feed same)
    (fun _ same => ret same)]

/-- Inside quotes nothing ends a line. -/
theorem cutLines_double (s : Field) (rest : List Char) :
    cutLines true (double s ++ rest) =
      (cutLines true rest).map fun r => (double s ++ r.1, r.2) := by
  induction s with
  | nil =>
    have same : (fun r : List Char × List (List Char) => (double [] ++ r.1, r.2)) = id := rfl
    rw [same, Option.map_id]
    rfl
  | cons c s inductionHypothesis =>
    have whole : double (c :: s) = (if c = '"' then ['"', '"'] else [c]) ++ double s := rfl
    by_cases quote : c = '"'
    · subst quote
      rw [whole, if_pos rfl, List.append_assoc]
      have twice : cutLines true (['"', '"'] ++ (double s ++ rest)) =
          ((cutLines true (double s ++ rest)).map fun r => ('"' :: r.1, r.2)).map
            fun r => ('"' :: r.1, r.2) := rfl
      rw [twice, inductionHypothesis, Option.map_map, Option.map_map]
      rfl
    · rw [whole, if_neg quote, List.append_assoc, List.singleton_append,
        cutLines.eq_5 true c _ (fun same => quote same) nofun nofun, inductionHypothesis,
        Option.map_map]
      rfl

/-- A field that is written stays in its line. -/
theorem cutLines_escape (s : Field) (rest : List Char) :
    cutLines false (escape s ++ rest) =
      (cutLines false rest).map fun r => (escape s ++ r.1, r.2) := by
  rw [escape]
  split_ifs with clean
  · induction s with
    | nil =>
      have same : (fun r : List Char × List (List Char) => (([] : List Char) ++ r.1, r.2)) = id :=
        rfl
      rw [same, Option.map_id]
      rfl
    | cons c s inductionHypothesis =>
      rw [List.cons_append, cutLines_solid (clean c List.mem_cons_self),
        inductionHypothesis fun d member => clean d (List.mem_cons_of_mem c member),
        Option.map_map]
      rfl
  · rw [List.append_assoc, List.cons_append, cutLines, Bool.not_false, cutLines_double,
      List.singleton_append, cutLines, Bool.not_true, Option.map_map, Option.map_map]
    congr 1
    funext r
    simp

/-- A line feed outside quotes ends a line. -/
theorem cutLines_feed (rest : List Char) :
    cutLines false ('\n' :: rest) = (lines rest).map fun others => ([], others) := by
  rw [cutLines, lines]
  split_ifs with ends
  · rfl
  · rw [Option.map_map]
    rfl

/-- The fields of a record, with commas, stay in its line. -/
theorem cutLines_fields (fs : List Field) (rest : List Char) :
    cutLines false ([','].intercalate (fs.map escape) ++ '\n' :: rest) =
      (lines rest).map fun others => ([','].intercalate (fs.map escape), others) := by
  induction fs with
  | nil => exact cutLines_feed rest
  | cons f fs inductionHypothesis =>
    cases fs with
    | nil =>
      rw [List.map_singleton, List.intercalate_singleton, cutLines_escape, cutLines_feed,
        Option.map_map]
      congr 1
      funext others
      simp
    | cons g fs =>
      rw [List.map_cons, List.map_cons, List.intercalate_cons_cons, List.append_assoc,
        List.append_assoc, List.singleton_append, cutLines_escape]
      have comma (tail : List Char) : cutLines false (',' :: tail) =
          (cutLines false tail).map fun r => (',' :: r.1, r.2) :=
        cutLines.eq_5 false ',' tail nofun nofun nofun
      rw [comma, ← List.map_cons, inductionHypothesis, Option.map_map, Option.map_map]
      congr 1
      funext others
      simp

theorem cutLines_body (fs : List Field) (rest : List Char) :
    cutLines false (body fs ++ '\n' :: rest) =
      (lines rest).map fun others => (body fs, others) := by
  rw [body]
  split_ifs with empty
  · rw [List.cons_append, List.singleton_append, cutLines, cutLines, Bool.not_false, Bool.not_true,
      cutLines_feed, Option.map_map, Option.map_map]
    rfl
  · exact cutLines_fields fs rest

/-- A line with a comma behind its first field does not end the data. -/
theorem done_comma (f : Field) (tail : List Char) : done (escape f ++ ',' :: tail) = false := by
  rw [done.eq_def]
  split
  · rename_i empty
    simp at empty
  · rename_i rest same
    exfalso
    rw [escape] at same
    split_ifs at same with clean
    · rcases f with _ | ⟨_, _ | ⟨_, _ | ⟨c, _⟩⟩⟩
      · simp at same
      · simp at same
      · simp at same
      · obtain rfl : c = '\n' := by
          simp only [List.cons_append, List.cons.injEq] at same
          exact same.2.2.1
        exact absurd (clean '\n' (by simp)) (by decide)
    · simp at same
  · rfl

theorem body_eq {fs : List Field} (several : 2 ≤ fs.length) : ∃ f g more, fs = f :: g :: more ∧
    body fs = escape f ++ ',' :: [','].intercalate ((g :: more).map escape) := by
  match fs with
  | f :: g :: more =>
    refine ⟨f, g, more, rfl, ?_⟩
    rw [body, if_neg (by simp), List.map_cons, List.map_cons, List.intercalate_cons_cons,
      List.append_assoc]
    rfl

/-- The lines of records that are written are their bodies. -/
theorem lines_write {records : List (List Field)} (several : ∀ fs ∈ records, 2 ≤ fs.length) :
    lines (write records) = some (records.map body) := by
  induction records with
  | nil => rfl
  | cons fs records inductionHypothesis =>
    have later := inductionHypothesis fun other member =>
      several other (List.mem_cons_of_mem fs member)
    have whole : write (fs :: records) = body fs ++ '\n' :: write records := by
      rw [write, List.flatMap_cons, List.append_assoc]
      rfl
    obtain ⟨f, g, more, -, shape⟩ := body_eq (several fs List.mem_cons_self)
    have more : done (body fs ++ '\n' :: write records) = false := by
      rw [shape, List.append_assoc]
      exact done_comma f _
    rw [lines, whole, more, if_neg Bool.false_ne_true, cutLines_body, later]
    rfl

/-! ## The fields of a line -/

theorem map_prepend_nil (outcome : Option Reading) :
    outcome.map (Reading.prepend []) = outcome := by
  cases outcome <;> rfl

theorem map_prepend (s t : Field) (outcome : Option Reading) :
    (outcome.map (Reading.prepend t)).map (Reading.prepend s) =
      outcome.map (Reading.prepend (s ++ t)) := by
  rw [Option.map_map]
  congr 1
  funext r
  simp [Reading.prepend]

theorem cutFields_solid (solid : c ∉ special) (rest : List Char) :
    cutFields token false (c :: rest) =
      (cutFields token false rest).map (Reading.prepend [c]) := by
  obtain ⟨comma, quote, -, -⟩ := solid_ne solid
  rw [cutFields.eq_7 token false c rest (fun _ same => comma same) (fun _ same => quote same)
    nofun nofun]

theorem cutFields_clean (clean : Clean s) (rest : List Char) :
    cutFields token false (s ++ rest) = (cutFields token false rest).map (Reading.prepend s) := by
  induction s with
  | nil => rw [map_prepend_nil]; rfl
  | cons c s inductionHypothesis =>
    rw [List.cons_append, cutFields_solid (clean c List.mem_cons_self),
      inductionHypothesis fun d member => clean d (List.mem_cons_of_mem c member), map_prepend]
    rfl

/-- What follows a closing quote is no quote. -/
def Closes (rest : List Char) : Prop := ∀ more, rest ≠ '"' :: more

theorem closes_comma (rest : List Char) : Closes (',' :: rest) :=
  fun _ same => absurd (List.cons.inj same).1 (by decide)

theorem cutFields_double (s : Field) {rest : List Char} (closes : Closes rest) :
    cutFields token true (double s ++ '"' :: rest) =
      (cutFields token false rest).map (Reading.prepend s) := by
  induction s with
  | nil =>
    rw [map_prepend_nil]
    exact cutFields.eq_6 token rest closes
  | cons c s inductionHypothesis =>
    have whole : double (c :: s) = (if c = '"' then ['"', '"'] else [c]) ++ double s := rfl
    rw [whole]
    by_cases quote : c = '"'
    · subst quote
      have twice : cutFields token true ((if '"' = '"' then ['"', '"'] else ['"']) ++ double s ++
          '"' :: rest) =
          (cutFields token true (double s ++ '"' :: rest)).map (Reading.prepend ['"']) := rfl
      rw [twice, inductionHypothesis, map_prepend]
      rfl
    · rw [if_neg quote, List.append_assoc, List.singleton_append,
        cutFields.eq_7 token true c _ nofun nofun (fun _ _ same => absurd same quote)
          (fun _ same => quote same), inductionHypothesis, map_prepend]
      rfl

/-- What a field that was written adds to the reading of what follows it. -/
def Reading.after (s : Field) (r : Reading) : Reading :=
  ⟨s ++ r.field, r.quotes || !decide (Clean s), r.others⟩

theorem cutFields_escape (s : Field) {rest : List Char} (closes : Closes rest) :
    cutFields token false (escape s ++ rest) =
      (cutFields token false rest).map (Reading.after s) := by
  rw [escape]
  by_cases clean : Clean s
  · rw [if_pos clean, cutFields_clean clean]
    congr 1
    funext r
    simp [Reading.after, Reading.prepend, clean]
  · rw [if_neg clean, List.append_assoc, List.cons_append, cutFields, List.singleton_append,
      cutFields_double s closes, Option.map_map]
    congr 1
    funext r
    simp [Reading.after, Reading.prepend, clean]

/-- A field that was written is read as its cell. -/
theorem after_cell (others : List (Option Field)) :
    (Reading.after s ⟨[], false, others⟩).all token = cellOf token s :: others := by
  rw [Reading.all, Reading.cell, cellOf, Reading.after]
  by_cases clean : Clean s <;> simp [clean]

/-- The fields of a written record are read as their cells. -/
theorem fields_intercalate (f : Field) (fs : List Field) :
    fields token ([','].intercalate ((f :: fs).map escape)) =
      some ((f :: fs).map (cellOf token)) := by
  rw [fields]
  induction fs generalizing f with
  | nil =>
    have single : cutFields token false (escape f) =
        (cutFields token false []).map (Reading.after f) := by
      have ended := @cutFields_escape token f [] nofun
      rwa [List.append_nil] at ended
    rw [List.map_singleton, List.intercalate_singleton, single]
    exact congrArg some (after_cell [])
  | cons g fs inductionHypothesis =>
    obtain ⟨r, reads, all⟩ := Option.map_eq_some_iff.mp (inductionHypothesis g)
    rw [List.map_cons, List.map_cons, List.intercalate_cons_cons, List.append_assoc,
      List.singleton_append, cutFields_escape f (closes_comma _), cutFields, ← List.map_cons, reads,
      Option.map_some, Option.map_some, Option.map_some, all, after_cell]
    rfl

/-- Records of two fields or more come back as their cells. -/
theorem read_write {records : List (List Field)} (several : ∀ fs ∈ records, 2 ≤ fs.length) :
    read token (write records) = some (records.map (List.map (cellOf token))) := by
  rw [read, lines_write several, Option.bind_some]
  induction records with
  | nil => rfl
  | cons fs records inductionHypothesis =>
    obtain ⟨f, g, more, rfl, -⟩ := body_eq (several fs List.mem_cons_self)
    have shape : body (f :: g :: more) = [','].intercalate ((f :: g :: more).map escape) :=
      if_neg (by simp)
    rw [List.map_cons, List.mapM_cons, shape, fields_intercalate,
      inductionHypothesis fun other member => several other (List.mem_cons_of_mem _ member)]
    rfl

end CopyCsv
