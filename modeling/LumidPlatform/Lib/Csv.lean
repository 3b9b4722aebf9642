import Mathlib.Data.List.Basic

/-!
# Comma-separated values

A text of RFC 4180: records end with a line break, fields with a comma, and a field in quotes may
hold either, and quotes that are doubled. Outside quotes, a quote or a lone carriage return is an
error. A line break is a line feed, with or without a carriage return before it.

Fields that are escaped come back as they were. Names that are written as they are come back
exactly if none has a character that would have been escaped.
-/

namespace Csv

/-- The characters of one field. -/
abbrev Field := List Char

/-- Where a reader stands in a field. -/
inductive Mode where
  | start
  | plain
  | quoted
  /-- After a quote in a quoted field. -/
  | closed
  deriving DecidableEq

/-- What is read from inside a record: the rest of its field, its other fields, and the records
after it. -/
structure Reading where
  field : Field
  fields : List Field
  records : List (List Field)
  deriving DecidableEq

namespace Reading

/-- The text ends inside the record. -/
def last : Reading := ⟨[], [], []⟩

/-- More of the field comes before. -/
def prepend (s : Field) (r : Reading) : Reading := { r with field := s ++ r.field }

/-- A comma ends the field before. -/
def comma (r : Reading) : Reading := ⟨[], r.field :: r.fields, r.records⟩

/-- All records, the current one first. -/
def all (r : Reading) : List (List Field) := (r.field :: r.fields) :: r.records

/-- A line break ends the record before. -/
def line (r : Reading) : Reading := ⟨[], [], r.all⟩

end Reading

/-- The reader: a quote opens a quoted field only at the start of one, two quotes inside it stand
for one, and a field that is not closed is an error. -/
def read : Mode → List Char → Option Reading
  | .quoted, [] => none
  | .quoted, '"' :: rest => read .closed rest
  | .quoted, c :: rest => (read .quoted rest).map (Reading.prepend [c])
  | .closed, '"' :: rest => (read .quoted rest).map (Reading.prepend ['"'])
  | _, [] => some .last
  | _, ',' :: rest => (read .start rest).map .comma
  | _, '\n' :: rest => if rest.isEmpty then some .last else (read .start rest).map .line
  | _, '\r' :: '\n' :: rest => if rest.isEmpty then some .last else (read .start rest).map .line
  | .closed, _ :: _ => none
  | .start, '"' :: rest => read .quoted rest
  | _, c :: rest =>
    if c = '"' ∨ c = '\r' then none else (read .plain rest).map (Reading.prepend [c])

-- The equations of the reader are derived here, once, and not by each proof that asks for one.
section
attribute [local simp] read.eq_11
end

/-- The records of a text. -/
def parse (s : List Char) : Option (List (List Field)) :=
  if s.isEmpty then some [] else (read .start s).map Reading.all

/-! ## Fields -/

/-- The characters for which a field is quoted. -/
def special : List Char := [',', '"', '\n', '\r']

/-- Nothing in the field has to be escaped. -/
def Clean (s : Field) : Prop := ∀ c ∈ s, c ∉ special

instance (s : Field) : Decidable (Clean s) := List.decidableBAll (fun c => c ∉ special) s

/-- The field with each of its quotes written twice. -/
def double (s : Field) : Field := s.flatMap (fun c => if c = '"' then ['"', '"'] else [c])

/-- A field is quoted only where it has to be. -/
def escape (s : Field) : Field := if Clean s then s else '"' :: double s ++ ['"']

/-- A field ends there. -/
def Ends (d : Char) : Prop := d = ',' ∨ d = '\n'

variable {s f : Field} {fs : List Field} {d c : Char} {rest tail : List Char} {r : Reading}

/-- At the end of a field all modes outside quotes read on alike. -/
theorem read_end (ends : Ends d) (tail : List Char) :
    read .plain (d :: tail) = read .start (d :: tail) ∧
      read .closed (d :: tail) = read .start (d :: tail) := by
  rcases ends with rfl | rfl
  · exact ⟨rfl, rfl⟩
  · exact ⟨rfl, rfl⟩

/-- No field is left where it ends. -/
theorem field_end (ends : Ends d) (reads : read .start (d :: tail) = some r) : r.field = [] := by
  rcases ends with rfl | rfl
  · obtain ⟨_, -, rfl⟩ := Option.map_eq_some_iff.mp reads
    rfl
  · have broken : read .start ('\n' :: tail) =
        if tail.isEmpty then some .last else (read .start tail).map .line := rfl
    rw [broken] at reads
    split_ifs at reads
    · obtain rfl := Option.some.inj reads
      rfl
    · obtain ⟨_, -, rfl⟩ := Option.map_eq_some_iff.mp reads
      rfl

/-- Any other character belongs to the field, which goes on plainly. -/
theorem read_solid (solid : c ∉ special) (rest : List Char) :
    read .plain (c :: rest) = (read .plain rest).map (Reading.prepend [c]) ∧
      read .start (c :: rest) = (read .plain rest).map (Reading.prepend [c]) := by
  have other {mark : Char} (member : mark ∈ special) : c ≠ mark := by
    rintro rfl
    exact solid member
  have comma : c ≠ ',' := other (by decide)
  have quote : c ≠ '"' := other (by decide)
  have feed : c ≠ '\n' := other (by decide)
  have ret : c ≠ '\r' := other (by decide)
  have step (mode : Mode) (outside : mode = .plain ∨ mode = .start) :
      read mode (c :: rest) = (read .plain rest).map (Reading.prepend [c]) := by
    rw [read.eq_11 mode c rest comma feed (fun _ same => absurd same ret)
      (fun _ same => quote same) _ (fun _ same => quote same) _ (fun _ same => quote same),
      if_neg (not_or.mpr ⟨quote, ret⟩)]
    all_goals
      rintro rfl
      rcases outside with impossible | impossible
      all_goals cases impossible
  exact ⟨step .plain (.inl rfl), step .start (.inr rfl)⟩

/-- What is put in front in two steps is put in front in one. -/
theorem map_prepend (s t : Field) (outcome : Option Reading) :
    (outcome.map (Reading.prepend t)).map (Reading.prepend s) =
      outcome.map (Reading.prepend (s ++ t)) := by
  rw [Option.map_map]
  congr 1
  funext r
  simp [Reading.prepend]

/-- Nothing in front changes nothing. -/
theorem map_prepend_nil (outcome : Option Reading) :
    outcome.map (Reading.prepend []) = outcome := by
  cases outcome <;> rfl

/-- A clean field is read up to its end, by induction along it. -/
theorem read_plain (clean : Clean s) (ends : Ends d) (tail : List Char) :
    read .plain (s ++ d :: tail) = (read .start (d :: tail)).map (Reading.prepend s) := by
  induction s with
  | nil => rw [List.nil_append, (read_end ends tail).1, map_prepend_nil]
  | cons c s inductionHypothesis =>
    have later := inductionHypothesis (fun c member => clean c (List.mem_cons_of_mem _ member))
    rw [List.cons_append, (read_solid (clean c List.mem_cons_self) _).1, later, map_prepend]
    rfl

/-- The same from the start of a field. -/
theorem read_clean (clean : Clean s) (ends : Ends d) (tail : List Char) :
    read .start (s ++ d :: tail) = (read .start (d :: tail)).map (Reading.prepend s) := by
  cases s with
  | nil => rw [List.nil_append, map_prepend_nil]
  | cons c s =>
    have later := read_plain (fun c member => clean c (List.mem_cons_of_mem _ member)) ends tail
    rw [List.cons_append, (read_solid (clean c List.mem_cons_self) _).2, later, map_prepend]
    rfl

/-- A quoted field is read up to its closing quote, and each doubled quote as one. -/
theorem read_quoted (s : Field) (ends : Ends d) (tail : List Char) :
    read .quoted (double s ++ '"' :: d :: tail) =
      (read .start (d :: tail)).map (Reading.prepend s) := by
  induction s with
  | nil => rw [map_prepend_nil, ← (read_end ends tail).2]; rfl
  | cons c s inductionHypothesis =>
    by_cases quote : c = '"'
    · subst quote
      have step : read .quoted (double ('"' :: s) ++ '"' :: d :: tail) =
          (read .quoted (double s ++ '"' :: d :: tail)).map (Reading.prepend ['"']) := rfl
      rw [step, inductionHypothesis, map_prepend]
      rfl
    · have step : double (c :: s) ++ '"' :: d :: tail = c :: (double s ++ '"' :: d :: tail) := by
        simp [double, quote]
      rw [step, read, inductionHypothesis, map_prepend]
      · rfl
      · exact quote

/-- An escaped field comes back. -/
theorem read_escape (s : Field) (ends : Ends d) (tail : List Char) :
    read .start (escape s ++ d :: tail) = (read .start (d :: tail)).map (Reading.prepend s) := by
  rw [escape]
  split_ifs with clean
  · exact read_clean clean ends tail
  · rw [List.append_assoc]
    exact read_quoted s ends tail

/-! ## Records -/

/-- A record without fields has one, which is empty. -/
def fill (fs : List Field) : List Field := if fs.isEmpty then [[]] else fs

/-- The text of a record. -/
def line (fs : List Field) : List Char := [','].intercalate fs ++ ['\n']

/-- A line of escaped fields is read as they were, and what follows it as a text of its own. -/
theorem read_line (f : Field) (fs : List Field) (rest : List Char) :
    read .start ([','].intercalate ((f :: fs).map escape) ++ '\n' :: rest) =
      (parse rest).map (fun records => ⟨f, fs, records⟩) := by
  induction fs generalizing f with
  | nil =>
    rw [List.map_singleton, List.intercalate_singleton, read_escape f (.inr rfl)]
    have broken : read .start ('\n' :: rest) =
        if rest.isEmpty then some .last else (read .start rest).map Reading.line := rfl
    rw [broken, parse]
    split_ifs
    · simp [Reading.last, Reading.prepend]
    · rw [Option.map_map, Option.map_map]
      congr 1
      funext r
      simp [Reading.line, Reading.prepend]
  | cons g fs inductionHypothesis =>
    have later := inductionHypothesis g
    rw [List.map_cons, List.map_cons, List.intercalate_cons_cons, List.append_assoc,
      List.append_assoc, List.singleton_append, read_escape f (.inl rfl)]
    have cut : read .start
          (',' :: ([','].intercalate (escape g :: fs.map escape) ++ '\n' :: rest)) =
        (read .start ([','].intercalate ((g :: fs).map escape) ++ '\n' :: rest)).map
          Reading.comma := rfl
    rw [cut, later, Option.map_map, Option.map_map]
    congr 1
    funext records
    simp [Reading.comma, Reading.prepend]

/-- A written record is read back, and then the rest. -/
theorem parse_line (fs : List Field) (rest : List Char) :
    parse (line (fs.map escape) ++ rest) = (parse rest).map (fill fs :: ·) := by
  rw [parse, if_neg (by simp [line]), line, List.append_assoc, List.singleton_append]
  cases fs with
  | nil =>
    have empty := read_line [] [] rest
    have clean : escape [] = [] := rfl
    rw [List.map_singleton, clean, List.intercalate_singleton] at empty
    rw [List.map_nil, List.intercalate_nil, empty, Option.map_map]
    rfl
  | cons f fs =>
    rw [read_line, Option.map_map]
    rfl

/-- Lines of escaped fields come back as they were. -/
theorem parse_lines (records : List (List Field)) :
    parse (records.flatMap (fun fs => line (fs.map escape))) = some (records.map fill) := by
  induction records with
  | nil => rfl
  | cons fs records inductionHypothesis =>
    rw [List.flatMap_cons, parse_line, inductionHypothesis]
    rfl

/-! ## Names as they are -/

/-- A clean field is written as it is. -/
theorem escape_clean (clean : Clean s) : escape s = s := if_pos clean

/-- The quotes a text begins with. -/
def quotes (s : List Char) : Nat := (s.takeWhile (· == '"')).length

/-- A quote at the front is one more of the run. -/
theorem quotes_cons (s : List Char) : quotes ('"' :: s) = quotes s + 1 := rfl

/-- A run of quotes ends at any other character. -/
theorem quotes_solid (solid : c ≠ '"') (s : List Char) : quotes (c :: s) = 0 := by
  rw [quotes, List.takeWhile_cons, beq_false_of_ne solid, if_neg Bool.false_ne_true]
  rfl

/-- After the closing quote of a field nothing of it is left. -/
theorem field_closed (solid : c ≠ '"') (reads : read .closed (c :: rest) = some r) :
    r.field = [] := by
  by_cases ends : Ends c
  · rw [(read_end ends rest).2] at reads
    exact field_end ends reads
  · rw [Ends, not_or] at ends
    by_cases broken : c = '\r' ∧ rest.head? = some '\n'
    · obtain ⟨rfl, first⟩ := broken
      obtain ⟨more, rfl⟩ := List.head?_eq_some_iff.mp first
      have feed : read .closed ('\r' :: '\n' :: more) = read .start ('\n' :: more) := rfl
      rw [feed] at reads
      exact field_end (.inr rfl) reads
    · have lost : read .closed (c :: rest) = none :=
        read.eq_9 c rest solid ends.1 ends.2
          (fun more same feed => broken ⟨same, feed ▸ rfl⟩)
      rw [lost] at reads
      cases reads

/-- A quoted field begins with no more quotes than stand in the text. -/
theorem quotes_le (reads : read .quoted s = some r) : quotes r.field ≤ quotes s := by
  induction length : s.length using Nat.strongRecOn generalizing s r with
  | _ length inductionHypothesis =>
    cases s with
    | nil => cases reads
    | cons c rest =>
      by_cases quote : c = '"'
      · subst quote
        have step : read .quoted ('"' :: rest) = read .closed rest := rfl
        rw [step] at reads
        cases rest with
        | nil =>
          obtain rfl := Option.some.inj reads
          exact Nat.zero_le _
        | cons d more =>
          by_cases doubled : d = '"'
          · subst doubled
            obtain ⟨inner, inside, rfl⟩ := Option.map_eq_some_iff.mp reads
            have fewer := inductionHypothesis more.length
              (by simp only [List.length_cons] at length; omega) inside rfl
            have front : (inner.prepend ['"']).field = '"' :: inner.field := rfl
            rw [front, quotes_cons, quotes_cons, quotes_cons]
            omega
          · rw [field_closed doubled reads]
            exact Nat.zero_le _
      · rw [read.eq_3 c rest quote] at reads
        obtain ⟨r, -, rfl⟩ := Option.map_eq_some_iff.mp reads
        have front : (r.prepend [c]).field = c :: r.field := rfl
        rw [front, quotes_solid quote]
        exact Nat.zero_le _

/-- A character that is read as one of an open field is none to escape. -/
theorem solid_of_field {mode : Mode} (open' : mode = .plain ∨ mode = .start) (quote : c ≠ '"')
    (reads : read mode (c :: rest) = some r) (same : r.field = c :: f) : c ∉ special := by
  have unquoted : mode ≠ .quoted ∧ mode ≠ .closed := by
    rcases open' with rfl | rfl
    · exact ⟨nofun, nofun⟩
    · exact ⟨nofun, nofun⟩
  have start (ends : Ends c) : read .start (c :: rest) = some r := by
    rcases open' with rfl | rfl
    · rwa [← (read_end ends rest).1]
    · exact reads
  intro member
  by_cases ends : Ends c
  · rw [field_end ends (start ends)] at same
    cases same
  · rw [Ends, not_or] at ends
    have ret : c = '\r' := by
      simp only [special, List.mem_cons, List.not_mem_nil, or_false] at member
      rcases member with comma | mark | feed | ret
      · exact absurd comma ends.1
      · exact absurd mark quote
      · exact absurd feed ends.2
      · exact ret
    subst ret
    by_cases feed : rest.head? = some '\n'
    · obtain ⟨more, rfl⟩ := List.head?_eq_some_iff.mp feed
      have broken : read .start ('\n' :: more) = some r := by
        rw [← reads, read.eq_8 mode more (fun impossible => unquoted.1 impossible)]
        rfl
      rw [field_end (.inr rfl) broken] at same
      cases same
    · rw [read.eq_11 mode '\r' rest nofun nofun (fun more _ same => feed (same ▸ rfl)) nofun
        (fun impossible => unquoted.1 impossible) nofun (fun impossible => unquoted.2 impossible)
        nofun, if_pos (.inr rfl)] at reads
      cases reads

/-- A plain field that comes back as it was written has nothing to escape. -/
theorem clean_of_plain (reads : read .plain (f ++ d :: tail) = some r) (same : r.field = f) :
    Clean f := by
  induction f generalizing r with
  | nil => exact fun _ member => by cases member
  | cons c f inductionHypothesis =>
    have quote : c ≠ '"' := by
      rintro rfl
      cases reads
    have solid := solid_of_field (.inl rfl) quote reads same
    rw [List.cons_append, (read_solid solid _).1] at reads
    obtain ⟨inner, inside, rfl⟩ := Option.map_eq_some_iff.mp reads
    have later := inductionHypothesis inside (List.cons.inj same).2
    exact List.forall_mem_cons.mpr ⟨solid, later⟩

/-- A field that comes back as it was written has nothing to escape. -/
theorem clean_of_read (ends : Ends d) (reads : read .start (f ++ d :: tail) = some r)
    (same : r.field = f) : Clean f := by
  cases f with
  | nil => exact fun _ member => by cases member
  | cons c f =>
    by_cases quote : c = '"'
    · -- The field would begin with more quotes than are left in the text.
      subst quote
      have step : read .start ('"' :: f ++ d :: tail) = read .quoted (f ++ d :: tail) := rfl
      rw [step] at reads
      have fewer := quotes_le reads
      have solid : d ≠ '"' := by
        rcases ends with rfl | rfl
        · decide
        · decide
      have enough : quotes (f ++ d :: tail) = quotes f := by
        rw [quotes, quotes, List.takeWhile_append]
        split_ifs with whole
        · rw [List.length_append, List.takeWhile_cons, beq_false_of_ne solid,
            if_neg Bool.false_ne_true, whole]
          rfl
        · rfl
      rw [same, quotes_cons, enough] at fewer
      omega
    · have solid := solid_of_field (.inr rfl) quote reads same
      rw [List.cons_append, (read_solid solid _).2] at reads
      obtain ⟨inner, inside, rfl⟩ := Option.map_eq_some_iff.mp reads
      have later := clean_of_plain inside (List.cons.inj same).2
      exact List.forall_mem_cons.mpr ⟨solid, later⟩

/-- Names that come back as they were written have nothing to escape. -/
theorem clean_of_line {rest : List Char}
    (reads : read .start ([','].intercalate (f :: fs) ++ '\n' :: rest) = some r)
    (same : r.field = f) (others : r.fields = fs) : ∀ name ∈ f :: fs, Clean name := by
  induction fs generalizing f r with
  | nil =>
    rw [List.intercalate_singleton] at reads
    intro name member
    obtain rfl := List.mem_singleton.mp member
    exact clean_of_read (.inr rfl) reads same
  | cons g fs inductionHypothesis =>
    rw [List.intercalate_cons_cons, List.append_assoc, List.append_assoc, List.singleton_append]
      at reads
    have clean := clean_of_read (.inl rfl) reads same
    have cut : read .start (',' :: ([','].intercalate (g :: fs) ++ '\n' :: rest)) =
        (read .start ([','].intercalate (g :: fs) ++ '\n' :: rest)).map Reading.comma := rfl
    rw [read_clean clean (.inl rfl), cut, Option.map_map] at reads
    obtain ⟨inner, inside, rfl⟩ := Option.map_eq_some_iff.mp reads
    obtain ⟨first, later⟩ := List.cons.inj others
    intro name member
    rcases List.mem_cons.mp member with rfl | inRest
    · exact clean
    · exact inductionHypothesis inside first later name inRest

end Csv
