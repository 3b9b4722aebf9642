import Mathlib.Data.Bool.AllAny
import LumidPlatform.Read.Lexical
import LumidPlatform.Read.Parse
import LumidPlatform.Read.Segments

/-!
# Placeholders and values

The client takes every question mark of a statement for its next value, wherever it stands. So a
lowering has to put a question mark for each bind of the statement and no other one. It does so
exactly where the texts that it copies have no question mark and no bind of their own, and where
no placeholder of the other dialect is written out in the text.
-/

namespace LumidPlatform.Read.Alignment

open LumidPlatform.Read.Ir LumidPlatform.Read.Dialect Rendered Lexical Segments
open LumidPlatform.Read.Dialect.ClickHouseDialect

/-! ## Marks -/

/-- What the client takes for its values, in order. -/
def marks (output : List Piece) : List Piece := output.filter (fun p => shown p == '?')

/-- Nothing is written, so nothing is a mark. -/
@[simp]
theorem marks_nil : marks [] = [] := rfl

/-- Marks are collected from left to right. -/
@[simp]
theorem marks_append (first second : List Piece) :
    marks (first ++ second) = marks first ++ marks second :=
  List.filter_append first second

/-- A bind is a mark. -/
@[simp]
theorem marks_bind (name : Str) (rest : List Piece) :
    marks (.bind name :: rest) = .bind name :: marks rest := rfl

/-- A copied character other than a question mark is none. -/
theorem marks_char {c : Char} (other : c ≠ '?') (rest : List Piece) :
    marks (.char c :: rest) = marks rest :=
  List.filter_cons_of_neg (by simpa [shown] using other)

/-- A copied question mark is a mark that stands for no bind. -/
theorem marks_question (rest : List Piece) :
    marks (.char '?' :: rest) = .char '?' :: marks rest := rfl

/-- The names of binds are collected from left to right. -/
@[simp]
theorem pieceNames_append (first second : List Piece) :
    pieceNames (first ++ second) = pieceNames first ++ pieceNames second := by
  induction first with
  | nil => rfl
  | cons piece rest inductionHypothesis =>
    cases piece with
    | char c => exact inductionHypothesis
    | bind name => exact congrArg (name :: ·) inductionHypothesis

/-- Copied characters name no bind. -/
theorem pieceNames_chars (text : Str) : pieceNames (text.map .char) = [] := by
  induction text with
  | nil => rfl
  | cons c rest inductionHypothesis => exact inductionHypothesis

/-- The marks are binds alone exactly when no question mark is copied. -/
theorem marks_eq_binds_iff {output : List Piece} {names : List Str} :
    marks output = names.map .bind ↔ .char '?' ∉ output ∧ pieceNames output = names := by
  induction output generalizing names with
  | nil =>
    cases names with
    | nil => simp [pieceNames]
    | cons name rest => simp [pieceNames]
  | cons piece rest inductionHypothesis =>
    cases piece with
    | char c =>
      by_cases question : c = '?'
      · subst question
        cases names with
        | nil => simp [marks_question]
        | cons name rest => simp [marks_question]
      · rw [marks_char question, inductionHypothesis, pieceNames, List.mem_cons, not_or]
        simp [Ne.symm question]
    | bind name =>
      cases names with
      | nil => simp [pieceNames]
      | cons first others => simp [pieceNames, inductionHypothesis, and_left_comm]

/-- A character that no bind covers is in a text when it is among the pieces. -/
theorem char_mem_pieces {c : Char} (plain : isIdent c = false) (noColon : c ≠ ':')
    {prevColon : Bool} {skipped : Nat} {sql : Str}
    (skips : ∀ d ∈ sql.take skipped, isIdent d = true) :
    .char c ∈ piecesFrom prevColon skipped sql ↔ c ∈ sql := by
  induction sql generalizing prevColon skipped with
  | nil => simp [piecesFrom]
  | cons d rest inductionHypothesis =>
    cases skipped with
    | succ left =>
      have other : c ≠ d := by
        rintro rfl
        rw [skips c List.mem_cons_self] at plain
        cases plain
      rw [piecesFrom, inductionHypothesis (fun e member => skips e (List.mem_cons_of_mem _ member))]
      simp [other]
    | zero =>
      cases found : bindAt prevColon d rest with
      | none =>
        simp only [piecesFrom, found, List.mem_cons, Piece.char.injEq]
        rw [inductionHypothesis (by simp)]
      | some name =>
        obtain ⟨rfl, covered⟩ := skips_of_bindAt found
        simp only [piecesFrom, found, List.mem_cons, reduceCtorEq, false_or, noColon]
        exact inductionHypothesis covered

/-- A text holds a question mark exactly if one of its pieces is one: no bind's name has any. -/
theorem question_mem_pieces (text : Str) : .char '?' ∈ pieces text ↔ '?' ∈ text :=
  char_mem_pieces (by decide) (by decide) (by simp)

/-! ## Segments -/

/-- The pieces that are written for segments. -/
def outputOf (segments : List Segment) : List Piece := segments.flatMap Segment.output

/-- The pieces of the statement that segments stand for. -/
def sourceOf (segments : List Segment) : List Piece := segments.flatMap Segment.source

/-- The copied pieces of a text, shown, are the text as a lowering writes it. -/
theorem shown_copied (ps : List Piece) :
    (ps.flatMap copied).map shown = ps.flatMap pieceText := by
  rw [List.map_flatMap]
  refine List.flatMap_congr fun piece _ => ?_
  cases piece with
  | char c => simp [copied, pieceText, shown, Function.comp_def]
  | bind name => rfl

/-- Characters are shown as they are. -/
theorem shown_chars (text : Str) : (text.map Piece.char).map shown = text := by
  simp [shown, Function.comp_def]

/-- The pieces that a segment is written as, shown, are its text. -/
theorem shown_output (segment : Segment) : segment.output.map shown = segment.text := by
  cases segment with
  | fixed text => exact shown_chars text
  | verbatim text => exact shown_chars text
  | lowered text => exact shown_copied (pieces text)
  | bind name => rfl

/-- So the pieces of all segments, shown, are the SQL. -/
theorem shown_outputOf (segments : List Segment) :
    (outputOf segments).map shown = written segments := by
  rw [outputOf, List.map_flatMap, written]
  exact List.flatMap_congr fun segment _ => shown_output segment

/-- Copying keeps the names of the binds that stand in a text. -/
theorem pieceNames_copied (ps : List Piece) : pieceNames (ps.flatMap copied) = pieceNames ps := by
  induction ps with
  | nil => rfl
  | cons piece rest inductionHypothesis =>
    rw [List.flatMap_cons, pieceNames_append, inductionHypothesis]
    cases piece with
    | char c =>
      rw [copied, pieceNames_chars]
      rfl
    | bind name => rfl

/-- The marks that a segment is written as stand for the binds that it pushes. -/
theorem pieceNames_output (segment : Segment) : pieceNames segment.output = segment.names := by
  cases segment with
  | fixed text => exact pieceNames_chars text
  | verbatim text => exact pieceNames_chars text
  | lowered text => exact pieceNames_copied (pieces text)
  | bind name => rfl

/-- So the marks of the SQL that stand for a bind stand for the pushed ones, in order. -/
theorem pieceNames_outputOf (segments : List Segment) :
    pieceNames (outputOf segments) = boundNames segments := by
  induction segments with
  | nil => rfl
  | cons segment rest inductionHypothesis =>
    rw [outputOf, List.flatMap_cons, pieceNames_append, pieceNames_output, boundNames_cons]
    exact congrArg (segment.names ++ ·) inductionHypothesis

/-- A text that can be copied: no question mark and no bind. -/
def Quiet (text : Str) : Prop := '?' ∉ text ∧ bindNames text = []

instance (text : Str) : Decidable (Quiet text) := inferInstanceAs (Decidable (_ ∧ _))

/-- A segment whose own text makes no mark and keeps no bind. -/
def Plain : Segment → Prop
  | .verbatim text => Quiet text
  | .lowered text => '?' ∉ text
  | _ => True

instance (segment : Segment) : Decidable (Plain segment) :=
  match segment with
  | .verbatim text => inferInstanceAs (Decidable (Quiet text))
  | .lowered text => inferInstanceAs (Decidable ('?' ∉ text))
  | .fixed _ => isTrue trivial
  | .bind _ => isTrue trivial

/-- A keyword of the lowering is plain. -/
@[simp]
theorem plain_fixed (text : Str) : Plain (.fixed text) := trivial

/-- A text that is copied as it is must be quiet: without question marks and without binds. -/
@[simp]
theorem plain_verbatim (text : Str) : Plain (.verbatim text) ↔ Quiet text := Iff.rfl

/-- A text whose binds are replaced must have no question mark of its own. -/
@[simp]
theorem plain_lowered (text : Str) : Plain (.lowered text) ↔ '?' ∉ text := Iff.rfl

/-- A bind alone is plain. -/
@[simp]
theorem plain_bind (name : Str) : Plain (.bind name) := trivial

/-- Segments whose fixed texts have no question mark. -/
def Unmarked (segments : List Segment) : Prop := ∀ text, .fixed text ∈ segments → '?' ∉ text

/-- A text is written with a question mark exactly if it has one. -/
theorem question_mem_chars (text : Str) : .char '?' ∈ text.map Piece.char ↔ '?' ∈ text := by
  simp [List.mem_map]

/-- A question mark among copied pieces is copied from one. -/
theorem question_mem_copied (ps : List Piece) :
    .char '?' ∈ ps.flatMap copied ↔ .char '?' ∈ ps := by
  rw [List.mem_flatMap]
  constructor
  · rintro ⟨piece, member, shows⟩
    cases piece with
    | char c =>
      obtain ⟨d, within, same⟩ := List.mem_map.mp shows
      obtain rfl := Piece.char.inj same
      obtain rfl := (Text.mem_pushBytes (by decide)).mp within
      exact member
    | bind name => simp [copied] at shows
  · intro member
    exact ⟨.char '?', member, List.mem_map.mpr ⟨'?', (Text.mem_pushBytes (by decide)).mpr rfl, rfl⟩⟩

/-- A segment pushes at most the binds of its source: one that is copied pushes none. -/
theorem boundNames_le (segment : Segment) :
    segment.names.length ≤ (pieceNames segment.source).length := by
  cases segment with
  | fixed text => exact Nat.zero_le _
  | verbatim text => exact Nat.zero_le _
  | lowered text => exact Nat.le_refl _
  | bind name => exact Nat.le_refl _

/-- The same for a list of segments, by induction on it. -/
theorem names_le (segments : List Segment) :
    (boundNames segments).length ≤ (pieceNames (sourceOf segments)).length := by
  induction segments with
  | nil => exact Nat.le_refl 0
  | cons segment rest inductionHypothesis =>
    have here := boundNames_le segment
    rw [boundNames_cons, sourceOf, List.flatMap_cons, pieceNames_append, List.length_append,
      List.length_append]
    exact Nat.add_le_add here inductionHypothesis

/-- A segment is plain when it copies no question mark and lowers every bind. -/
theorem plain_iff {segment : Segment} (unmarked : Unmarked [segment]) :
    Plain segment ↔
      .char '?' ∉ segment.output ∧ segment.names = pieceNames segment.source := by
  cases segment with
  | fixed text =>
    have quiet := unmarked text List.mem_cons_self
    simp [Plain, Segment.output, Segment.source, Segment.names, pieceNames_chars, quiet]
  | verbatim text =>
    have noNames : (Segment.verbatim text).names = [] := rfl
    rw [Plain, Quiet, Segment.output, question_mem_chars, noNames, Segment.source,
      @eq_comm _ _ (pieceNames (pieces text))]
    rfl
  | lowered text =>
    rw [Plain, Segment.output, question_mem_copied, question_mem_pieces, Segment.names,
      Segment.source]
    simp [bindNames]
  | bind name => simp [Plain, Segment.output, Segment.source, Segment.names, pieceNames]

/-- Segments write marks for the binds of the statement alone exactly when each is plain. -/
theorem marks_outputOf_iff {segments : List Segment} (unmarked : Unmarked segments) :
    marks (outputOf segments) = (pieceNames (sourceOf segments)).map .bind ↔
      ∀ segment ∈ segments, Plain segment := by
  rw [marks_eq_binds_iff, pieceNames_outputOf]
  induction segments with
  | nil => simp [outputOf, sourceOf, pieceNames]
  | cons segment rest inductionHypothesis =>
    have here : Unmarked [segment] := fun text member =>
      unmarked text (List.mem_cons.mpr (Or.inl (List.mem_singleton.mp member)))
    have behind : Unmarked rest := fun text member => unmarked text (List.mem_cons_of_mem _ member)
    have pieces : pieceNames (sourceOf (segment :: rest)) =
        pieceNames segment.source ++ pieceNames (sourceOf rest) := by
      rw [sourceOf, List.flatMap_cons, pieceNames_append]
      rfl
    have names : boundNames (segment :: rest) = pieceNames (sourceOf (segment :: rest)) ↔
        segment.names = pieceNames segment.source ∧
          boundNames rest = pieceNames (sourceOf rest) := by
      rw [pieces, boundNames_cons]
      constructor
      · intro same
        have first := boundNames_le segment
        have others := names_le rest
        have total := congrArg List.length same
        rw [List.length_append, List.length_append] at total
        exact List.append_inj same (by omega)
      · rintro ⟨first, others⟩
        rw [first, others]
    have written : .char '?' ∉ outputOf (segment :: rest) ↔
        .char '?' ∉ segment.output ∧ .char '?' ∉ outputOf rest := by
      rw [outputOf, List.flatMap_cons, List.mem_append, not_or]
      rfl
    rw [written, names, List.forall_mem_cons, ← inductionHypothesis behind, plain_iff here,
      and_and_and_comm]

/-! ## Queries -/

/-- A query whose copied texts make no mark and keep no bind: the references to tables, the
columns, literals and function names of its predicates, and the items it is grouped and ordered
by. Its other texts are lowered, and have no question mark either. -/
structure PlainQuery (ir : QueryIr) : Prop where
  select : ∀ item ∈ ir.select, '?' ∉ item.text
  «from» : Quiet ir.from.render
  joins : ∀ j ∈ ir.joins, Quiet j.table.render ∧ '?' ∉ j.on
  where_ : ∀ p ∈ ir.where_, ∀ segment ∈ predicateSegments p, Plain segment
  groupBy : ∀ item ∈ ir.groupBy, Quiet item
  orderBy : ∀ o ∈ ir.orderBy, Quiet o.expr

/-- A list joined by a keyword is plain if its parts are. -/
theorem plain_join {between : Str} {parts : List (List Segment)} :
    (∀ segment ∈ join between parts, Plain segment) ↔
      ∀ part ∈ parts, ∀ segment ∈ part, Plain segment := by
  induction parts with
  | nil => simp [join]
  | cons part rest inductionHypothesis =>
    cases rest with
    | nil => simp [join]
    | cons next more =>
      rw [join, List.forall_mem_append, List.forall_mem_cons, inductionHypothesis,
        List.forall_mem_cons]
      · simp
      · exact List.cons_ne_nil next more

/-- So is a clause, if its parts are. -/
theorem plain_clause {keyword between : Str} {parts : List (List Segment)} :
    (∀ segment ∈ clauseSegments keyword between parts, Plain segment) ↔
      ∀ part ∈ parts, ∀ segment ∈ part, Plain segment := by
  rw [clauseSegments]
  cases parts with
  | nil => simp
  | cons part rest =>
    rw [if_neg (by simp), List.forall_mem_cons, plain_join]
    simp

/-- A limit is always plain. -/
theorem plain_limit (limit : Option Limit) :
    ∀ segment ∈ (limit.map limitSegments).getD [], Plain segment := by
  cases limit with
  | none => simp
  | some lim =>
    cases lim with
    | lit n => simp [limitSegments]
    | bind name => simp [limitSegments]

/-- The segments of a query are plain exactly if the texts that are copied into it are quiet and
those that are lowered have no question mark. -/
theorem plain_query_iff {dialect : ClickHouseDialect} {ir : QueryIr} :
    (∀ segment ∈ querySegments dialect ir, Plain segment) ↔ PlainQuery ir := by
  have joined : (∀ segment ∈ ir.joins.flatMap joinSegments, Plain segment) ↔
      ∀ j ∈ ir.joins, Quiet j.table.render ∧ '?' ∉ j.on := by
    rw [List.forall_mem_flatMap]
    refine forall₂_congr fun j _ => ?_
    simp [joinSegments]
  have split : ((∀ p ∈ (dialect.splitPrewhere ir.where_).1, ∀ segment ∈ predicateSegments p,
        Plain segment) ∧
      ∀ p ∈ (dialect.splitPrewhere ir.where_).2, ∀ segment ∈ predicateSegments p,
        Plain segment) ↔ ∀ p ∈ ir.where_, ∀ segment ∈ predicateSegments p, Plain segment := by
    rw [← forall₂_or_left]
    exact forall_congr' fun p => by rw [← mem_splitPrewhere]
  have limited := plain_limit ir.limit
  simp only [querySegments, List.forall_mem_append, List.forall_mem_cons, plain_join, plain_clause,
    List.forall_mem_map, joined, plain_fixed, plain_verbatim, plain_lowered, List.not_mem_nil,
    false_implies, implies_true, and_true, true_and]
  constructor
  · rintro ⟨⟨⟨⟨⟨⟨⟨select, table⟩, joins⟩, before⟩, behind⟩, groups⟩, orders⟩, -⟩
    exact ⟨select, table, joins, split.mp ⟨before, behind⟩, groups, orders⟩
  · rintro ⟨select, table, joins, conjuncts, groups, orders⟩
    obtain ⟨before, behind⟩ := split.mpr conjuncts
    exact ⟨⟨⟨⟨⟨⟨⟨select, table⟩, joins⟩, before⟩, behind⟩, groups⟩, orders⟩, limited⟩

/-! ### The texts of the lowering -/

/-- Two lists without a question mark in their keywords make one without. -/
theorem unmarked_append {first second : List Segment} (before : Unmarked first)
    (behind : Unmarked second) : Unmarked (first ++ second) := by
  intro text member
  rcases List.mem_append.mp member with left | right
  · exact before text left
  · exact behind text right

/-- The same for one more segment. -/
theorem unmarked_cons {segment : Segment} {rest : List Segment}
    (here : ∀ text, segment = .fixed text → '?' ∉ text) (behind : Unmarked rest) :
    Unmarked (segment :: rest) := by
  intro text member
  rcases List.mem_cons.mp member with same | later
  · exact here text same.symm
  · exact behind text later

/-- The same for one more keyword. -/
theorem unmarked_fixed {text : Str} {rest : List Segment} (quiet : '?' ∉ text)
    (behind : Unmarked rest) : Unmarked (.fixed text :: rest) :=
  unmarked_cons (fun _ same => Segment.fixed.inj same ▸ quiet) behind

/-- No segments have no keywords. -/
theorem unmarked_nil : Unmarked [] := fun _ member => absurd member List.not_mem_nil

/-- A list joined by such a keyword is one without. -/
theorem unmarked_join {between : Str} {parts : List (List Segment)} (quiet : '?' ∉ between)
    (each : ∀ part ∈ parts, Unmarked part) : Unmarked (join between parts) := by
  induction parts with
  | nil => exact unmarked_nil
  | cons part rest inductionHypothesis =>
    have here := each part List.mem_cons_self
    cases rest with
    | nil => exact here
    | cons next more =>
      have behind := inductionHypothesis
        (fun other member => each other (List.mem_cons_of_mem _ member))
      rw [join]
      · exact unmarked_append here (unmarked_fixed quiet behind)
      · exact List.cons_ne_nil next more

/-- So is a clause. -/
theorem unmarked_clause {keyword between : Str} {parts : List (List Segment)}
    (quietKeyword : '?' ∉ keyword) (quiet : '?' ∉ between)
    (each : ∀ part ∈ parts, Unmarked part) : Unmarked (clauseSegments keyword between parts) := by
  rw [clauseSegments]
  split_ifs
  · exact unmarked_nil
  · exact unmarked_fixed quietKeyword (unmarked_join quiet each)

/-- The texts between the parts of a predicate have no question mark. -/
theorem question_not_mem_ch (ty : IrType) : '?' ∉ ty.ch.getD [] := by
  cases ty with
  | other spelling => simp [IrType.ch]
  | _ => decide

/-- No comparison is spelled with a question mark. -/
theorem question_not_mem_op (op : CmpOp) : '?' ∉ op.sql := by
  cases op <;> decide

/-- Nor is a number. -/
theorem question_not_mem_showInt (i : Int) : '?' ∉ Text.showInt i := by
  have digits (n : Nat) : '?' ∉ Text.showNat n := fun member =>
    absurd (Text.isDigit_of_mem_showNat member) (by decide)
  cases i with
  | ofNat n => exact digits n
  | negSucc n =>
    rw [Text.showInt, List.mem_cons, not_or]
    exact ⟨by decide, digits (n + 1)⟩

mutual

/-- No keyword of an expression has a question mark, by induction on the expression. -/
theorem unmarked_expr : ∀ e : Expr, Unmarked (exprSegments e)
  | .col c => unmarked_cons (fun _ same => nomatch same) unmarked_nil
  | .lit l => unmarked_cons (fun _ same => nomatch same) unmarked_nil
  | .bind name => unmarked_cons (fun _ same => nomatch same) unmarked_nil
  | .fn name args => by
    have arguments : Unmarked (join ", ".str (exprsSegments args)) :=
      unmarked_join (by decide) (unmarked_exprs args)
    rw [exprSegments]
    exact unmarked_append (unmarked_cons (fun _ same => nomatch same)
      (unmarked_fixed (by decide) arguments)) (unmarked_fixed (by decide) unmarked_nil)
  | .cast expr ty => by
    have quiet : '?' ∉ " AS ".str ++ ty.ch.getD [] ++ [')'] := by
      rw [List.mem_append, List.mem_append, not_or, not_or]
      exact ⟨⟨by decide, question_not_mem_ch ty⟩, by decide⟩
    rw [exprSegments]
    exact unmarked_append (unmarked_fixed (by decide) (unmarked_expr expr))
      (unmarked_fixed quiet unmarked_nil)
  | .raw t => unmarked_cons (fun _ same => nomatch same) unmarked_nil

/-- The same for the arguments of a function. -/
theorem unmarked_exprs : ∀ es : List Expr, ∀ part ∈ exprsSegments es, Unmarked part
  | [], part, member => absurd member List.not_mem_nil
  | e :: rest, part, member => by
    rw [exprsSegments, List.mem_cons] at member
    rcases member with rfl | later
    · exact unmarked_expr e
    · exact unmarked_exprs rest part later

end

/-- The same for a filter. -/
theorem unmarked_predicate (p : Predicate) : Unmarked (predicateSegments p) := by
  have closing : Unmarked [.fixed [')']] := unmarked_fixed (by decide) unmarked_nil
  induction p with
  | compare lhs op rhs =>
    have quiet : '?' ∉ ' ' :: op.sql ++ [' '] := by
      rw [List.mem_append, List.mem_cons, not_or, not_or]
      exact ⟨⟨by decide, question_not_mem_op op⟩, by decide⟩
    exact unmarked_append (unmarked_expr lhs) (unmarked_fixed quiet (unmarked_expr rhs))
  | inList expr items negated =>
    have quiet : '?' ∉ ' ' :: (if negated then "NOT IN".str else "IN".str) ++ " (".str := by
      cases negated <;> decide
    have list : Unmarked (join ", ".str (exprsSegments items)) :=
      unmarked_join (by decide) (unmarked_exprs items)
    exact unmarked_append (unmarked_append (unmarked_expr expr) (unmarked_fixed quiet list)) closing
  | and a b left right =>
    exact unmarked_append (unmarked_append (unmarked_fixed (by decide) left)
      (unmarked_fixed (by decide) right)) closing
  | or a b left right =>
    exact unmarked_append (unmarked_append (unmarked_fixed (by decide) left)
      (unmarked_fixed (by decide) right)) closing
  | not a inner => exact unmarked_append (unmarked_fixed (by decide) inner) closing
  | raw t => exact unmarked_cons (fun _ same => nomatch same) unmarked_nil

/-- So every question mark of a lowered query that stands for no bind is copied from a clause text.
-/
theorem unmarked_query (dialect : ClickHouseDialect) (ir : QueryIr) :
    Unmarked (querySegments dialect ir) := by
  have single (segment : Segment) (here : ∀ text, segment = .fixed text → '?' ∉ text) :
      Unmarked [segment] := unmarked_cons here unmarked_nil
  have items : Unmarked (.fixed "SELECT ".str ::
      join ", ".str (ir.select.map (fun item => [.lowered item.text]))) := by
    refine unmarked_fixed (by decide) (unmarked_join (by decide) fun part member => ?_)
    obtain ⟨item, -, rfl⟩ := List.mem_map.mp member
    exact single _ (fun _ same => nomatch same)
  have tables : Unmarked [.fixed " FROM ".str, .verbatim ir.from.render,
      .fixed (if dialect.final_ then " FINAL".str else [])] := by
    have final : '?' ∉ if dialect.final_ then " FINAL".str else [] := by
      cases dialect.final_ <;> decide
    exact unmarked_fixed (by decide) (unmarked_cons (fun _ same => nomatch same)
      (unmarked_fixed final unmarked_nil))
  have joins : Unmarked (ir.joins.flatMap joinSegments) := by
    intro text member
    obtain ⟨j, -, within⟩ := List.mem_flatMap.mp member
    have keyword : '?' ∉ ' ' :: j.kind.keyword ++ [' '] := by
      cases j.kind <;> decide
    have each : Unmarked (joinSegments j) :=
      unmarked_fixed keyword (unmarked_cons (fun _ same => nomatch same)
        (unmarked_fixed (by decide) (unmarked_cons (fun _ same => nomatch same) unmarked_nil)))
    exact each text within
  have conjuncts (conj : List Predicate) :
      ∀ part ∈ conj.map predicateSegments, Unmarked part := by
    intro part member
    obtain ⟨p, -, rfl⟩ := List.mem_map.mp member
    exact unmarked_predicate p
  have groups : Unmarked (clauseSegments " GROUP BY ".str ", ".str
      (ir.groupBy.map (fun s => [.verbatim s]))) := by
    refine unmarked_clause (by decide) (by decide) fun part member => ?_
    obtain ⟨s, -, rfl⟩ := List.mem_map.mp member
    exact single _ (fun _ same => nomatch same)
  have orders : Unmarked (clauseSegments " ORDER BY ".str ", ".str
      (ir.orderBy.map (fun o => [.verbatim o.expr, .fixed (' ' :: o.dir.keyword)]))) := by
    refine unmarked_clause (by decide) (by decide) fun part member => ?_
    obtain ⟨o, -, rfl⟩ := List.mem_map.mp member
    have keyword : '?' ∉ ' ' :: o.dir.keyword := by
      cases o.dir <;> decide
    exact unmarked_cons (fun _ same => nomatch same) (unmarked_fixed keyword unmarked_nil)
  have limit : Unmarked ((ir.limit.map limitSegments).getD []) := by
    cases ir.limit with
    | none => exact unmarked_nil
    | some lim =>
      cases lim with
      | lit n =>
        have quiet : '?' ∉ " LIMIT ".str ++ Text.showInt n := by
          rw [List.mem_append, not_or]
          exact ⟨by decide, question_not_mem_showInt n⟩
        exact unmarked_fixed quiet unmarked_nil
      | bind name =>
        exact unmarked_fixed (by decide) (single _ (fun _ same => nomatch same))
  exact unmarked_append (unmarked_append (unmarked_append (unmarked_append (unmarked_append
    (unmarked_append (unmarked_append items tables) joins)
    (unmarked_clause (by decide) (by decide) (conjuncts _)))
    (unmarked_clause (by decide) (by decide) (conjuncts _))) groups) orders) limit

/-! ## Placeholders of the other dialect -/

/-- A lowered text, each character with the bind whose placeholder it begins. -/
def tagged (values : HashMap BindValue) : Nat → List Piece → List (Char × Option Str)
  | _, [] => []
  | n, .char c :: rest => (Text.pushBytes c).map (·, none) ++ tagged values n rest
  | n, .bind name :: rest =>
    match values.lookup name with
    | some v =>
      ('$', some name) :: (pgPlaceholder n v).tail.map (·, none) ++ tagged values (n + 1) rest
    | none => []

/-- The translation of placeholders, with the binds that they came from. -/
def translated : Nat → List (Char × Option Str) → List Piece
  | _, [] => []
  | left + 1, _ :: rest => translated left rest
  | 0, (c, origin) :: rest =>
    match (if c = '$' then pgPlaceholderLength (rest.map Prod.fst) else none) with
    | some length => (origin.map .bind).getD (.char '?') :: translated length rest
    | none => (Text.pushBytes c).map .char ++ translated 0 rest

/-- Whether a text has a question mark, or a placeholder written out. -/
def spelled : Str → Bool
  | [] => false
  | c :: rest => c == '?' || (c == '$' && rest.head?.any Text.isAsciiDigit) || spelled rest

/-- The Postgres lowering, followed character by character: what it writes is the tagged text
without its tags. -/
theorem lowerPieces_tagged {values : HashMap BindValue} {out : Str} {ordered : List BindValue}
    {ps : List Piece} {result : Str × List BindValue}
    (lowered : lowerPieces pgPlaceholder values out ordered ps = .ok result) :
    result.1 = out ++ (tagged values (ordered.length + 1) ps).map Prod.fst := by
  induction ps generalizing out ordered with
  | nil =>
    obtain rfl := Except.ok.inj lowered
    simp [tagged]
  | cons piece rest inductionHypothesis =>
    cases piece with
    | char c =>
      rw [inductionHypothesis lowered]
      simp [tagged, Function.comp_def]
    | bind name =>
      rw [lowerPieces] at lowered
      cases found : values.lookup name with
      | none => simp [found] at lowered
      | some v =>
        simp only [found] at lowered
        rw [inductionHypothesis lowered]
        simp [tagged, found, pgPlaceholder, Function.comp_def]

/-- The ClickHouse rewriting of the tagged text is the rewriting of the text itself. -/
theorem shown_translated (left : Nat) (text : List (Char × Option Str)) :
    (translated left text).map shown = pgPlaceholdersToChFrom left (text.map Prod.fst) := by
  induction text generalizing left with
  | nil => cases left <;> rfl
  | cons entry rest inductionHypothesis =>
    obtain ⟨c, origin⟩ := entry
    cases left with
    | succ left => exact inductionHypothesis left
    | zero =>
      cases found : (if c = '$' then pgPlaceholderLength (rest.map Prod.fst) else none) with
      | none =>
        simp only [translated, pgPlaceholdersToChFrom, List.map_cons, found]
        rw [List.map_append, inductionHypothesis, shown_chars]
      | some length =>
        simp only [translated, pgPlaceholdersToChFrom, List.map_cons, found]
        rw [inductionHypothesis]
        cases origin with
        | none => rfl
        | some name => rfl

/-! ### What the translation skips -/

/-- A dollar sign begins a placeholder exactly if a digit follows it. -/
theorem length_eq_none_iff (rest : Str) :
    pgPlaceholderLength rest = none ↔ rest.head?.any Text.isAsciiDigit = false := by
  cases rest with
  | nil => simp [pgPlaceholderLength]
  | cons d more =>
    cases digit : Text.isAsciiDigit d with
    | true => simp [pgPlaceholderLength, digit]
    | false => simp [pgPlaceholderLength, digit]

/-- A character that is no mark and begins none. -/
def Dull (c : Char) : Prop := c ≠ '$' ∧ c ≠ '?'

instance : DecidablePred Dull := fun _ => inferInstanceAs (Decidable (_ ∧ _))

/-- A placeholder covers digits and the characters of a cast. -/
theorem forall_take_of_length {P : Char → Prop}
    (digits : ∀ c, Text.isAsciiDigit c = true → P c)
    (casts : ∀ c ∈ "::int8".str ++ "::float8".str, P c) {rest : Str} {length : Nat}
    (found : pgPlaceholderLength rest = some length) : ∀ c ∈ rest.take length, P c := by
  have cut (suffix : Str) (within : ∀ c ∈ suffix, P c)
      (begins : Text.startsWith (rest.drop (rest.takeWhile Text.isAsciiDigit).length) suffix =
        true) :
      ∀ c ∈ rest.take ((rest.takeWhile Text.isAsciiDigit).length + suffix.length), P c := by
    intro c member
    rw [List.take_add, ← List.prefix_iff_eq_take.mp (List.takeWhile_prefix _),
      ← List.prefix_iff_eq_take.mp (List.isPrefixOf_iff_prefix.mp begins)] at member
    rcases List.mem_append.mp member with first | second
    · exact digits c (List.mem_takeWhile_imp first)
    · exact within c second
  rw [pgPlaceholderLength] at found
  split_ifs at found with empty
  obtain rfl := Option.some.inj found
  split_ifs with int float
  · exact cut "::int8".str (fun c member => casts c (List.mem_append_left _ member)) int
  · exact cut "::float8".str (fun c member => casts c (List.mem_append_right _ member)) float
  · exact cut [] (by simp) (by simp [Text.startsWith])

/-- A digit is neither a dollar sign nor a question mark. -/
theorem dull_of_digit {c : Char} (digit : Text.isAsciiDigit c = true) : Dull c := by
  constructor
  · rintro rfl
    exact absurd digit (by decide)
  · rintro rfl
    exact absurd digit (by decide)

/-- A placeholder is over before the next mark. -/
theorem dull_of_length {rest : Str} {length : Nat}
    (found : pgPlaceholderLength rest = some length) : ∀ c ∈ rest.take length, Dull c :=
  forall_take_of_length (fun _ => dull_of_digit) (List.all_iff_forall_prop.mp (by decide)) found

/-- The bytes of a character other than a question mark make no marks, also where the rewriting
reads each byte as a character. -/
theorem marks_pushBytes {c : Char} (other : c ≠ '?') :
    marks ((Text.pushBytes c).map .char) = [] := by
  rw [marks, List.filter_eq_nil_iff]
  intro piece member
  obtain ⟨d, within, rfl⟩ := List.mem_map.mp member
  rw [shown, beq_iff_eq]
  rintro rfl
  exact other ((Text.mem_pushBytes (by decide)).mp within).symm

/-- A dull character makes no mark. -/
theorem translated_dull {c : Char} {origin : Option Str} (dull : Dull c)
    (rest : List (Char × Option Str)) :
    marks (translated 0 ((c, origin) :: rest)) = marks (translated 0 rest) := by
  have copies : translated 0 ((c, origin) :: rest) =
      (Text.pushBytes c).map .char ++ translated 0 rest := by
    simp only [translated, if_neg dull.1]
  rw [copies, marks_append, marks_pushBytes dull.2, List.nil_append]

/-- Characters that the rewriting passes over inside a placeholder leave no marks. -/
theorem translated_skip {left : Nat} {text : List (Char × Option Str)}
    (dull : ∀ c ∈ (text.map Prod.fst).take left, Dull c) :
    marks (translated left text) = marks (translated 0 text) := by
  induction text generalizing left with
  | nil => cases left <;> rfl
  | cons entry rest inductionHypothesis =>
    cases left with
    | zero => rfl
    | succ left =>
      rw [translated_dull (dull entry.1 List.mem_cons_self)]
      exact inductionHypothesis (fun c member => dull c (List.mem_cons_of_mem _ member))

/-- Dull characters in front of a text leave no marks. -/
theorem translated_front {front text : List (Char × Option Str)}
    (dull : ∀ entry ∈ front, Dull entry.1) :
    marks (translated 0 (front ++ text)) = marks (translated 0 text) := by
  induction front with
  | nil => rfl
  | cons entry rest inductionHypothesis =>
    rw [List.cons_append, translated_dull (dull entry List.mem_cons_self)]
    exact inductionHypothesis (fun other member => dull other (List.mem_cons_of_mem _ member))

/-! ### Marks of the translation -/

/-- A character beyond ASCII is no digit. -/
theorem isDigit_foreign {c : Char} (foreign : Text.isAscii c = false) :
    Text.isAsciiDigit c = false := by
  simp only [Text.isAscii, decide_eq_false_iff_not, not_lt] at foreign
  simp only [Text.isAsciiDigit, Bool.and_eq_false_iff, decide_eq_false_iff_not]
  omega

/-- The text goes on with a digit when what is lowered does. -/
theorem head_tagged (values : HashMap BindValue) (n : Nat) (prevColon : Bool) (rest : Str) :
    ((tagged values n (piecesFrom prevColon 0 rest)).map Prod.fst).head?.any Text.isAsciiDigit =
      rest.head?.any Text.isAsciiDigit := by
  cases rest with
  | nil => rfl
  | cons d more =>
    cases found : bindAt prevColon d more with
    | some name =>
      obtain ⟨rfl, -⟩ := skips_of_bindAt found
      simp only [piecesFrom, found, tagged]
      cases values.lookup name with
      | none => rfl
      | some v => rfl
    | none =>
      simp only [piecesFrom, found, tagged, List.map_append, List.map_map]
      by_cases ascii : Text.isAscii d = true
      · rw [Text.pushBytes_ascii ascii]
        rfl
      · have foreign := Bool.eq_false_iff.mpr ascii
        have bytes := Text.pushBytes_foreign foreign
        cases written : Text.pushBytes d with
        | nil => exact absurd written (Text.pushBytes_ne_nil d)
        | cons e others =>
          rw [written] at bytes
          have first := isDigit_foreign (bytes e List.mem_cons_self)
          simp [first, isDigit_foreign foreign]

/-- A placeholder of the other dialect is a dollar sign, digits and a cast. -/
theorem tail_pgPlaceholder (n : Nat) (v : BindValue) :
    ∃ cast, (pgPlaceholder n v).tail = Text.showNat n ++ cast ∧ ∀ c ∈ cast, Dull c := by
  cases v with
  | int i => exact ⟨"::int8".str, rfl, List.all_iff_forall_prop.mp (by decide)⟩
  | float f => exact ⟨"::float8".str, rfl, List.all_iff_forall_prop.mp (by decide)⟩
  | _ => exact ⟨[], rfl, by simp⟩

/-- It is translated to the mark of its bind. -/
theorem translated_placeholder (name : Str) (n : Nat) (v : BindValue)
    (rest : List (Char × Option Str)) :
    marks (translated 0 (('$', some name) :: (pgPlaceholder n v).tail.map (·, none) ++ rest)) =
      .bind name :: marks (translated 0 rest) := by
  obtain ⟨cast, tail, dullCast⟩ := tail_pgPlaceholder n v
  have dull : ∀ entry ∈ (pgPlaceholder n v).tail.map (fun c => (c, (none : Option Str))),
      Dull entry.1 := by
    intro entry member
    obtain ⟨c, within, rfl⟩ := List.mem_map.mp member
    rw [tail, List.mem_append] at within
    rcases within with number | suffix
    · exact dull_of_digit (Text.isAsciiDigit_of_mem_showNat number)
    · exact dullCast c suffix
  have begins : (((pgPlaceholder n v).tail.map (fun c => (c, (none : Option Str))) ++ rest).map
      Prod.fst).head?.any Text.isAsciiDigit = true := by
    rw [tail]
    cases written : Text.showNat n with
    | nil => exact absurd written Nat.toDigits_ne_nil
    | cons d others =>
      have first : d ∈ Text.showNat n := written ▸ List.mem_cons_self
      simp [Text.isAsciiDigit_of_mem_showNat first]
  cases found : pgPlaceholderLength
      (((pgPlaceholder n v).tail.map (fun c => (c, (none : Option Str))) ++ rest).map Prod.fst) with
  | none =>
    rw [(length_eq_none_iff _).mp found] at begins
    cases begins
  | some length =>
    have step : translated 0 (('$', some name) ::
        ((pgPlaceholder n v).tail.map (·, none) ++ rest)) =
          .bind name :: translated length ((pgPlaceholder n v).tail.map (·, none) ++ rest) := by
      simp only [translated, if_pos, found]
      rfl
    rw [List.cons_append, step, marks_bind, translated_skip (dull_of_length found),
      translated_front dull]

/-- A question mark among the marks is that of no bind. -/
theorem question_ne_binds (output : List Piece) (names : List Str) :
    .char '?' :: marks output ≠ names.map .bind := by
  cases names with
  | nil => simp
  | cons name rest => simp

/-- A character that is part of no mark stays one when its bytes are pushed. -/
theorem dull_pushBytes {c : Char} (dull : Dull c) :
    ∀ entry ∈ (Text.pushBytes c).map (fun d => (d, (none : Option Str))), Dull entry.1 := by
  intro entry member
  obtain ⟨d, within, rfl⟩ := List.mem_map.mp member
  constructor
  · rintro rfl
    exact dull.1 ((Text.mem_pushBytes (by decide)).mp within).symm
  · rintro rfl
    exact dull.2 ((Text.mem_pushBytes (by decide)).mp within).symm

/-- A dollar sign that is copied begins a mark exactly when a digit follows it. -/
theorem marks_dollar_iff {values : HashMap BindValue} {n : Nat} {prevColon : Bool} {rest : Str}
    {names : List Str}
    (behind : marks (translated 0 (tagged values n (piecesFrom prevColon 0 rest))) =
      names.map .bind ↔ spelled rest = false) :
    marks (translated 0 ((Text.pushBytes '$').map (·, none) ++
        tagged values n (piecesFrom prevColon 0 rest))) = names.map .bind ↔
      spelled ('$' :: rest) = false := by
  have next := head_tagged values n prevColon rest
  have bytes : (Text.pushBytes '$').map (fun c => (c, (none : Option Str))) = [('$', none)] := rfl
  rw [bytes, List.singleton_append, spelled]
  cases measured : pgPlaceholderLength
      ((tagged values n (piecesFrom prevColon 0 rest)).map Prod.fst) with
  | some length =>
    have digit : rest.head?.any Text.isAsciiDigit = true := by
      rw [← next, ← Bool.not_eq_false, ← length_eq_none_iff, measured]
      exact Option.some_ne_none length
    have step : translated 0 (('$', none) :: tagged values n (piecesFrom prevColon 0 rest)) =
        .char '?' :: translated length (tagged values n (piecesFrom prevColon 0 rest)) := by
      simp only [translated, if_pos, measured]
      rfl
    rw [step, marks_question, digit]
    exact iff_of_false (question_ne_binds _ _) (by simp)
  | none =>
    have letter : rest.head?.any Text.isAsciiDigit = false := by
      rw [← next, ← length_eq_none_iff, measured]
    have step : translated 0 (('$', none) :: tagged values n (piecesFrom prevColon 0 rest)) =
        (Text.pushBytes '$').map .char ++
          translated 0 (tagged values n (piecesFrom prevColon 0 rest)) := by
      simp only [translated, if_pos, measured]
    rw [step, marks_append, marks_pushBytes (by decide), List.nil_append, behind, letter]
    rfl

/-- The marks of a translated text are its binds exactly when the text spells no mark out. -/
theorem marks_translated_iff {values : HashMap BindValue} {n : Nat} {prevColon : Bool}
    {skipped : Nat} {sql : Str} (skips : ∀ c ∈ sql.take skipped, isIdent c = true)
    (resolved : ∀ name ∈ pieceNames (piecesFrom prevColon skipped sql),
      (values.lookup name).isSome = true) :
    marks (translated 0 (tagged values n (piecesFrom prevColon skipped sql))) =
        (pieceNames (piecesFrom prevColon skipped sql)).map .bind ↔ spelled sql = false := by
  induction sql generalizing n prevColon skipped with
  | nil => simp [piecesFrom, tagged, translated, pieceNames, spelled]
  | cons c rest inductionHypothesis =>
    cases skipped with
    | succ left =>
      have ident := skips c List.mem_cons_self
      have dull : Dull c := by
        constructor
        · rintro rfl
          exact absurd ident (by decide)
        · rintro rfl
          exact absurd ident (by decide)
      rw [spelled, beq_false_of_ne dull.1, beq_false_of_ne dull.2]
      exact inductionHypothesis (fun d member => skips d (List.mem_cons_of_mem _ member)) resolved
    | zero =>
      cases found : bindAt prevColon c rest with
      | some name =>
        obtain ⟨rfl, covered⟩ := skips_of_bindAt found
        simp only [piecesFrom, found, pieceNames, List.forall_mem_cons] at resolved ⊢
        obtain ⟨v, here⟩ := Option.isSome_iff_exists.mp resolved.1
        simp only [tagged, here, List.map_cons]
        rw [translated_placeholder, List.cons.injEq, and_iff_right rfl,
          inductionHypothesis covered resolved.2]
        rfl
      | none =>
        simp only [piecesFrom, found, pieceNames, tagged] at resolved ⊢
        have behind : marks (translated 0 (tagged values n (piecesFrom (c == ':') 0 rest))) =
            (pieceNames (piecesFrom (c == ':') 0 rest)).map .bind ↔ spelled rest = false :=
          inductionHypothesis (by simp) resolved
        by_cases question : c = '?'
        · subst question
          have shows : translated 0 ((Text.pushBytes '?').map (·, none) ++
              tagged values n (piecesFrom ('?' == ':') 0 rest)) =
                .char '?' :: translated 0 (tagged values n (piecesFrom ('?' == ':') 0 rest)) := rfl
          rw [shows, marks_question, spelled]
          exact iff_of_false (question_ne_binds _ _) (by simp)
        · by_cases dollar : c = '$'
          · subst dollar
            exact marks_dollar_iff behind
          · rw [translated_front (dull_pushBytes ⟨dollar, question⟩), behind, spelled,
              beq_false_of_ne question, beq_false_of_ne dollar]
            rfl

/-- The marks have the names of the binds that they stand for, and the rest has none. -/
theorem pieceNames_marks (output : List Piece) : pieceNames (marks output) = pieceNames output := by
  induction output with
  | nil => rfl
  | cons piece rest inductionHypothesis =>
    cases piece with
    | bind name =>
      rw [marks_bind, pieceNames, pieceNames, inductionHypothesis]
    | char c =>
      by_cases question : c = '?'
      · subst question
        rw [marks_question, pieceNames, pieceNames, inductionHypothesis]
      · rw [marks_char question, pieceNames, inductionHypothesis]

/-- Characters that begin no placeholder are copied. -/
theorem pieceNames_plain {chars : Str} (plain : ∀ d ∈ chars, d ≠ '$')
    (text : List (Char × Option Str)) :
    pieceNames (translated 0 (chars.map (·, none) ++ text)) = pieceNames (translated 0 text) := by
  induction chars with
  | nil => rfl
  | cons d others inductionHypothesis =>
    have step : translated 0 ((d, none) :: (others.map (·, none) ++ text)) =
        (Text.pushBytes d).map .char ++ translated 0 (others.map (·, none) ++ text) := by
      simp only [translated, if_neg (plain d List.mem_cons_self)]
    rw [List.map_cons, List.cons_append, step, pieceNames_append, pieceNames_chars,
      List.nil_append]
    exact inductionHypothesis (fun e member => plain e (List.mem_cons_of_mem _ member))

/-- The translation loses no bind and makes none. -/
theorem pieceNames_translated {values : HashMap BindValue} {ps : List Piece}
    (resolved : ∀ name ∈ pieceNames ps, (values.lookup name).isSome = true) (n : Nat) :
    pieceNames (translated 0 (tagged values n ps)) = pieceNames ps := by
  induction ps generalizing n with
  | nil => rfl
  | cons piece rest inductionHypothesis =>
    cases piece with
    | bind name =>
      rw [pieceNames, List.forall_mem_cons] at resolved
      obtain ⟨v, here⟩ := Option.isSome_iff_exists.mp resolved.1
      rw [tagged, here, ← pieceNames_marks]
      dsimp only
      rw [translated_placeholder, pieceNames, pieceNames_marks, inductionHypothesis resolved.2,
        pieceNames]
    | char c =>
      rw [pieceNames] at resolved
      rw [tagged, pieceNames, ← inductionHypothesis resolved n]
      generalize tagged values n rest = text
      by_cases dollar : c = '$'
      · subst dollar
        have bytes : (Text.pushBytes '$').map (fun d => (d, (none : Option Str))) =
            [('$', none)] := rfl
        rw [bytes, List.singleton_append]
        cases measured : pgPlaceholderLength (text.map Prod.fst) with
        | some length =>
          have step : translated 0 (('$', none) :: text) =
              .char '?' :: translated length text := by
            simp only [translated, if_pos, measured]
            rfl
          rw [step, pieceNames, ← pieceNames_marks, translated_skip (dull_of_length measured),
            pieceNames_marks]
        | none =>
          have step : translated 0 (('$', none) :: text) =
              (Text.pushBytes '$').map .char ++ translated 0 text := by
            simp only [translated, if_pos, measured]
          rw [step, pieceNames_append, pieceNames_chars, List.nil_append]
      · have plain : ∀ d ∈ Text.pushBytes c, d ≠ '$' := by
          rintro d member rfl
          exact dollar ((Text.mem_pushBytes (by decide)).mp member).symm
        exact pieceNames_plain plain text

/-! ## Alignment -/

/-- The statement before it is lowered: the query in the order in which it is written, or the
text where there is no parsed query. -/
def statement (dialect : ClickHouseDialect) (substituted : Str) : Option QueryIr → List Piece
  | some ir => sourceOf (querySegments dialect ir)
  | none => pieces substituted

/-- What is written for it, every mark with the bind that it stands for. -/
def emitted (dialect : ClickHouseDialect) (substituted : Str) (values : HashMap BindValue) :
    Option QueryIr → List Piece
  | some ir => outputOf (querySegments dialect ir)
  | none => translated 0 (tagged values 1 (pieces substituted))

/-- The question marks of the SQL are the binds of the statement, one by one, and so are the
values. -/
structure Aligned (values : HashMap BindValue) (statement emitted : List Piece)
    (bound : BoundSql) : Prop where
  sql : bound.sql = emitted.map shown
  count : bound.sql.count '?' = bound.values.length
  marks : marks emitted = (pieceNames statement).map .bind
  values : bound.values.map some = (pieceNames statement).map values.lookup

/-- Nothing that is copied makes a mark or keeps a bind. -/
def Spotless (substituted : Str) : Option QueryIr → Prop
  | some ir => PlainQuery ir
  | none => spelled substituted = false

/-- The question marks of the SQL are counted by the marks. -/
theorem count_question (output : List Piece) :
    (output.map shown).count '?' = (marks output).length := by
  rw [List.count, List.countP_map, marks, List.countP_eq_length_filter]
  rfl

/-- The other dialect's text is that of the tagged pieces. -/
theorem lowerBinds_tagged {substituted : Str} {values : HashMap BindValue} {pg : BoundSql}
    (lowered : lowerBinds substituted values = .ok pg) :
    pg.sql = (tagged values 1 (pieces substituted)).map Prod.fst := by
  rw [lowerBinds, lowerScan_eq_lowerPieces] at lowered
  cases walked : lowerPieces pgPlaceholder values [] [] (piecesFrom false 0 substituted) with
  | error e => simp [walked, Except.map] at lowered
  | ok result =>
    obtain rfl : (⟨result.1, result.2⟩ : BoundSql) = pg := by
      simpa [walked, Except.map] using lowered
    exact lowerPieces_tagged walked

/-- Every bind of a text that is lowered has a value. -/
theorem resolved_of_lowerBinds {substituted : Str} {values : HashMap BindValue} {pg : BoundSql}
    (lowered : lowerBinds substituted values = .ok pg) :
    ∀ name ∈ bindNames substituted, (values.lookup name).isSome = true := by
  intro name member
  have found : values.lookup name ∈ pg.values.map some := by
    rw [lowerBinds_values lowered]
    exact List.mem_map_of_mem member
  obtain ⟨v, -, same⟩ := List.mem_map.mp found
  rw [← same]
  rfl

/-- Without a parsed query it is the other dialect's lowering that is translated. -/
theorem lower_none {crates : Crates} {dialect : ClickHouseDialect} {substituted : Str}
    {values : HashMap BindValue} {bound : BoundSql}
    (lowered : dialect.lower crates substituted values none = .ok bound) :
    ∃ pg, lowerBinds substituted values = .ok pg ∧
      bound = ⟨pgPlaceholdersToCh pg.sql, pg.values⟩ := by
  cases ran : lowerBinds substituted values with
  | error e => simp [ClickHouseDialect.lower, ran, Except.map] at lowered
  | ok pg =>
    refine ⟨pg, rfl, ?_⟩
    simpa [ClickHouseDialect.lower, ran, Except.map, eq_comm] using lowered

/-- A lowered statement is what is written for it. -/
theorem sql_eq_emitted {crates : Crates} {dialect : ClickHouseDialect} {substituted : Str}
    {values : HashMap BindValue} {ir : Option QueryIr} {bound : BoundSql}
    (lowered : dialect.lower crates substituted values ir = .ok bound) :
    bound.sql = (emitted dialect substituted values ir).map shown := by
  cases ir with
  | some ir => rw [emitted, shown_outputOf, written_query, lowerIr_text lowered]
  | none =>
    obtain ⟨pg, ran, rfl⟩ := lower_none lowered
    rw [emitted, shown_translated, ← lowerBinds_tagged ran]
    rfl

/-- The binds that are lowered, in the order of their values. -/
def loweredNames (dialect : ClickHouseDialect) (substituted : Str) : Option QueryIr → List Str
  | some ir => boundNames (querySegments dialect ir)
  | none => bindNames substituted

/-- Each of them is written as a mark. -/
theorem pieceNames_emitted {crates : Crates} {dialect : ClickHouseDialect} {substituted : Str}
    {values : HashMap BindValue} {ir : Option QueryIr} {bound : BoundSql}
    (lowered : dialect.lower crates substituted values ir = .ok bound) :
    pieceNames (emitted dialect substituted values ir) = loweredNames dialect substituted ir := by
  cases ir with
  | some ir => exact pieceNames_outputOf _
  | none =>
    obtain ⟨pg, ran, rfl⟩ := lower_none lowered
    exact pieceNames_translated (resolved_of_lowerBinds ran) 1

/-- The values of a lowered query are those of its pushed binds, in order. -/
theorem values_of_lowered {crates : Crates} {dialect : ClickHouseDialect} {substituted : Str}
    {values : HashMap BindValue} {ir : Option QueryIr} {bound : BoundSql}
    (lowered : dialect.lower crates substituted values ir = .ok bound) :
    bound.values.map some = (loweredNames dialect substituted ir).map values.lookup := by
  cases ir with
  | some ir => exact lowerIr_values lowered
  | none =>
    obtain ⟨pg, ran, rfl⟩ := lower_none lowered
    have pushed := lowerBinds_values ran
    exact pushed

/-- The marks are the binds exactly when nothing that is copied is in their way. -/
theorem marks_emitted_iff {crates : Crates} {dialect : ClickHouseDialect} {substituted : Str}
    {values : HashMap BindValue} {ir : Option QueryIr} {bound : BoundSql}
    (lowered : dialect.lower crates substituted values ir = .ok bound) :
    marks (emitted dialect substituted values ir) =
      (pieceNames (statement dialect substituted ir)).map .bind ↔ Spotless substituted ir := by
  cases ir with
  | some ir =>
    rw [Spotless, ← @plain_query_iff dialect]
    exact marks_outputOf_iff (unmarked_query dialect ir)
  | none =>
    obtain ⟨pg, ran, rfl⟩ := lower_none lowered
    exact marks_translated_iff (by simp) (resolved_of_lowerBinds ran)

/-- The values are those of the binds that are marked. -/
theorem values_of_marks {crates : Crates} {dialect : ClickHouseDialect} {substituted : Str}
    {values : HashMap BindValue} {ir : Option QueryIr} {bound : BoundSql}
    (lowered : dialect.lower crates substituted values ir = .ok bound)
    (marked : marks (emitted dialect substituted values ir) =
      (pieceNames (statement dialect substituted ir)).map .bind) :
    bound.values.map some =
      (pieceNames (statement dialect substituted ir)).map values.lookup := by
  have names := (marks_eq_binds_iff.mp marked).2
  rw [pieceNames_emitted lowered] at names
  rw [values_of_lowered lowered, names]

/-- Placeholders, values and binds of a lowered statement line up exactly when it copies nothing
that makes a mark or keeps a bind. -/
theorem aligned_iff_spotless {crates : Crates} {dialect : ClickHouseDialect} {substituted : Str}
    {values : HashMap BindValue} {ir : Option QueryIr} {bound : BoundSql}
    (lowered : dialect.lower crates substituted values ir = .ok bound) :
    Aligned values (statement dialect substituted ir) (emitted dialect substituted values ir)
      bound ↔ Spotless substituted ir := by
  rw [← marks_emitted_iff lowered]
  constructor
  · exact Aligned.marks
  · intro marked
    have sql := sql_eq_emitted lowered
    have bounds := values_of_marks lowered marked
    refine ⟨sql, ?_, marked, bounds⟩
    have lengths := congrArg List.length bounds
    rw [List.length_map, List.length_map] at lengths
    rw [sql, count_question, marked, List.length_map, lengths]

/-! ## Reads of sales -/

/-- A read that moves one of its conditions before the other. -/
def salesSql : Str :=
  "SELECT name FROM app.sales WHERE day = :day AND price > :price ORDER BY price LIMIT :n".str

/-- The reader's form of it: two filters, an order and a limit. -/
def sales : QueryIr where
  select := [⟨"name".str⟩]
  «from» := ⟨some "app".str, "sales".str, none⟩
  joins := []
  where_ := [.compare (.col "day".str) .eq (.bind "day".str),
    .compare (.col "price".str) .gt (.bind "price".str)]
  groupBy := []
  orderBy := [⟨"price".str, .asc⟩]
  limit := some (.bind "n".str)

/-- The values of a request for it. -/
def salesValues : HashMap BindValue :=
  mapOf [("day".str, .text "mon".str), ("price".str, .int 5), ("n".str, .int 10),
    ("axis".str, .text "name".str)]

/-- The dialect of a table that is ordered by price. -/
def byPrice : ClickHouseDialect := ⟨false, ["price".str]⟩

/-- What is sent for it: the filter on the order key is hoisted, so the two values trade places. -/
def salesBound : BoundSql where
  sql := "SELECT name FROM app.sales PREWHERE price > ? WHERE day = ? ".str ++
    "ORDER BY price ASC LIMIT ?".str
  values := [.int 5, .text "mon".str, .int 10]

/-- The hoisting moves the values with their marks. -/
theorem sales_aligned :
    byPrice.lower Crates.plain salesSql salesValues (some sales) = .ok salesBound ∧
      Aligned salesValues (statement byPrice salesSql (some sales))
        (emitted byPrice salesSql salesValues (some sales)) salesBound := by
  have lowered : byPrice.lower Crates.plain salesSql salesValues (some sales) = .ok salesBound :=
    ApiResult.ok_of_toOption (by decide +kernel)
  have plain : PlainQuery sales :=
    ⟨by decide, by decide, by decide, by decide, by decide, by decide⟩
  exact ⟨lowered, (aligned_iff_spotless lowered).mpr plain⟩

/-- A read that groups by a bind. -/
def groupedSql : Str := "SELECT name FROM app.sales WHERE day = :day GROUP BY :axis".str

/-- A query whose grouping is a bind, which the lowering copies. -/
def groupedSales : QueryIr where
  select := [⟨"name".str⟩]
  «from» := ⟨some "app".str, "sales".str, none⟩
  joins := []
  where_ := [.compare (.col "day".str) .eq (.bind "day".str)]
  groupBy := [":axis".str]
  orderBy := []
  limit := none

/-- What is sent for it: a value for the filter and the bind's name in the grouping. -/
def groupedBound : BoundSql where
  sql := "SELECT name FROM app.sales WHERE day = ? GROUP BY :axis".str
  values := [.text "mon".str]

/-- A read with a question mark in a literal, in a form that is not parsed. -/
def askedSql : Str := "WITH t AS (SELECT 1) SELECT 'new?' FROM t WHERE day = :day".str

/-- A statement outside the reader's grammar, with a question mark in one of its literals. -/
def askedBound : BoundSql where
  sql := "WITH t AS (SELECT 1) SELECT 'new?' FROM t WHERE day = ?".str
  values := [.text "mon".str]

/-- The bind of the grouping is left in the statement, and the question mark of the literal takes
the value of the bind behind it. -/
theorem marks_misaligned :
    ((Parse.parseSelect groupedSql).toOption = some groupedSales ∧
      (byPrice.lower Crates.plain groupedSql salesValues (some groupedSales)).toOption =
        some groupedBound ∧
      ¬Aligned salesValues (statement byPrice groupedSql (some groupedSales))
        (emitted byPrice groupedSql salesValues (some groupedSales)) groupedBound) ∧
    ((Parse.parseSelect askedSql).toOption = none ∧
      (byPrice.lower Crates.plain askedSql salesValues none).toOption = some askedBound ∧
      ¬Aligned salesValues (statement byPrice askedSql none)
        (emitted byPrice askedSql salesValues none) askedBound) := by
  constructor
  · exact ⟨by decide +kernel, by decide +kernel,
      fun aligned => absurd aligned.marks (by decide +kernel)⟩
  · exact ⟨by decide +kernel, by decide +kernel,
      fun aligned => absurd aligned.count (by decide)⟩

end LumidPlatform.Read.Alignment
