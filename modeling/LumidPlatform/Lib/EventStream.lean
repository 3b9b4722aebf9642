import Mathlib.Data.List.Infix
import Mathlib.Data.List.TakeWhile

/-!
# Event streams

How a client reads a stream of server-sent events: line by line, the fields of an event up to
an empty line. No byte of a longer UTF-8 sequence is a line end, a colon or a space, so lines
and fields are told apart on the bytes, and decoding the values afterwards gives the same
texts. A comment with an empty line behind it leaves what the client reads as it is exactly
where the client is between two events.
-/

namespace EventStream

/-- A dispatched event. -/
structure Event where
  type : List UInt8
  data : List UInt8
  lastId : List UInt8
  deriving DecidableEq

/-- What a client has read: the line so far, whether that line's beginning may still be the
second half of a line end, the buffers of the event so far, and the events. -/
structure Client where
  line : List UInt8
  afterCr : Bool
  data : List (List UInt8)
  type : List UInt8
  lastId : List UInt8
  events : List Event

/-- Nothing was read. -/
def Client.start : Client := ⟨[], false, [], [], [], []⟩

/-- `message`, the type of an event that names none. -/
def message : List UInt8 := [109, 101, 115, 115, 97, 103, 101]

/-- `data`. -/
def dataName : List UInt8 := [100, 97, 116, 97]

/-- The name of the field in a line: what stands before the first colon. A comment has the
empty name. -/
def name (line : List UInt8) : List UInt8 := line.takeWhile (· ≠ 58)

/-- The value of the field in a line, without one space at its beginning. -/
def value (line : List UInt8) : List UInt8 :=
  match (line.dropWhile (· ≠ 58)).tail with
  | 32 :: rest => rest
  | rest => rest

namespace Client

variable {c d : Client} {text line more : List UInt8}

/-- The field in a line. The names are `event`, `data` and `id`. -/
def process (c : Client) (line : List UInt8) : Client :=
  if name line = [101, 118, 101, 110, 116] then { c with type := value line }
  else if name line = dataName then { c with data := c.data ++ [value line] }
  else if name line = [105, 100] then
    if (value line).contains 0 then c else { c with lastId := value line }
  else c

/-- The type of the event so far. -/
def kind (c : Client) : List UInt8 := if c.type.isEmpty then message else c.type

/-- The end of an event. One without data is none. -/
def dispatch (c : Client) : Client :=
  { c with
    data := []
    type := []
    events :=
      if c.data.isEmpty then c.events
      else c.events ++ [⟨c.kind, List.intercalate [10] c.data, c.lastId⟩] }

/-- The end of a line. -/
def endLine (c : Client) : Client :=
  { (if c.line.isEmpty then c.dispatch else c.process c.line) with line := [] }

/-- One byte. A carriage return, a line feed, and the two together, end a line. -/
def feed (c : Client) (byte : UInt8) : Client :=
  if byte = 10 then if c.afterCr then { c with afterCr := false } else c.endLine
  else if byte = 13 then { c.endLine with afterCr := true }
  else { c with line := c.line ++ [byte], afterCr := false }

def read (c : Client) (bytes : List UInt8) : Client := bytes.foldl feed c

@[simp] theorem read_nil : c.read [] = c := rfl

theorem read_append (c : Client) (bytes more : List UInt8) :
    c.read (bytes ++ more) = (c.read bytes).read more := List.foldl_append

/-! ### Lines -/

/-- A text without line ends. -/
def Inline (text : List UInt8) : Prop := ∀ byte ∈ text, byte ≠ 10 ∧ byte ≠ 13

/-- A text without line ends is part of the line. -/
theorem read_inline (inline : Inline text) (filled : text ≠ []) :
    c.read text = { c with line := c.line ++ text, afterCr := false } := by
  induction text generalizing c with
  | nil => exact absurd rfl filled
  | cons byte rest inductionHypothesis =>
    obtain ⟨notLf, notCr⟩ := inline byte List.mem_cons_self
    have first : c.feed byte = { c with line := c.line ++ [byte], afterCr := false } := by
      rw [feed, if_neg notLf, if_neg notCr]
    rw [read, List.foldl_cons, first]
    by_cases last : rest = []
    · subst last
      rfl
    · have onward : ({ c with line := c.line ++ [byte], afterCr := false } : Client).read rest = _ :=
        inductionHypothesis (fun b member => inline b (List.mem_cons_of_mem _ member)) last
      rw [read] at onward
      rw [onward, List.append_assoc, List.singleton_append]

/-- A line feed that is no second half of a line end. -/
theorem feed_lf (first : c.afterCr = false) : c.feed 10 = c.endLine := by
  rw [feed, if_pos rfl, first, if_neg Bool.false_ne_true]

/-- A line with an empty line behind it: its field, and the end of the event. -/
theorem read_line (inline : Inline text) (filled : text ≠ []) :
    c.read (text ++ [10, 10]) =
      { (c.process (c.line ++ text)).dispatch with line := [], afterCr := false } := by
  have nonempty : (c.line ++ text).isEmpty = false := by
    rw [List.isEmpty_eq_false_iff]
    exact List.append_ne_nil_of_right_ne_nil _ filled
  have fields (line line' : List UInt8) (cr : Bool) :
      ({ c with line := line', afterCr := cr } : Client).process line =
        { c.process line with line := line', afterCr := cr } := by
    simp only [process]
    split_ifs <;> rfl
  have first : ({ c with line := c.line ++ text, afterCr := false } : Client).feed 10 =
      { c.process (c.line ++ text) with line := [], afterCr := false } := by
    rw [feed_lf rfl, endLine]
    dsimp only
    rw [nonempty, if_neg Bool.false_ne_true, fields]
  rw [read_append, read_inline inline filled]
  show (Client.feed _ 10).feed 10 = _
  rw [first, feed_lf rfl]
  rfl

/-! ### Fields -/

theorem process_events (line : List UInt8) : (c.process line).events = c.events := by
  rw [process]
  split_ifs <;> rfl

theorem process_data (line : List UInt8) :
    (c.process line).data = if name line = dataName then c.data ++ [value line] else c.data := by
  rw [process]
  split_ifs with event data id nul <;> first | rfl | skip
  rw [event] at data
  exact absurd data (by decide)

/-- A comment has no field. -/
theorem process_comment (text : List UInt8) : c.process (58 :: text) = c := by
  have unnamed : name (58 :: text) = [] := rfl
  rw [process, unnamed, if_neg (by decide), if_neg (by decide), if_neg (by decide)]

/-- A colon ends the name. -/
theorem name_append_colon (rest : List UInt8) :
    name (line ++ 58 :: rest) = name line := by
  rw [name, name, List.takeWhile_append]
  split_ifs with whole
  · rw [List.takeWhile_cons_of_neg (by decide), List.append_nil]
    exact (List.takeWhile_prefix _).eq_of_length whole |>.symm
  · rfl

/-! ### Clients that read on alike -/

/-- Between two events, with no type but the one that an event has anyway. -/
structure Idle (c : Client) : Prop where
  line : c.line = []
  data : c.data = []
  kind : c.kind = message

/-- Two clients with the same buffers, of which one may still drop a line feed where the
other ends an event without data. -/
structure Alike (c d : Client) : Prop where
  line : c.line = d.line
  data : c.data = d.data
  kind : c.kind = d.kind
  lastId : c.lastId = d.lastId
  events : c.events = d.events
  afterCr : c.afterCr = d.afterCr ∨ (d.afterCr = false ∧ c.Idle)

theorem Alike.refl (c : Client) : Alike c c := ⟨rfl, rfl, rfl, rfl, rfl, .inl rfl⟩

/-- The buffers without the flag. -/
theorem Alike.process (alike : Alike c d) (line : List UInt8) :
    (c.process line).data = (d.process line).data ∧
      (c.process line).kind = (d.process line).kind ∧
      (c.process line).lastId = (d.process line).lastId := by
  rw [Client.process, Client.process]
  split_ifs
  · exact ⟨alike.data, rfl, alike.lastId⟩
  · exact ⟨congrArg (· ++ _) alike.data, alike.kind, alike.lastId⟩
  · exact ⟨alike.data, alike.kind, alike.lastId⟩
  · exact ⟨alike.data, alike.kind, rfl⟩
  · exact ⟨alike.data, alike.kind, alike.lastId⟩

theorem endLine_afterCr : c.endLine.afterCr = c.afterCr := by
  rw [endLine]
  split_ifs
  · rfl
  · rw [Client.process]
    split_ifs <;> rfl

/-- The end of a line keeps two clients alike, whatever the flags are then. -/
theorem Alike.endLine (alike : Alike c d) (flag : Bool) :
    Alike { c.endLine with afterCr := flag } { d.endLine with afterCr := flag } := by
  have sameLine := alike.line
  rw [Client.endLine, Client.endLine, ← sameLine]
  by_cases empty : c.line.isEmpty = true
  · rw [if_pos empty, if_pos empty]
    refine ⟨rfl, rfl, rfl, alike.lastId, ?_, .inl rfl⟩
    simp only [dispatch, alike.data, alike.events, alike.kind, alike.lastId]
  · rw [if_neg empty, if_neg empty]
    obtain ⟨data, kind, lastId⟩ := alike.process c.line
    refine ⟨rfl, data, kind, lastId, ?_, .inl rfl⟩
    simp only [process_events, alike.events]

theorem Alike.feed (alike : Alike c d) (byte : UInt8) : Alike (c.feed byte) (d.feed byte) := by
  rw [Client.feed, Client.feed]
  by_cases lf : byte = 10
  · rw [if_pos lf, if_pos lf]
    rcases alike.afterCr with same | ⟨notAfter, idle⟩
    · rw [← same]
      by_cases after : c.afterCr = true
      · rw [if_pos after, if_pos after]
        exact ⟨alike.line, alike.data, alike.kind, alike.lastId, alike.events, .inl rfl⟩
      · have ended := alike.endLine false
        rw [if_neg after, if_neg after]
        have flags : c.endLine.afterCr = false ∧ d.endLine.afterCr = false := by
          rw [endLine_afterCr, endLine_afterCr, ← same]
          exact ⟨Bool.eq_false_iff.mpr after, Bool.eq_false_iff.mpr after⟩
        exact ⟨ended.line, ended.data, ended.kind, ended.lastId, ended.events,
          .inl (flags.1.trans flags.2.symm)⟩
    · have dLine : d.line.isEmpty = true := by rw [← alike.line, idle.line]; rfl
      have dData : d.data.isEmpty = true := by rw [← alike.data, idle.data]; rfl
      rw [notAfter, if_neg Bool.false_ne_true]
      by_cases after : c.afterCr = true
      · rw [if_pos after, Client.endLine, if_pos dLine, dispatch, dData, if_pos rfl]
        exact ⟨idle.line, idle.data, idle.kind, alike.lastId, alike.events, .inl notAfter.symm⟩
      · have ended := alike.endLine false
        rw [if_neg after]
        refine ⟨ended.line, ended.data, ended.kind, ended.lastId, ended.events, .inl ?_⟩
        rw [endLine_afterCr, endLine_afterCr, notAfter]
        exact Bool.eq_false_iff.mpr after
  · rw [if_neg lf, if_neg lf]
    by_cases cr : byte = 13
    · rw [if_pos cr, if_pos cr]
      exact alike.endLine true
    · rw [if_neg cr, if_neg cr]
      exact ⟨congrArg (· ++ [byte]) alike.line, alike.data, alike.kind, alike.lastId,
        alike.events, .inl rfl⟩

theorem Alike.read (alike : Alike c d) (bytes : List UInt8) : Alike (c.read bytes) (d.read bytes) := by
  induction bytes generalizing c d with
  | nil => exact alike
  | cons byte rest inductionHypothesis => exact inductionHypothesis (alike.feed byte)

/-! ### Comments -/

/-- A comment, with an empty line behind it. -/
def comment (text : List UInt8) : List UInt8 := (58 :: text) ++ [10, 10]

theorem inline_comment (inline : Inline text) : Inline (58 :: text) := by
  intro byte member
  rcases List.mem_cons.mp member with rfl | later
  · decide
  · exact inline byte later

/-- Between two events a comment is passed over. -/
theorem Alike.comment (alike : Alike c d) (idle : c.Idle) (inline : Inline text) :
    Alike c (d.read (comment text)) := by
  have dData : d.data.isEmpty = true := by rw [← alike.data, idle.data]; rfl
  rw [Client.comment, read_line (inline_comment inline) (List.cons_ne_nil _ _), ← alike.line,
    idle.line, List.nil_append, process_comment, dispatch, dData, if_pos rfl]
  exact ⟨idle.line, idle.data, idle.kind, alike.lastId, alike.events, .inr ⟨rfl, idle⟩⟩

/-- `data: x`, with an empty line behind it. -/
def probe : List UInt8 := (dataName ++ [58, 32, 120]) ++ [10, 10]

theorem read_probe : c.read probe =
    { (c.process (c.line ++ (dataName ++ [58, 32, 120]))).dispatch with
      line := [], afterCr := false } := by
  apply read_line
  · show ∀ byte ∈ ([100, 97, 116, 97, 58, 32, 120] : List UInt8), byte ≠ 10 ∧ byte ≠ 13
    simp
  · decide

/-- If a comment is passed over whatever comes next, it stands between two events. -/
theorem idle_of_passed (alike : Alike c d) (inline : Inline text)
    (now : (d.read (comment text)).events = c.events)
    (next : ((d.read (comment text)).read probe).events = (c.read probe).events) : c.Idle := by
  have after := read_line (c := d) (inline_comment inline) (List.cons_ne_nil _ _)
  rw [← comment] at after
  generalize merged : d.process (d.line ++ 58 :: text) = fields at after
  have noData : fields.data = [] := by
    by_contra filled
    rw [after] at now
    simp only [dispatch] at now
    rw [if_neg (by rwa [List.isEmpty_iff]), ← merged, process_events, ← alike.events] at now
    have lengths := congrArg List.length now
    simp at lengths
  have events : fields.events = c.events := by rw [← merged, process_events, alike.events]
  have noField : d.data = [] ∧ name d.line ≠ dataName := by
    rw [← merged, process_data, name_append_colon] at noData
    split_ifs at noData with named
    · simp at noData
    · exact ⟨noData, named⟩
  have probed : ((d.read (comment text)).read probe).events =
      c.events ++ [⟨message, [120], fields.lastId⟩] := by
    rw [read_probe, after]
    simp only [dispatch, noData, List.isEmpty_nil, if_true, List.nil_append, ← events]
    rfl
  rw [probed, read_probe] at next
  simp only [dispatch, process_events] at next
  have found : (c.process (c.line ++ (dataName ++ [58, 32, 120]))).data ≠ [] := by
    intro none
    rw [none, List.isEmpty_nil, if_pos rfl] at next
    have lengths := congrArg List.length next
    simp at lengths
  have cData : c.data = [] := alike.data.trans noField.1
  have empty : c.line = [] := by
    rw [process_data, cData] at found
    have named : name (c.line ++ (dataName ++ [58, 32, 120])) = dataName := by
      by_contra other
      rw [if_neg other] at found
      exact found rfl
    rw [← List.append_assoc, name_append_colon, name, List.takeWhile_append] at named
    split_ifs at named with whole
    · have lengths := congrArg List.length named
      rw [List.takeWhile_eq_self_iff.mpr (List.all_eq_true.mp (by decide)), List.length_append]
        at lengths
      exact List.length_eq_zero_iff.mp (by omega)
    · rw [← alike.line] at noField
      exact absurd named noField.2
  refine ⟨empty, cData, ?_⟩
  rw [if_neg (by rwa [List.isEmpty_iff]), List.append_cancel_left_eq] at next
  have types := congrArg Event.type (List.singleton_injective next)
  have unnamed : (c.process (c.line ++ (dataName ++ [58, 32, 120]))).kind = c.kind := by
    rw [empty]
    rfl
  rw [unnamed] at types
  exact types.symm

end Client

/-! ## Streams -/

/-- The byte order mark, which is dropped at the beginning of a stream. -/
def mark : List UInt8 := [0xEF, 0xBB, 0xBF]

def body (stream : List UInt8) : List UInt8 :=
  if mark.isPrefixOf stream then stream.drop 3 else stream

/-- The client at the end of a stream. An event that is not complete there is none. -/
def client (stream : List UInt8) : Client := Client.start.read (body stream)

/-- The events in a stream. -/
def events (stream : List UInt8) : List Event := (client stream).events

variable {stream more : List UInt8}

/-- The client reads on, unless the mark is only complete later. -/
theorem client_append (complete : mark <+: stream ++ more → mark <+: stream) :
    client (stream ++ more) = (client stream).read more := by
  rw [client, client, ← Client.read_append]
  congr 1
  rw [body, body]
  by_cases marked : mark <+: stream
  · obtain ⟨rest, rfl⟩ := marked
    have whole : mark <+: mark ++ rest ++ more := by
      rw [List.append_assoc]
      exact List.prefix_append _ _
    rw [if_pos (List.isPrefixOf_iff_prefix.mpr whole),
      if_pos (List.isPrefixOf_iff_prefix.mpr (List.prefix_append _ _))]
    rfl
  · rw [if_neg (fun found => marked (complete (List.isPrefixOf_iff_prefix.mp found))),
      if_neg (fun found => marked (List.isPrefixOf_iff_prefix.mp found))]

/-- What does not go on with a byte of the mark does not complete it. -/
theorem mark_of_append {byte : UInt8} (foreign : byte ∉ mark)
    (marked : mark <+: stream ++ byte :: more) : mark <+: stream := by
  rcases Nat.lt_or_ge stream.length 3 with short | long
  · obtain ⟨rest, whole⟩ := marked
    have at_byte : (mark ++ rest)[stream.length]? = some byte := by
      rw [whole, List.getElem?_append_right (Nat.le_refl _), Nat.sub_self]
      rfl
    rw [List.getElem?_append_left short] at at_byte
    exact absurd (List.mem_of_getElem? at_byte) foreign
  · exact List.prefix_of_prefix_length_le marked (List.prefix_append _ _) long

/-- A client between two lines has seen a mark whole, or has seen nothing. -/
theorem mark_whole (between : (client stream).line = []) (begun : stream ≠ [])
    (marked : mark <+: stream ++ more) : mark <+: stream := by
  rcases Nat.lt_or_ge stream.length 3 with short | long
  · have part : stream <+: mark :=
      List.prefix_of_prefix_length_le (List.prefix_append _ _) marked (Nat.le_of_lt short)
    have shapes : stream = [] ∨ stream = [0xEF] ∨ stream = [0xEF, 0xBB] := by
      rw [List.prefix_iff_eq_take] at part
      have lengths : stream.length = 0 ∨ stream.length = 1 ∨ stream.length = 2 := by omega
      rcases lengths with none | one | two
      · exact .inl (List.length_eq_zero_iff.mp none)
      · rw [one] at part
        exact .inr (.inl part)
      · rw [two] at part
        exact .inr (.inr part)
    rcases shapes with rfl | rfl | rfl
    · exact absurd rfl begun
    · exact absurd between (by decide)
    · exact absurd between (by decide)
  · exact List.prefix_of_prefix_length_le marked (List.prefix_append _ _) long

/-- A comment is read on its own. -/
theorem client_comment (stream text more : List UInt8) :
    client (stream ++ (Client.comment text ++ more)) =
      ((client stream).read (Client.comment text)).read more := by
  have foreign : (58 : UInt8) ∉ mark := by decide
  have complete : mark <+: stream ++ (Client.comment text ++ more) → mark <+: stream :=
    mark_of_append foreign
  rw [client_append complete, Client.read_append]

end EventStream
