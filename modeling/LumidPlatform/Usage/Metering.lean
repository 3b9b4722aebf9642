import LumidPlatform.Crates
import LumidPlatform.Lib.Buckets
import LumidPlatform.Lib.ExpiringCounters
import LumidPlatform.Lib.Transitions

/-!
# Usage metering

A gated request is recorded by a batch of Redis commands that nobody waits for. Batches of
different requests mix, and one may end early when its connection is lost. The dashboard and
the page of a caller read counters of minutes, hours and days, which live for a while only. They
read with one command after another, while requests are recorded, and a command can fail. The
clock is that of Redis, of the recorders and of the pages alike, in milliseconds.
-/

namespace LumidPlatform.Usage

open ExpiringCounters Transitions

variable (unicode : Unicode)

/-! ## Recording -/

/-- The counters that are kept. -/
inductive Counter where
  | total
  | bytesOut
  | tooMany
  | minute (minute : Int)
  | hour (hour : Int)
  | day (day : Int)
  | bytesHour (hour : Int)
  | subTotal (sub : Str)
  | subBytes (sub : Str)
  | subHour (sub : Str) (hour : Int)
  deriving DecidableEq

namespace Counter

/-- The key of a counter, under `PREFIX`. -/
def key : Counter → Str
  | total => "metrics:total".str
  | bytesOut => "metrics:bytes_out".str
  | tooMany => "metrics:429".str
  | minute m => "metrics:min:".str ++ Text.showInt m
  | hour h => "metrics:hr:".str ++ Text.showInt h
  | day d => "metrics:day:".str ++ Text.showInt d
  | bytesHour h => "metrics:bytes_hr:".str ++ Text.showInt h
  | subTotal sub => "metrics:sub:".str ++ (sub ++ ":total".str)
  | subBytes sub => "metrics:sub:".str ++ (sub ++ ":bytes".str)
  | subHour sub h => "metrics:sub:".str ++ (sub ++ (":hr:".str ++ Text.showInt h))

end Counter

/-- What is recorded of a request. -/
structure Call where
  sub : Str
  method : Str
  tmpl : Str
  status : Nat
  bytes : Int

/-- A command of a batch; the ranking of callers and the first moment are no counters. -/
inductive Instruction where
  | incrBy (counter : Counter) (amount : Int)
  | expire (counter : Counter) (seconds : Nat)
  | hIncrBy (key field : Str) (amount : Int)
  | other

/-- The class of a status. -/
def statusClass (status : Nat) : Str :=
  if 200 ≤ status ∧ status ≤ 299 then "2xx".str
  else if 300 ≤ status ∧ status ≤ 399 then "3xx".str
  else if 400 ≤ status ∧ status ≤ 499 then "4xx".str
  else "5xx".str

/-- The batch of `record`, for a request at some second. -/
def batch (call : Call) (ts : Int) : List Instruction :=
  let minute := ts / 60
  let hour := ts / 3600
  let day := ts / 86400
  ([.incrBy .total 1, .incrBy .bytesOut call.bytes,
    .hIncrBy "metrics:status".str (statusClass call.status) 1,
    .hIncrBy "metrics:endpoint".str call.tmpl 1, .hIncrBy "metrics:method".str call.method 1,
    .other,
    .incrBy (.minute minute) 1, .expire (.minute minute) 21600,
    .incrBy (.hour hour) 1, .expire (.hour hour) 3024000,
    .incrBy (.day day) 1, .expire (.day day) 34560000,
    .incrBy (.bytesHour hour) call.bytes, .expire (.bytesHour hour) 3024000] : List Instruction) ++
  (if call.status = 429 then [.incrBy .tooMany 1] else []) ++
  [.other, .incrBy (.subTotal call.sub) 1, .incrBy (.subBytes call.sub) call.bytes,
    .incrBy (.subHour call.sub hour) 1, .expire (.subHour call.sub hour) 3024000]

/-- A key, and for a hash a field. -/
abbrev Key := Str × Option Str

/-- What a command does to counters and to the fields of hashes. -/
def Instruction.command : Instruction → Option (Command Key)
  | incrBy counter amount => some (.add (counter.key, none) amount)
  | expire counter seconds => some (.expire (counter.key, none) (seconds * 1000))
  | hIncrBy key field amount => some (.add (key, some field) amount)
  | other => none

/-- A request that is recorded, and how many of its commands were carried out. -/
structure Entry where
  call : Call
  millis : Nat
  done : Nat

namespace Entry

variable (entry : Entry)

/-- The second in which a call is counted. -/
def ts : Int := (entry.millis / 1000 : Nat)

/-- The commands that the batch of a call consists of. -/
def instructions : List Instruction := batch entry.call entry.ts

/-- Those that the store has carried out so far. -/
def carriedOut : List Instruction := entry.instructions.take entry.done

end Entry

/-- The clock, the store, and the requests that were recorded. -/
structure World where
  now : Nat := 0
  store : Store Key := fun _ => none
  entries : List Entry := []

/-- What can happen next. Batches overlap: any call that is recorded may go on. -/
inductive Label where
  /-- `record` is called, and looks at the clock. -/
  | record (call : Call)
  /-- The next command of a batch is carried out. -/
  | execute (place : Nat)
  | pass (millis : Nat)

/-- A command changes the store at the moment at which it is carried out; an instruction that asks
for nothing leaves it. -/
def World.perform (w : World) (instruction : Instruction) : Store Key :=
  match instruction.command with
  | some command => w.store.perform w.now command
  | none => w.store

/-- A call is recorded with the clock's time. Its commands are carried out one by one, and the clock
goes on. -/
def step (w : World) : Label → Option World
  | .record call => some { w with entries := w.entries ++ [⟨call, w.now, 0⟩] }
  | .execute place =>
    (w.entries[place]?).bind (fun entry =>
      (entry.instructions[entry.done]?).map (fun instruction =>
        { w with
          store := w.perform instruction
          entries := w.entries.set place { entry with done := entry.done + 1 } }))
  | .pass millis => some { w with now := w.now + millis }

/-! ## Reading -/

/-- What the store answers for a counter; one that is not there counts nothing. -/
def World.get (w : World) (counter : Counter) : Int :=
  (w.store.read w.now (counter.key, none)).getD 0

/-- The commands of a page, by their places. Each one meets the world of its moment, and is
answered or fails. -/
structure Visit where
  world : Nat → World
  answered : Nat → Bool

namespace Visit

variable (visit : Visit)

/-- `now_secs`. -/
def clock (i : Nat) : Int := ((visit.world i).now / 1000 : Nat)

/-- `get_i64`: a command that fails counts nothing. -/
def get (i : Nat) (counter : Counter) : Int :=
  if visit.answered i then (visit.world i).get counter else 0

/-- `mget_i64`: one that fails gives an empty list. -/
def mget (i : Nat) (counters : List Counter) : List Int :=
  if visit.answered i then counters.map (visit.world i).get else []

end Visit

/-- `WINDOWS`. -/
def windows : List (Str × Option Nat) := [
  ("1h".str, some 3600), ("6h".str, some 21600), ("24h".str, some 86400),
  ("7d".str, some 604800), ("30d".str, some 2592000), ("all".str, none)]

/-- The points of a spark line. -/
def sparkPoints : Nat := 36

/-- The loop over the bins. -/
def bins (size : Nat) : Nat → List Int → List Int
  | 0, _ => []
  | _, [] => []
  | fuel + 1, counts => (counts.take size).sum :: bins size fuel (counts.drop size)

/-- What `windowed` returns. -/
structure Windowed where
  count : Int
  spark : List Int
  granularity : Str
  bytes : Option Int

/-- The counters of the newest of some buckets, from the last one on. -/
def newest (bucket : Int → Counter) (last : Int) (n : Nat) : List Counter :=
  (List.range n).map (fun i : Nat => bucket (last - i))

/-- The counts of `windowed` go into bins, and the newest bins into the line that is drawn. -/
def sparkOf (counts : List Int) : List Int :=
  ((bins (max (counts.length / sparkPoints) 1) counts.length counts).take sparkPoints).reverse

/-- `windowed`, which looks at the clock at a place and sends its commands after it. -/
def windowed (visit : Visit) (i : Nat) (winSecs : Option Nat) : Windowed :=
  let now := visit.clock i
  match winSecs with
  | none => {
      count := visit.get (i + 1) .total
      spark := (visit.mget (i + 2) (newest .day (now / 86400) 30)).reverse
      granularity := "day".str
      bytes := some (visit.get (i + 3) .bytesOut) }
  | some secs =>
    let (counts, granularity, bytes) : List Int × Str × Option Int :=
      if secs ≤ 21600 then
        (visit.mget (i + 1) (newest .minute (now / 60) (secs / 60)), "min".str, none)
      else if secs ≤ 2592000 then
        (visit.mget (i + 1) (newest .hour (now / 3600) (secs / 3600)), "hr".str,
          some (visit.mget (i + 2) (newest .bytesHour (now / 3600) (secs / 3600))).sum)
      else
        (visit.mget (i + 1) (newest .day (now / 86400) (secs / 86400)), "day".str, none)
    { count := counts.sum, spark := sparkOf counts, granularity, bytes }

/-- The counters of `gather`, its hashes and ranking left out. -/
structure Metrics where
  total : Int
  bytesOut : Int
  r429 : Int
  window : Windowed
  last60m : Int
  rpmNow : Int

/-- `gather`. Between the counters and the window it reads the hashes and the ranking, with six
commands. -/
def gather (visit : Visit) (winSecs : Option Nat) : Metrics :=
  let counts := visit.mget 14 (newest .minute (visit.clock 13 / 60) 60)
  { total := visit.get 0 .total
    bytesOut := visit.get 1 .bytesOut
    r429 := visit.get 2 .tooMany
    window := windowed visit 9 winSecs
    last60m := counts.sum
    rpmNow := if 1 < counts.length then counts.getD 1 0 else 0 }

/-- The window that `usage` is asked for, `24h` where it knows none of that name. -/
def resolved (window : Option Str) : Str :=
  ((window.map unicode.toLowercase).filter (fun w => windows.any (fun known => known.1 = w))).getD
    "24h".str

/-- The seconds that a window reaches back, none for all time. -/
def secondsOf (win : Str) : Option Nat := (windows.find? (fun known => known.1 = win)).bind Prod.snd

/-- The page of all callers, read in one visit. -/
def usage (visit : Visit) (window : Option Str) : Str × Metrics :=
  let win := resolved unicode window
  (win, gather visit (secondsOf win))

/-- `usage_me`. The hours are read from the oldest on, after a look at the clock. -/
def usageMe (visit : Visit) (sub : Str) : Json :=
  let hour := visit.clock 2 / 3600
  let last24 := (List.range 24).reverse.map (fun h : Nat =>
    visit.get (26 - h) (.subHour sub (hour - h)))
  .object [("sub".str, .string sub),
    ("total_calls".str, .number (.int (visit.get 0 (.subTotal sub)))),
    ("bytes_out".str, .number (.int (visit.get 1 (.subBytes sub)))),
    ("calls_last_24h".str, .number (.int last24.sum)),
    ("hourly_last_24h".str, .array (last24.map (fun count => .number (.int count))))]

/-! ## Keys -/

/-- What stands behind the last separator of a text, and before it. -/
theorem split_last {separator : Char} {front front' back back' : Str}
    (single : separator ∉ back) (single' : separator ∉ back')
    (same : front ++ separator :: back = front' ++ separator :: back') :
    front = front' ∧ back = back' := by
  rcases List.append_eq_append_iff.mp same with ⟨middle, rfl, rest⟩ | ⟨middle, rfl, rest⟩
  · cases middle with
    | nil => exact ⟨(List.append_nil _).symm, (List.cons.inj rest).2⟩
    | cons c middle =>
      rw [(List.cons.inj rest).2] at single
      exact absurd (List.mem_append_right _ List.mem_cons_self) single
  · cases middle with
    | nil => exact ⟨List.append_nil _, (List.cons.inj rest).2.symm⟩
    | cons c middle =>
      rw [(List.cons.inj rest).2] at single'
      exact absurd (List.mem_append_right _ List.mem_cons_self) single'

/-- A number is written with digits, and a sign. -/
theorem mem_showInt {n : Int} {c : Char} (member : c ∈ Text.showInt n) :
    c = '-' ∨ Text.isAsciiDigit c = true := by
  cases n with
  | ofNat n => exact Or.inr (Text.isAsciiDigit_of_mem_showNat member)
  | negSucc n =>
    rcases List.mem_cons.mp member with sign | digit
    · exact Or.inl sign
    · exact Or.inr (Text.isAsciiDigit_of_mem_showNat digit)

/-- So it is no text that has another character. -/
theorem showInt_ne {n : Int} {text : Str}
    (foreign : text.any (fun c => c != '-' && !Text.isAsciiDigit c) = true) :
    Text.showInt n ≠ text := by
  intro same
  obtain ⟨c, member, other⟩ := List.any_eq_true.mp foreign
  rw [Bool.and_eq_true, bne_iff_ne, Bool.not_eq_true'] at other
  rcases mem_showInt (same ▸ member) with sign | digit
  · exact other.1 sign
  · rw [digit] at other
    cases other.2

/-- In particular it has no colon, at which keys are split. -/
theorem noColon_showInt (n : Int) : ':' ∉ Text.showInt n := by
  intro member
  rcases mem_showInt member with sign | digit
  · cases sign
  · cases digit

/-- The key of an hour of a caller ends in the hour. -/
theorem subHour_split (sub tail : Str) :
    sub ++ ':' :: 'h' :: 'r' :: ':' :: tail = (sub ++ [':', 'h', 'r']) ++ ':' :: tail := by
  simp

/-- No two counters have one key. -/
theorem key_injective {c d : Counter} (same : c.key = d.key) : c = d := by
  -- Different families differ before their arguments, unless both are of a caller.
  cases c <;> cases d <;> simp [Counter.key, String.str] at same ⊢
  case minute.minute => exact Text.showInt_injective same
  case hour.hour => exact Text.showInt_injective same
  case day.day => exact Text.showInt_injective same
  case bytesHour.bytesHour => exact Text.showInt_injective same
  case subTotal.subTotal => exact same
  case subTotal.subBytes =>
    exact absurd (split_last (by decide) (by decide) same).2 (by decide)
  case subTotal.subHour =>
    rw [subHour_split] at same
    exact showInt_ne (by decide) (split_last (by decide) (noColon_showInt _) same).2.symm
  case subBytes.subTotal =>
    exact absurd (split_last (by decide) (by decide) same).2 (by decide)
  case subBytes.subBytes => exact same
  case subBytes.subHour =>
    rw [subHour_split] at same
    exact showInt_ne (by decide) (split_last (by decide) (noColon_showInt _) same).2.symm
  case subHour.subTotal =>
    rw [subHour_split] at same
    exact showInt_ne (by decide) (split_last (noColon_showInt _) (by decide) same).2
  case subHour.subBytes =>
    rw [subHour_split] at same
    exact showInt_ne (by decide) (split_last (noColon_showInt _) (by decide) same).2
  case subHour.subHour =>
    rw [subHour_split, subHour_split] at same
    obtain ⟨front, back⟩ := split_last (noColon_showInt _) (noColon_showInt _) same
    exact ⟨List.append_cancel_right front, Text.showInt_injective back⟩

/-! ## What the counters hold -/

/-- What a command adds to a counter. -/
def Instruction.adds (counter : Counter) : Instruction → Option Int
  | incrBy added amount => if added = counter then some amount else none
  | _ => none

/-- The amounts that a request has added to a counter so far. -/
def Entry.amounts (entry : Entry) (counter : Counter) : List Int :=
  entry.carriedOut.filterMap (Instruction.adds counter)

/-- The amounts that were added to a counter so far. -/
def World.amounts (w : World) (counter : Counter) : List Int :=
  w.entries.flatMap (fun entry => entry.amounts counter)

/-- The last moment for which a counter is kept, if not for ever. -/
def Counter.keptUntil : Counter → Option Int
  | minute m => some ((m * 60 + 21600) * 1000)
  | hour h => some ((h * 3600 + 3024000) * 1000)
  | day d => some ((d * 86400 + 34560000) * 1000)
  | bytesHour h => some ((h * 3600 + 3024000) * 1000)
  | subHour _ h => some ((h * 3600 + 3024000) * 1000)
  | total | bytesOut | tooMany | subTotal _ | subBytes _ => none

/-- The commands that a batch has sent to the store. -/
def Entry.commands (entry : Entry) : List (Command Key) :=
  entry.carriedOut.filterMap Instruction.command

/-- The store is that of the commands that the batches have sent, each sent at a moment from
its request to now. -/
structure Kept (w : World) : Prop where
  past : ∀ entry ∈ w.entries, entry.millis ≤ w.now
  history : ∃ history, w.store = after history ∧
    (history.map Prod.snd).Perm (w.entries.flatMap Entry.commands) ∧
    ∀ performed ∈ history, performed.1 ≤ w.now ∧ ∃ entry : Entry, entry.millis ≤ performed.1 ∧
      performed.2 ∈ entry.instructions.filterMap Instruction.command

/-- Before the first step there is nothing that could break the invariant. -/
theorem Kept.start : Kept {} :=
  ⟨fun _ none => (nomatch none), [], rfl, List.Perm.nil, fun _ none => nomatch none⟩

/-- An instruction that is carried out is the next one of its batch. -/
theorem carriedOut_succ {entry : Entry} {instruction : Instruction}
    (next : entry.instructions[entry.done]? = some instruction) :
    ({ entry with done := entry.done + 1 } : Entry).carriedOut =
      entry.carriedOut ++ [instruction] := by
  have more : entry.instructions.take (entry.done + 1) =
      entry.instructions.take entry.done ++ (entry.instructions[entry.done]?).toList :=
    List.take_add_one
  rw [next, Option.toList_some] at more
  exact more

/-- What one item gives more, all of them give more. -/
theorem flatMap_set_append {A B : Type} {items : List A} {i : Nat} {old new : A} {f : A → List B}
    {added : List B} (there : items[i]? = some old) (grown : f new = f old ++ added) :
    ((items.set i new).flatMap f).Perm (items.flatMap f ++ added) := by
  obtain ⟨inside, rfl⟩ := List.getElem?_eq_some_iff.mp there
  have after' := (List.set_perm_cons_eraseIdx inside new).flatMap_right f
  have before := (List.getElem_cons_eraseIdx_perm inside).flatMap_right f
  rw [List.flatMap_cons, grown, List.append_assoc] at after'
  rw [List.flatMap_cons] at before
  refine after'.trans (List.Perm.trans ?_ (before.append_right added))
  rw [List.append_assoc]
  exact List.perm_append_comm.append_left _

/-- A recorded call leaves the store, a command adds what the history says, and the clock only moves
forward. -/
theorem Kept.step {w next : World} {label : Label} (kept : Kept w)
    (stepped : Usage.step w label = some next) : Kept next := by
  obtain ⟨history, store, sent, sources⟩ := kept.history
  cases label with
  | record call =>
    obtain rfl := Option.some.inj stepped
    refine ⟨fun entry member => ?_, history, store, ?_, sources⟩
    · rcases List.mem_append.mp member with before | last
      · exact kept.past entry before
      · obtain rfl := List.mem_singleton.mp last
        exact le_refl w.now
    · have none : Entry.commands ⟨call, w.now, 0⟩ = [] := rfl
      rw [List.flatMap_append, List.flatMap_singleton, none, List.append_nil]
      exact sent
  | execute place =>
    obtain ⟨entry, there, rest⟩ := Option.bind_eq_some_iff.mp stepped
    obtain ⟨instruction, due, rfl⟩ := Option.map_eq_some_iff.mp rest
    have known := kept.past entry (List.mem_of_getElem? there)
    have past : ∀ e ∈ w.entries.set place { entry with done := entry.done + 1 },
        e.millis ≤ w.now := by
      intro e member
      rcases List.mem_or_eq_of_mem_set member with before | rfl
      · exact kept.past e before
      · exact known
    have grown : Entry.commands { entry with done := entry.done + 1 } =
        entry.commands ++ instruction.command.toList := by
      rw [Entry.commands, carriedOut_succ due, List.filterMap_append, Entry.commands]
      cases found : instruction.command <;> simp [found]
    have all := flatMap_set_append there grown
    cases found : instruction.command with
    | none =>
      rw [found, Option.toList_none, List.append_nil] at all
      refine ⟨past, history, ?_, sent.trans all.symm, sources⟩
      rw [World.perform, found]
      exact store
    | some command =>
      rw [found, Option.toList_some] at all
      refine ⟨past, history ++ [(w.now, command)], ?_, ?_, fun performed member => ?_⟩
      · rw [World.perform, found, after, List.foldl_append, ← after, ← store]
        rfl
      · rw [List.map_append]
        exact (sent.append_right _).trans all.symm
      · rcases List.mem_append.mp member with before | last
        · exact sources performed before
        · obtain rfl := List.mem_singleton.mp last
          have source := List.mem_filterMap.mpr ⟨instruction, List.mem_of_getElem? due, found⟩
          exact ⟨le_rfl, entry, known, source⟩
  | pass millis =>
    obtain rfl := Option.some.inj stepped
    refine ⟨fun entry member => Nat.le_add_right_of_le (kept.past entry member),
      history, store, sent, fun performed member => ?_⟩
    obtain ⟨early, source⟩ := sources performed member
    exact ⟨Nat.le_add_right_of_le early, source⟩

/-- A time to live that a batch gives lasts as long as the counter is kept. -/
theorem keptUntil_le {call : Call} {ts : Int} {counter : Counter} {seconds : Nat}
    (member : .expire counter seconds ∈ batch call ts) :
    ∃ last, counter.keptUntil = some last ∧ last ≤ (ts + seconds) * 1000 := by
  have limited : (counter = .minute (ts / 60) ∧ seconds = 21600) ∨
      (counter = .hour (ts / 3600) ∧ seconds = 3024000) ∨
      (counter = .day (ts / 86400) ∧ seconds = 34560000) ∨
      (counter = .bytesHour (ts / 3600) ∧ seconds = 3024000) ∨
      (counter = .subHour call.sub (ts / 3600) ∧ seconds = 3024000) := by
    rw [batch] at member
    split_ifs at member <;> simpa [or_assoc] using member
  rcases limited with ⟨rfl, rfl⟩ | ⟨rfl, rfl⟩ | ⟨rfl, rfl⟩ | ⟨rfl, rfl⟩ | ⟨rfl, rfl⟩
  all_goals exact ⟨_, rfl, by omega⟩

/-- The amount of a command for the key of a counter is what its instruction adds. -/
theorem amount_command (instruction : Instruction) (counter : Counter) :
    instruction.command.bind (Command.amount? (counter.key, none)) =
      instruction.adds counter := by
  cases instruction with
  | incrBy added amount =>
    rw [Instruction.command, Option.bind_some, Command.amount?, Instruction.adds]
    by_cases same : added = counter
    · rw [if_pos same, if_pos (by rw [same])]
    · rw [if_neg same, if_neg (fun keys => same (key_injective (Prod.mk.inj keys).1))]
  | expire other seconds => rfl
  | hIncrBy key field amount =>
    have other : (key, some field) ≠ (counter.key, none) := by simp
    rw [Instruction.command, Option.bind_some, Command.amount?, if_neg other]
    rfl
  | other => rfl

/-- What the commands of the history add to a key of the store is what the world counts for it. -/
theorem amounts_commands (w : World) (counter : Counter) :
    ExpiringCounters.amounts (w.entries.flatMap Entry.commands) (counter.key, none) =
      w.amounts counter := by
  rw [ExpiringCounters.amounts, List.filterMap_flatMap, World.amounts]
  congr 1
  funext entry
  rw [Entry.commands, List.filterMap_filterMap, Entry.amounts]
  simp only [amount_command]

/-- A counter that is kept holds what was added to it. -/
theorem get_eq {w : World} (kept : Kept w) {counter : Counter}
    (alive : ∀ last ∈ counter.keptUntil, (w.now : Int) ≤ last)
    (small : InRange (w.amounts counter)) :
    w.get counter = (w.amounts counter).sum := by
  obtain ⟨history, store, sent, sources⟩ := kept.history
  have same : (ExpiringCounters.amounts (history.map Prod.snd) (counter.key, none)).Perm
      (w.amounts counter) := by
    rw [← amounts_commands]
    exact sent.filterMap _
  have small' : InRange (ExpiringCounters.amounts (history.map Prod.snd) (counter.key, none)) := by
    rw [InRange, (same.map _).sum_eq]
    exact small
  have lasting : ∀ performed ∈ history, ∀ span,
      performed.2 = .expire (counter.key, none) span →
      ∃ last, counter.keptUntil = some last ∧ last ≤ ((performed.1 + span : Nat) : Int) := by
    intro performed member span command
    obtain ⟨-, entry, later, from'⟩ := sources performed member
    obtain ⟨instruction, known, found⟩ := List.mem_filterMap.mp from'
    rw [command] at found
    cases instruction with
    | expire other seconds =>
      obtain ⟨keys, rfl⟩ := Command.expire.inj (Option.some.inj found)
      obtain rfl := key_injective (Prod.mk.inj keys).1
      obtain ⟨last, until', bound⟩ := keptUntil_le known
      refine ⟨last, until', bound.trans ?_⟩
      rw [Entry.ts]
      omega
    | incrBy other amount => cases found
    | hIncrBy key field amount => cases found
    | other => cases found
  rw [World.get, store, ← same.sum_eq]
  cases until' : counter.keptUntil with
  | none =>
    refine @read_after Key _ w.now _ _ _ (fun performed member => (sources performed member).1)
      ?_ small' le_rfl
    intro performed member span command
    obtain ⟨last, limited, -⟩ := lasting performed member span command
    rw [until'] at limited
    cases limited
  | some last =>
    have now := alive last until'
    refine @read_after Key _ last.toNat _ _ _ ?_ ?_ small' (by omega)
    · intro performed member
      have early := (sources performed member).1
      omega
    · intro performed member span command
      obtain ⟨last', limited, bound⟩ := lasting performed member span command
      rw [until'] at limited
      obtain rfl := Option.some.inj limited
      omega

/-! ## What is shown -/

/-- The counters that have one for each stretch of time. -/
inductive Kind where
  | minutes
  | hours
  | days
  | hourBytes
  | callerHours (sub : Str)

namespace Kind

variable (kind : Kind)

/-- The seconds of a stretch. -/
def width : Int :=
  match kind with
  | minutes => 60
  | days => 86400
  | hours | hourBytes | callerHours _ => 3600

/-- The seconds for which a counter is kept, from the start of its stretch. -/
def life : Int :=
  match kind with
  | minutes => 21600
  | days => 34560000
  | hours | hourBytes | callerHours _ => 3024000

/-- The counters of a line. -/
def counter : Int → Counter :=
  match kind with
  | minutes => .minute
  | hours => .hour
  | days => .day
  | hourBytes => .bytesHour
  | callerHours sub => .subHour sub

/-- The stretch that a request falls in. -/
def place (entry : Entry) : Int := entry.ts / kind.width

end Kind

/-- What a request has added to a counter so far. -/
def Entry.added (entry : Entry) (counter : Counter) : Int := (entry.amounts counter).sum

/-- What was added to a counter so far. -/
def World.added (w : World) (counter : Counter) : Int :=
  (w.entries.map (fun entry => entry.added counter)).sum

/-- What a request has added so far to the counter of its own stretch. -/
def Kind.share (kind : Kind) (entry : Entry) : Int := entry.added (kind.counter (kind.place entry))

/-- What the requests that fall in a range of stretches have added so far. -/
def World.within (w : World) (kind : Kind) (after upTo : Int) : Int :=
  Buckets.within w.entries kind.place kind.share after upTo

/-- A request only adds to the counter of its own stretch. -/
theorem Kind.amounts_of_ne {kind : Kind} {entry : Entry} {place : Int}
    (elsewhere : kind.place entry ≠ place) : entry.amounts (kind.counter place) = [] := by
  rw [Entry.amounts, List.filterMap_eq_nil_iff]
  intro instruction carried
  have member : instruction ∈ batch entry.call entry.ts := List.mem_of_mem_take carried
  cases instruction with
  | incrBy counter amount =>
    rw [Instruction.adds]
    refine if_neg (fun same => elsewhere ?_)
    subst same
    rw [batch] at member
    cases kind <;> split_ifs at member <;> simp [Kind.counter] at member <;>
      simp [Kind.place, Kind.width, member]
  | expire counter seconds => rfl
  | hIncrBy key field amount => rfl
  | other => rfl

/-- What was added to a counter is the sum of its amounts. -/
theorem World.added_eq (w : World) (counter : Counter) :
    w.added counter = (w.amounts counter).sum := by
  rw [World.added, World.amounts, List.flatMap, List.sum_flatten, List.map_map]
  rfl

/-- What was added to a counter of a line is what falls into its bucket. -/
theorem World.added_bucket (w : World) (kind : Kind) (place : Int) :
    w.added (kind.counter place) = Buckets.bucket w.entries kind.place kind.share place := by
  rw [World.added]
  induction w.entries with
  | nil => rfl
  | cons entry rest inductionHypothesis =>
    rw [List.map_cons, List.sum_cons, Buckets.bucket_cons, inductionHypothesis]
    congr 1
    by_cases here : kind.place entry = place
    · rw [if_pos here, Kind.share, here]
    · rw [if_neg here, Entry.added, Kind.amounts_of_ne here, List.sum_nil]

/-- The requests are too few and too small for a counter to overflow. -/
def Modest (w : World) : Prop := (w.entries.map (fun entry => |entry.call.bytes| + 1)).sum < 2 ^ 63

/-- What a request counts for in a counter, if it counts there at all. -/
def Counter.due (counter : Counter) (call : Call) (ts : Int) : Option Int :=
  match counter with
  | total => some 1
  | bytesOut => some call.bytes
  | tooMany => if call.status = 429 then some 1 else none
  | minute m => if ts / 60 = m then some 1 else none
  | hour h => if ts / 3600 = h then some 1 else none
  | day d => if ts / 86400 = d then some 1 else none
  | bytesHour h => if ts / 3600 = h then some call.bytes else none
  | subTotal sub => if call.sub = sub then some 1 else none
  | subBytes sub => if call.sub = sub then some call.bytes else none
  | subHour sub h => if call.sub = sub ∧ ts / 3600 = h then some 1 else none

/-- A batch adds to every counter what the request counts for in it, once. -/
theorem batch_due (call : Call) (ts : Int) (counter : Counter) :
    (batch call ts).filterMap (Instruction.adds counter) = (counter.due call ts).toList := by
  rw [batch]
  cases counter <;> split_ifs <;>
    simp only [List.cons_append, List.nil_append, List.filterMap_cons, List.filterMap_nil,
      Instruction.adds, reduceCtorEq, if_false, if_true, Counter.minute.injEq, Counter.hour.injEq,
      Counter.day.injEq, Counter.bytesHour.injEq, Counter.subTotal.injEq, Counter.subBytes.injEq,
      Counter.subHour.injEq, Counter.due, *] <;>
    (try split_ifs) <;> rfl

/-- It is one or the bytes. -/
theorem due_le {counter : Counter} {call : Call} {ts n : Int}
    (due : counter.due call ts = some n) : |n| ≤ |call.bytes| + 1 := by
  have positive := abs_nonneg call.bytes
  have either : n = 1 ∨ n = call.bytes := by
    cases counter <;> simp [Counter.due] at due <;> omega
  rcases either with rfl | rfl
  · simp
  · omega

/-- A counter of a modest history stays in the range of the store's numbers. -/
theorem Modest.small {w : World} (modest : Modest w) (counter : Counter) :
    InRange (w.amounts counter) := by
  refine lt_of_le_of_lt ?_ modest
  rw [World.amounts]
  induction w.entries with
  | nil => exact le_rfl
  | cons entry rest inductionHypothesis =>
    rw [List.flatMap_cons, List.map_append, List.sum_append, List.map_cons, List.sum_cons]
    have bound : ((counter.due entry.call entry.ts).toList.map (fun n => |n|)).sum ≤
        |entry.call.bytes| + 1 := by
      cases due : counter.due entry.call entry.ts with
      | none =>
        have positive := abs_nonneg entry.call.bytes
        rw [Option.toList_none, List.map_nil, List.sum_nil]
        omega
      | some n => simpa using due_le due
    rw [← batch_due] at bound
    refine add_le_add (le_trans ?_ bound) inductionHypothesis
    rw [Entry.amounts]
    have fewer := ((List.take_sublist entry.done entry.instructions).filterMap
      (Instruction.adds counter)).map (fun n : Int => |n|)
    refine fewer.sum_le_sum (fun n member => ?_)
    obtain ⟨amount, -, rfl⟩ := List.mem_map.mp member
    exact abs_nonneg amount

/-- The counter of a stretch is kept for the life of its kind. -/
theorem Kind.keptUntil_counter (kind : Kind) (place : Int) :
    (kind.counter place).keptUntil = some ((place * kind.width + kind.life) * 1000) := by
  cases kind <;> rfl

/-- A counter that is kept for good holds what the requests have added. -/
theorem get_lasting {w : World} (kept : Kept w) (modest : Modest w) {counter : Counter}
    (lasting : counter.keptUntil = none) : w.get counter = w.added counter := by
  rw [World.added_eq]
  refine get_eq kept (fun last limited => ?_) (modest.small counter)
  rw [lasting] at limited
  cases limited

/-- So does the counter of one of the newest stretches, for some time after the last of them. -/
theorem get_stretch {w : World} (kept : Kept w) (modest : Modest w) (kind : Kind) {last late : Int}
    {k : Nat} (before : (w.now : Int) ≤ (last * kind.width + kind.width + late) * 1000)
    (lasting : (k + 1) * kind.width + late ≤ kind.life) :
    w.get (kind.counter (last - k)) = w.added (kind.counter (last - k)) := by
  rw [World.added_eq]
  refine get_eq kept (fun until' limited => ?_) (modest.small _)
  rw [Kind.keptUntil_counter] at limited
  obtain rfl := Option.some.inj limited
  refine before.trans (mul_le_mul_of_nonneg_right ?_ (by decide))
  linarith

/-- The newest stretches hold what the requests that fall in them have added. -/
theorem newest_eq {w : World} (kept : Kept w) (modest : Modest w) (kind : Kind) {last late : Int}
    {n : Nat} (before : (w.now : Int) ≤ (last * kind.width + kind.width + late) * 1000)
    (lasting : n * kind.width + late ≤ kind.life) :
    (newest kind.counter last n).map w.get =
      Buckets.newest w.entries kind.place kind.share last n := by
  rw [newest, List.map_map]
  refine List.map_congr_left (fun k inside => ?_)
  have few := List.mem_range.mp inside
  have wide : 0 ≤ kind.width := by cases kind <;> simp [Kind.width]
  have stretches : ((k : Int) + 1) * kind.width ≤ n * kind.width :=
    mul_le_mul_of_nonneg_right (by omega) wide
  rw [Function.comp_apply, get_stretch kept modest kind before (by linarith), World.added_bucket]

/-- Bins that come out even are the sums of the stretches of the counts. -/
theorem bins_eq {size : Nat} {fuel m : Nat} {counts : List Int} (even : counts.length = m * size)
    (positive : 0 < size) (enough : m ≤ fuel) :
    bins size fuel counts =
      (List.range m).map (fun k => ((counts.drop (k * size)).take size).sum) := by
  induction m generalizing fuel counts with
  | zero =>
    rw [Nat.zero_mul] at even
    obtain rfl := List.length_eq_zero_iff.mp even
    cases fuel <;> rfl
  | succ m inductionHypothesis =>
    obtain ⟨fuel, rfl⟩ : ∃ less, fuel = less + 1 := ⟨fuel - 1, by omega⟩
    cases counts with
    | nil =>
      rw [List.length_nil, Nat.succ_mul] at even
      omega
    | cons count counts =>
      have rest : ((count :: counts).drop size).length = m * size := by
        rw [List.length_drop, even, Nat.succ_mul, Nat.add_sub_cancel]
      have later (k : Nat) : size + k * size = (k + 1) * size := by
        rw [Nat.succ_mul, Nat.add_comm]
      rw [bins, inductionHypothesis rest (by omega), List.range_succ_eq_map, List.map_cons,
        List.map_map, Nat.zero_mul, List.drop_zero]
      · simp only [List.drop_drop, Function.comp_def, later]
      · exact fun none => nomatch none

/-- The line that is drawn has the newest slots of stretches, each with what its requests
added. -/
theorem sparkOf_newest (items : List Entry) (place share : Entry → Int) (last : Int) {m size : Nat}
    (size_eq : size = max (m * size / sparkPoints) 1) :
    sparkOf (Buckets.newest items place share last (m * size)) =
      ((List.range (min sparkPoints m)).map (fun k : Nat =>
        Buckets.within items place share (last - (k + 1) * size) (last - k * size))).reverse := by
  have positive : 0 < size := by omega
  have enough : m ≤ m * size := Nat.le_mul_of_pos_right m positive
  rw [sparkOf, Buckets.length_newest, ← size_eq, bins_eq (Buckets.length_newest ..) positive enough,
    ← List.map_take, List.take_range]
  congr 1
  refine List.map_congr_left (fun k inside => ?_)
  have early : k < m := (List.mem_range.mp inside).trans_le (min_le_right _ _)
  have room : size ≤ m * size - k * size := by
    rw [← Nat.sub_mul]
    exact Nat.le_mul_of_pos_left size (by omega)
  rw [Buckets.sum_stretch, Nat.min_eq_left room]
  have start : last - ((k * size : Nat) : Int) - size = last - ((k : Int) + 1) * size := by
    push_cast
    ring
  rw [start]
  push_cast
  rfl

namespace Visit

variable (visit : Visit)

/-- What the requests have added to a counter when a command reads it, if that is answered. -/
def added (i : Nat) (counter : Counter) : Int :=
  if visit.answered i then (visit.world i).added counter else 0

/-- What the requests of a range of stretches have added when a command reads them. -/
def within (i : Nat) (kind : Kind) (after upTo : Int) : Int :=
  if visit.answered i then (visit.world i).within kind after upTo else 0

/-- A line of numbers of the world that a command meets. -/
def line (i : Nat) (numbers : World → List Int) : List Int :=
  if visit.answered i then numbers (visit.world i) else []

/-- What `windowed` should show: for a window, the requests of its newest stretches. -/
def shown (i : Nat) : Option Nat → Windowed
  | none => {
      count := visit.added (i + 1) .total
      spark := visit.line (i + 2) (fun w => ((List.range 30).map (fun k : Nat =>
        w.added (.day (visit.clock i / 86400 - k)))).reverse)
      granularity := "day".str
      bytes := some (visit.added (i + 3) .bytesOut) }
  | some secs =>
    let (kind, granularity, bytes) : Kind × Str × Option Kind :=
      if secs ≤ 21600 then (.minutes, "min".str, none) else (.hours, "hr".str, some .hourBytes)
    let last := visit.clock i / kind.width
    let n := secs / kind.width.toNat
    let slot := max (n / sparkPoints) 1
    { count := visit.within (i + 1) kind (last - n) last
      spark := visit.line (i + 1) (fun w =>
        ((List.range (min sparkPoints (n / slot))).map (fun k : Nat =>
          w.within kind (last - (k + 1) * slot) (last - k * slot))).reverse)
      granularity
      bytes := bytes.map (fun kind => visit.within (i + 2) kind (last - n) last) }

/-- What `gather` should show: of the last minutes too. -/
def shownAll (winSecs : Option Nat) : Metrics where
  total := visit.added 0 .total
  bytesOut := visit.added 1 .bytesOut
  r429 := visit.added 2 .tooMany
  window := visit.shown 9 winSecs
  last60m := visit.within 14 .minutes (visit.clock 13 / 60 - 60) (visit.clock 13 / 60)
  rpmNow := visit.added 14 (.minute (visit.clock 13 / 60 - 1))

/-- What `usage_me` should show of a caller. -/
def shownMe (sub : Str) : Json :=
  let hours := (List.range 24).reverse.map (fun h : Nat =>
    visit.added (26 - h) (.subHour sub (visit.clock 2 / 3600 - h)))
  .object [("sub".str, .string sub),
    ("total_calls".str, .number (.int (visit.added 0 (.subTotal sub)))),
    ("bytes_out".str, .number (.int (visit.added 1 (.subBytes sub)))),
    ("calls_last_24h".str, .number (.int hours.sum)),
    ("hourly_last_24h".str, .array (hours.map (fun count => .number (.int count))))]

/-- A command is carried out by the end of the minute of a look at the clock, or some seconds
after it. -/
def By (look command : Nat) (late : Int) : Prop :=
  ((visit.world command).now : Int) ≤ (visit.clock look / 60 * 60 + 60 + late) * 1000

end Visit

/-- How long after its minute a window may be read. The counters of six hours of minutes begin to
expire at once. -/
def lateness (winSecs : Option Nat) : Int := if winSecs = some 21600 then 0 else 18000

/-- A visit while requests are recorded, whose commands meet moments of one run. -/
structure Visited (visit : Visit) : Prop where
  begins : Reaches step {} (visit.world 0)
  goes : ∀ i, Reaches step (visit.world i) (visit.world (i + 1))
  modest : ∀ i, Modest (visit.world i)

/-- A batch that is carried out adds to every counter what the request counts for in it. -/
theorem Entry.added_done {entry : Entry} (done : entry.instructions.length ≤ entry.done)
    (counter : Counter) :
    entry.added counter = (counter.due entry.call entry.ts).getD 0 := by
  rw [Entry.added, Entry.amounts, Entry.carriedOut, List.take_of_length_le done,
    Entry.instructions, batch_due]
  cases counter.due entry.call entry.ts <;> simp

namespace Visited

variable {visit : Visit} (visited : Visited visit)

include visited

/-- Every command meets a store that was kept from the start. -/
theorem kept (i : Nat) : Kept (visit.world i) := by
  have step (w : World) (label : Label) (next : World) (held : Kept w)
      (stepped : Usage.step w label = some next) : Kept next := held.step stepped
  induction i with
  | zero => exact visited.begins.invariant Kept.start step
  | succ i inductionHypothesis => exact (visited.goes i).invariant inductionHypothesis step

/-- A counter that does not expire is read exactly. -/
theorem get_lasting (i : Nat) {counter : Counter} (lasting : counter.keptUntil = none) :
    visit.get i counter = visit.added i counter := by
  rw [Visit.get, Visit.added, Usage.get_lasting (visited.kept i) (visited.modest i) lasting]

/-- The newest stretches of a kind together. -/
theorem sum_mget (kind : Kind) {i n : Nat} {last late : Int}
    (before : ((visit.world i).now : Int) ≤ (last * kind.width + kind.width + late) * 1000)
    (lasting : n * kind.width + late ≤ kind.life) :
    (visit.mget i (newest kind.counter last n)).sum = visit.within i kind (last - n) last := by
  rw [Visit.mget, Visit.within]
  split_ifs
  · rw [newest_eq (visited.kept i) (visited.modest i) kind before lasting, Buckets.sum_newest,
      World.within]
  · rfl

/-- A line that is read soon enough is the line of the history: every point is a stretch of buckets,
none of which has expired. -/
theorem sparkOf_mget (kind : Kind) {i n : Nat} {last late : Int}
    (before : ((visit.world i).now : Int) ≤ (last * kind.width + kind.width + late) * 1000)
    (lasting : n * kind.width + late ≤ kind.life)
    (even : n / max (n / sparkPoints) 1 * max (n / sparkPoints) 1 = n) :
    sparkOf (visit.mget i (newest kind.counter last n)) =
      visit.line i (fun w =>
        ((List.range (min sparkPoints (n / max (n / sparkPoints) 1))).map (fun k : Nat =>
          w.within kind (last - (k + 1) * (max (n / sparkPoints) 1 : Nat))
            (last - k * (max (n / sparkPoints) 1 : Nat)))).reverse) := by
  rw [Visit.mget, Visit.line]
  split_ifs
  · have slots := @sparkOf_newest (visit.world i).entries kind.place kind.share last
      (n / max (n / sparkPoints) 1) (max (n / sparkPoints) 1) (by rw [even])
    rw [even] at slots
    rw [newest_eq (visited.kept i) (visited.modest i) kind before lasting, slots]
    rfl
  · rfl

/-- Every window shows the requests of its stretches: none of its counters has expired. -/
theorem windowed_eq {i : Nat} {winSecs : Option Nat} {name : Str}
    (window : (name, winSecs) ∈ windows) (first : visit.By i (i + 1) (lateness winSecs))
    (second : visit.By i (i + 2) (lateness winSecs)) :
    windowed visit i winSecs = visit.shown i winSecs := by
  rw [Visit.By] at first second
  cases winSecs with
  | none =>
    have days : visit.mget (i + 2) (newest .day (visit.clock i / 86400) 30) =
        visit.line (i + 2) (fun w => (List.range 30).map (fun k : Nat =>
          w.added (.day (visit.clock i / 86400 - k)))) := by
      rw [Visit.mget, Visit.line]
      split_ifs
      · have each : Buckets.newest (visit.world (i + 2)).entries Kind.days.place Kind.days.share
            (visit.clock i / 86400) 30 = (List.range 30).map (fun k : Nat =>
              (visit.world (i + 2)).added (.day (visit.clock i / 86400 - k))) :=
          List.map_congr_left (fun k _ => ((visit.world (i + 2)).added_bucket .days _).symm)
        have late : lateness none = 18000 := rfl
        rw [late] at second
        have within : ((visit.world (i + 2)).now : Int) ≤
            (visit.clock i / 86400 * 86400 + 86400 + 18000) * 1000 := by omega
        rw [← each]
        exact newest_eq (visited.kept _) (visited.modest _) .days within (by decide)
      · rfl
    rw [windowed, Visit.shown, days, visited.get_lasting _ rfl, visited.get_lasting _ rfl]
    simp only [Visit.line, apply_ite List.reverse, List.reverse_nil]
  | some secs =>
    have known : (secs ≤ 21600 ∧ secs / 60 / max (secs / 60 / sparkPoints) 1 *
          max (secs / 60 / sparkPoints) 1 = secs / 60 ∧
          ((secs / 60 : Nat) : Int) * 60 + lateness (some secs) ≤ 21600) ∨
        (¬ secs ≤ 21600 ∧ secs ≤ 2592000 ∧ secs / 3600 / max (secs / 3600 / sparkPoints) 1 *
          max (secs / 3600 / sparkPoints) 1 = secs / 3600 ∧
          ((secs / 3600 : Nat) : Int) * 3600 + lateness (some secs) ≤ 3024000) := by
      simp only [windows, List.mem_cons, Prod.mk.injEq, Option.some.injEq, reduceCtorEq, and_false,
        List.not_mem_nil, or_false] at window
      rcases window with ⟨-, rfl⟩ | ⟨-, rfl⟩ | ⟨-, rfl⟩ | ⟨-, rfl⟩ | ⟨-, rfl⟩ <;> decide
    rcases known with ⟨short, even, lasting⟩ | ⟨long, bounded, even, lasting⟩
    · have count := visited.sum_mget .minutes first lasting
      have spark := visited.sparkOf_mget .minutes first lasting even
      simp only [windowed, Visit.shown, if_pos short]
      exact congr_arg₂ (fun count spark => Windowed.mk count spark "min".str none) count spark
    · have hour {command : Nat} (early : ((visit.world command).now : Int) ≤
          (visit.clock i / 60 * 60 + 60 + lateness (some secs)) * 1000) :
          ((visit.world command).now : Int) ≤
            (visit.clock i / 3600 * 3600 + 3600 + lateness (some secs)) * 1000 := by omega
      have count := visited.sum_mget .hours (hour first) lasting
      have spark := visited.sparkOf_mget .hours (hour first) lasting even
      have bytes := visited.sum_mget .hourBytes (hour second) lasting
      simp only [windowed, Visit.shown, if_neg long, if_pos bounded]
      exact congr (congr_arg₂ (fun count spark => Windowed.mk count spark "hr".str) count spark)
        (congr_arg some bytes)

/-- A page whose windows are read soon enough shows what the history says. -/
theorem gather_eq {winSecs : Option Nat} {name : Str} (window : (name, winSecs) ∈ windows)
    (first : visit.By 9 10 (lateness winSecs)) (second : visit.By 9 11 (lateness winSecs))
    (minutes : visit.By 13 14 18000) : gather visit winSecs = visit.shownAll winSecs := by
  have last60m := visited.sum_mget .minutes (n := 60) minutes (by decide)
  have minute : (if 1 < (visit.mget 14 (newest .minute (visit.clock 13 / 60) 60)).length
      then (visit.mget 14 (newest .minute (visit.clock 13 / 60) 60)).getD 1 0 else 0) =
        visit.added 14 (.minute (visit.clock 13 / 60 - 1)) := by
    rw [Visit.mget, Visit.added]
    cases visit.answered 14 with
    | true =>
      exact @get_stretch _ (visited.kept 14) (visited.modest 14) .minutes _ _ 1 minutes (by decide)
    | false => rfl
  rw [gather, Visit.shownAll, visited.get_lasting 0 rfl, visited.get_lasting 1 rfl,
    visited.get_lasting 2 rfl, visited.windowed_eq window first second, ← minute]
  exact congr_arg (fun last60m => Metrics.mk _ _ _ _ last60m _) last60m

/-- The same for the page of one caller. -/
theorem usageMe_eq (sub : Str) (hours : ∀ h < 24, visit.By 2 (26 - h) 18000) :
    usageMe visit sub = visit.shownMe sub := by
  have each : (List.range 24).reverse.map (fun h : Nat =>
        visit.get (26 - h) (.subHour sub (visit.clock 2 / 3600 - h))) =
      (List.range 24).reverse.map (fun h : Nat =>
        visit.added (26 - h) (.subHour sub (visit.clock 2 / 3600 - h))) := by
    refine List.map_congr_left (fun h member => ?_)
    have few := List.mem_range.mp (List.mem_reverse.mp member)
    have early := hours h few
    rw [Visit.By] at early
    have within : ((visit.world (26 - h)).now : Int) ≤
        (visit.clock 2 / 3600 * 3600 + 3600 + 18000) * 1000 := by omega
    rw [Visit.get, Visit.added]
    congr 1
    refine get_stretch (visited.kept _) (visited.modest _) (.callerHours sub) within ?_
    rw [Kind.width, Kind.life]
    omega
  rw [usageMe, Visit.shownMe, each, visited.get_lasting 0 rfl, visited.get_lasting 1 rfl]

end Visited

/-- A window that is asked for is one of the known. -/
theorem resolved_mem (window : Option Str) :
    (resolved unicode window, secondsOf (resolved unicode window)) ∈ windows := by
  have known : windows.any (fun known => known.1 = resolved unicode window) = true := by
    rw [resolved]
    cases found : (window.map unicode.toLowercase).filter
      (fun w => windows.any (fun known => known.1 = w)) with
    | none => decide
    | some win => exact (Option.filter_eq_some_iff.mp found).2
  generalize resolved unicode window = win at known ⊢
  have all : windows.all (fun known => secondsOf known.1 = known.2) = true := by decide +kernel
  obtain ⟨entry, member, same⟩ := List.any_eq_true.mp known
  obtain rfl := of_decide_eq_true same
  rw [of_decide_eq_true (List.all_eq_true.mp all entry member)]
  exact member

/-- The dashboard and the page of a caller show, command by command, what the requests of the
shown stretches have added when the command is answered: of a request whose batch is through,
all that it counts for. -/
theorem metering_exact {visit : Visit} (visited : Visited visit) :
    (∀ window, visit.By 9 10 (lateness (secondsOf (resolved unicode window))) →
      visit.By 9 11 (lateness (secondsOf (resolved unicode window))) → visit.By 13 14 18000 →
      usage unicode visit window =
        (resolved unicode window, visit.shownAll (secondsOf (resolved unicode window)))) ∧
    (∀ sub, (∀ h < 24, visit.By 2 (26 - h) 18000) →
      usageMe visit sub = visit.shownMe sub) ∧
    (∀ c d : Counter, c.key = d.key → c = d) ∧
    ∀ i, ∀ entry ∈ (visit.world i).entries, entry.instructions.length ≤ entry.done → ∀ counter,
      entry.added counter = (counter.due entry.call entry.ts).getD 0 := by
  refine ⟨fun window first second minutes => ?_, fun sub hours => visited.usageMe_eq sub hours,
    fun _ _ => key_injective, fun _ entry _ done => entry.added_done done⟩
  rw [usage, visited.gather_eq (resolved_mem unicode window) first second minutes]

/-- Two requests of different hours, the second one refused, and five commands of each batch. -/
def mixing : List Label :=
  [.pass 90000500, .record ⟨"alice".str, "GET".str, "/query".str, 200, 700⟩, .pass 3600000,
    .record ⟨"bob".str, "GET".str, "/query".str, 429, 50⟩] ++
    (List.range 5).flatMap (fun _ => [.execute 1, .execute 0])

/-- The rest of the batches; the last command of the second one is lost. -/
def mixed : List Label := (List.range 14).flatMap (fun _ => [.execute 1, .execute 0])

/-- The world in the middle of the two batches. -/
def mixingWorld : World := (run step {} mixing).getD {}

/-- The world after both batches. -/
def mixedWorld : World := (run step mixingWorld mixed).getD {}

/-- A page whose second command fails, and whose last commands meet the rest of the batches. -/
def mixedVisit : Visit where
  world i := if i < 10 then mixingWorld else mixedWorld
  answered i := i != 1

/-- The visit follows the run. -/
theorem mixedVisit_visited : Visited mixedVisit := by
  have first : run step {} mixing = some mixingWorld := by
    have goes : (run step {} mixing).isSome = true := by decide +kernel
    obtain ⟨w, ends⟩ := Option.isSome_iff_exists.mp goes
    rw [mixingWorld, ends, Option.getD_some]
  have second : run step mixingWorld mixed = some mixedWorld := by
    have goes : (run step mixingWorld mixed).isSome = true := by decide +kernel
    obtain ⟨w, ends⟩ := Option.isSome_iff_exists.mp goes
    rw [mixedWorld, ends, Option.getD_some]
  have small : Modest mixingWorld ∧ Modest mixedWorld := by
    rw [Modest, Modest]
    decide +kernel
  refine ⟨⟨mixing, first⟩, fun i => ?_, fun i => ?_⟩
  · rw [mixedVisit]
    dsimp only
    split_ifs with before after
    · exact ⟨[], rfl⟩
    · exact ⟨mixed, second⟩
    · omega
    · exact ⟨[], rfl⟩
  · rw [mixedVisit]
    dsimp only
    split_ifs
    · exact small.1
    · exact small.2

/-- Two batches that overlap are shown in full. -/
theorem mixed_metered :
    (usage Crates.plain.unicode mixedVisit (some "6H".str)).1 = "6h".str ∧
    (usage Crates.plain.unicode mixedVisit (some "6H".str)).2.total = 2 ∧
    (usage Crates.plain.unicode mixedVisit (some "6H".str)).2.bytesOut = 0 ∧
    (usage Crates.plain.unicode mixedVisit (some "6H".str)).2.window.count = 2 ∧
    (usage Crates.plain.unicode mixedVisit none).2.window.bytes = some 750 ∧
    (usage Crates.plain.unicode mixedVisit none).2.last60m = 1 ∧
    usageMe mixedVisit "alice".str = mixedVisit.shownMe "alice".str := by
  obtain ⟨dashboard, own, -⟩ := metering_exact Crates.plain.unicode mixedVisit_visited
  have clock (i : Nat) : mixedVisit.clock i = 93600 ∧ ((mixedVisit.world i).now : Int) = 93600500 := by
    have both : mixingWorld.now = 93600500 ∧ mixedWorld.now = 93600500 := by decide +kernel
    rw [Visit.clock, mixedVisit]
    dsimp only
    split_ifs
    · rw [both.1]
      decide
    · rw [both.2]
      decide
  have early (look command : Nat) {late : Int} (some : 0 ≤ late) :
      mixedVisit.By look command late := by
    rw [Visit.By, (clock look).1, (clock command).2]
    omega
  rw [dashboard (some "6H".str) (early 9 10 (by decide)) (early 9 11 (by decide))
      (early 13 14 (by decide)), dashboard none (early 9 10 (by decide)) (early 9 11 (by decide))
      (early 13 14 (by decide))]
  refine ⟨?_, ?_, ?_, ?_, ?_, ?_, own "alice".str (fun h _ => early 2 (26 - h) (by decide))⟩ <;>
    decide +kernel

end LumidPlatform.Usage
