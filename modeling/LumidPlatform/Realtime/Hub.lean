import LumidPlatform.Crates
import LumidPlatform.Lib.Switches

/-!
# The realtime hub

The hub keeps the connections, an index from symbols to their subscribers, the last
connection of each caller and the tier label of each symbol. What a call does under the state
lock is one function here; it also says which symbols went from no subscriber to one or back,
in the order the demand listeners are told of them after the lock is dropped.
-/

namespace LumidPlatform.Realtime

open Switches

/-- The transports of a stream. -/
inductive ConnKind where
  | ws
  | sse
  deriving DecidableEq

/-- A `Connection`, without its queue. -/
structure Connection where
  id : Str
  sub : Str
  kind : ConnKind
  maxQueue : Nat
  deriving DecidableEq

/-- `HubState`. The counters of symbols ever subscribed, which each connection has for itself,
are kept beside it. -/
structure HubState where
  connections : HashMap Connection := ∅
  subsBySymbol : HashMap (HashMap Connection) := ∅
  connectionsBySub : HashMap Connection := ∅
  tierBySymbol : HashMap Str := ∅
  /-- `lifetime_symbols`. -/
  lifetimeSymbols : HashMap Nat := ∅

namespace HubState

/-- The subscribers of a symbol. -/
def subscribers (st : HubState) (symbol : Str) : HashMap Connection :=
  (st.subsBySymbol.lookup symbol).getD ∅

/-- Whether anybody follows a symbol. -/
def hasSubscriber (st : HubState) (symbol : Str) : Bool := !(st.subscribers symbol).entries.isEmpty

/-- `register`: the connection of the same caller that is evicted, if any, is returned. -/
def register (st : HubState) (conn : Connection) (enforceConcurrent : Bool) :
    HubState × Option Connection :=
  let prev := st.connectionsBySub.lookup conn.sub
  ({ st with
      connections := st.connections.insert conn.id conn
      connectionsBySub := st.connectionsBySub.insert conn.sub conn },
    prev.filter (fun p => enforceConcurrent && decide (p.id ≠ conn.id)))

/-- The body of the loop of `subscribe`: whether the symbol had no subscriber is returned. -/
def addSubscriber (st : HubState) (conn : Connection) (symbol : Str) : HubState × Bool :=
  let entry := st.subscribers symbol
  let first := entry.entries.isEmpty
  if conn.id ∈ entry then ({ st with subsBySymbol := st.subsBySymbol.insert symbol entry }, first)
  else
    ({ st with
        subsBySymbol := st.subsBySymbol.insert symbol (entry.insert conn.id conn)
        lifetimeSymbols := st.lifetimeSymbols.insert conn.id
          ((st.lifetimeSymbols.lookup conn.id).getD 0 + 1) }, first)

/-- `get_tier`. -/
def getTier (st : HubState) (symbol : Str) : Str := (st.tierBySymbol.lookup symbol).getD "B".str

/-- `subscribe`: the tier labels, and the demand that is new. -/
def subscribe (conn : Connection) : List Str → HubState → HubState × HashMap Str × List (Str × Bool)
  | [], st => (st, ∅, [])
  | symbol :: rest, st =>
    let (added, first) := st.addSubscriber conn symbol
    let (final, tiers, demand) := subscribe conn rest added
    (final, tiers.insert symbol (added.getTier symbol),
      if first then (symbol, true) :: demand else demand)

/-- What `unsubscribe` and `unregister` do for a symbol: whether the connection was there, and
whether it was the last. -/
def dropSubscriber (st : HubState) (id symbol : Str) : HubState × Bool × Bool :=
  match st.subsBySymbol.lookup symbol with
  | none => (st, false, false)
  | some m =>
    let left := m.erase id
    if left.entries.isEmpty then
      ({ st with subsBySymbol := st.subsBySymbol.erase symbol }, decide (id ∈ m), true)
    else ({ st with subsBySymbol := st.subsBySymbol.insert symbol left }, decide (id ∈ m), false)

/-- `unsubscribe`: the symbols removed, and the demand that has ended. -/
def unsubscribe (id : Str) : List Str → HubState → HubState × List Str × List (Str × Bool)
  | [], st => (st, [], [])
  | symbol :: rest, st =>
    let (dropped, was, ended) := st.dropSubscriber id symbol
    let (final, removed, demand) := unsubscribe id rest dropped
    (final, if was then symbol :: removed else removed,
      if ended then (symbol, false) :: demand else demand)

/-- The symbols a connection is subscribed to; the order in which the map yields them is not
specified. -/
def symbolsOf (st : HubState) (id : Str) : List Str :=
  (st.subsBySymbol.entries.filter (fun entry => decide (id ∈ entry.2))).map Sigma.fst

/-- `unregister`, the symbols of the connection being taken in the order given. -/
def unregister (conn : Connection) (symbols : List Str) (st : HubState) :
    HubState × List (Str × Bool) :=
  let (dropped, _, demand) :=
    unsubscribe conn.id symbols { st with connections := st.connections.erase conn.id }
  ({ dropped with
      connectionsBySub :=
        if (dropped.connectionsBySub.lookup conn.sub).any (fun c => c.id = conn.id) then
          dropped.connectionsBySub.erase conn.sub
        else dropped.connectionsBySub }, demand)

/-! ## What a call does to the index -/

/-- No symbol is kept without a subscriber. -/
def Tidy (st : HubState) : Prop :=
  ∀ symbol m, st.subsBySymbol.lookup symbol = some m → m.entries.isEmpty = false

variable {st : HubState} {conn : Connection} {id symbol : Str}

/-- In a tidy hub a symbol has an entry exactly while somebody follows it. -/
theorem Tidy.hasSubscriber_eq (tidy : st.Tidy) (symbol : Str) :
    st.hasSubscriber symbol = (st.subsBySymbol.lookup symbol).isSome := by
  rw [hasSubscriber, subscribers]
  cases found : st.subsBySymbol.lookup symbol with
  | none => rfl
  | some m => simpa using tidy symbol m found

/-- A map with a key is not empty. -/
theorem mem_entries_isEmpty {m : HashMap Connection} {key : Str} (member : key ∈ m) :
    m.entries.isEmpty = false := by
  rw [AList.mem_keys, AList.keys] at member
  cases listed : m.entries with
  | nil =>
    rw [listed] at member
    cases member
  | cons => rfl

/-- A subscription adds the connection under its symbol, unless it is there, and leaves the other
symbols alone. -/
theorem addSubscriber_lookup (st : HubState) (conn : Connection) (symbol other : Str) :
    (st.addSubscriber conn symbol).1.subsBySymbol.lookup other =
      if other = symbol then
        some (if conn.id ∈ st.subscribers symbol then st.subscribers symbol
          else (st.subscribers symbol).insert conn.id conn)
      else st.subsBySymbol.lookup other := by
  rw [addSubscriber]
  split_ifs with member same same
  · rw [same, AList.lookup_insert]
  · rw [AList.lookup_insert_ne same]
  · rw [same, AList.lookup_insert]
  · rw [AList.lookup_insert_ne same]

/-- It says whether it is the first of the symbol. -/
theorem addSubscriber_first (st : HubState) (conn : Connection) (symbol : Str) :
    (st.addSubscriber conn symbol).2 = !st.hasSubscriber symbol := by
  rw [addSubscriber, hasSubscriber]
  split_ifs <;> simp

/-- The connection is a subscriber of the symbol, and nothing else changes. -/
theorem mem_addSubscriber (st : HubState) (conn : Connection) (symbol other key : Str) :
    key ∈ (st.addSubscriber conn symbol).1.subscribers other ↔
      key ∈ st.subscribers other ∨ (other = symbol ∧ key = conn.id) := by
  rw [subscribers, addSubscriber_lookup]
  by_cases same : other = symbol
  · rw [if_pos same, Option.getD_some, same]
    split_ifs with member
    · constructor
      · exact Or.inl
      · rintro (there | ⟨-, rfl⟩)
        · exact there
        · exact member
    · rw [AList.mem_insert]
      tauto
  · rw [if_neg same]
    simp [subscribers, same]

/-- It leaves no symbol without followers. -/
theorem addSubscriber_tidy (tidy : st.Tidy) : (st.addSubscriber conn symbol).1.Tidy := by
  intro other m found
  have there : conn.id ∈ (st.addSubscriber conn symbol).1.subscribers symbol :=
    (mem_addSubscriber st conn symbol symbol conn.id).mpr (Or.inr ⟨rfl, rfl⟩)
  by_cases same : other = symbol
  · subst same
    rw [subscribers, found] at there
    exact mem_entries_isEmpty there
  · rw [addSubscriber_lookup, if_neg same] at found
    exact tidy other m found

/-- The demand that `addSubscriber` reports is what it changes. -/
theorem addSubscriber_takes (st : HubState) (conn : Connection) (symbol : Str) :
    Takes st.hasSubscriber (if (st.addSubscriber conn symbol).2 then [(symbol, true)] else [])
      (st.addSubscriber conn symbol).1.hasSubscriber := by
  have now : (st.addSubscriber conn symbol).1.hasSubscriber symbol = true := by
    rw [hasSubscriber, Bool.not_eq_true']
    exact mem_entries_isEmpty ((mem_addSubscriber st conn symbol symbol conn.id).mpr
      (Or.inr ⟨rfl, rfl⟩))
  have others (other : Str) (differs : other ≠ symbol) :
      (st.addSubscriber conn symbol).1.hasSubscriber other = st.hasSubscriber other := by
    rw [hasSubscriber, subscribers, addSubscriber_lookup, if_neg differs, hasSubscriber,
      subscribers]
  rw [addSubscriber_first]
  cases had : st.hasSubscriber symbol with
  | false =>
    have turned := Takes.single (by rw [now, had]; rfl) others
    rwa [now] at turned
  | true =>
    have same : (st.addSubscriber conn symbol).1.hasSubscriber = st.hasSubscriber := by
      funext other
      by_cases differs : other = symbol
      · rw [differs, now, had]
      · exact others other differs
    rw [same]
    exact Takes.refl _

/-- Dropping takes the connection from its symbol, and the symbol with the last of its followers. -/
theorem dropSubscriber_lookup (st : HubState) (id symbol other : Str) :
    (st.dropSubscriber id symbol).1.subsBySymbol.lookup other =
      if other = symbol then
        ((st.subsBySymbol.lookup symbol).map (AList.erase id)).filter (fun m => !m.entries.isEmpty)
      else st.subsBySymbol.lookup other := by
  rw [dropSubscriber]
  cases found : st.subsBySymbol.lookup symbol with
  | none =>
    split_ifs with same
    · rw [same]
      exact found
    · rfl
  | some m =>
    dsimp only
    rw [Option.map_some]
    by_cases same : other = symbol
    · rw [if_pos same, same]
      split_ifs with empty
      · rw [AList.lookup_erase, Option.filter_some, if_neg (by simp [empty])]
      · rw [AList.lookup_insert, Option.filter_some, if_pos (by simp [empty])]
    · rw [if_neg same]
      split_ifs with empty
      · exact AList.lookup_erase_ne same
      · exact AList.lookup_insert_ne same

/-- It says whether it was the last. -/
theorem dropSubscriber_ended (st : HubState) (id symbol : Str) :
    (st.dropSubscriber id symbol).2.2 =
      ((st.subsBySymbol.lookup symbol).any (fun m => (m.erase id).entries.isEmpty)) := by
  rw [dropSubscriber]
  cases st.subsBySymbol.lookup symbol with
  | none => rfl
  | some m =>
    dsimp only
    split_ifs with empty <;> simp [empty]

/-- The connection is no subscriber of the symbol, and nothing else changes. -/
theorem mem_dropSubscriber (st : HubState) (id symbol other key : Str) :
    key ∈ (st.dropSubscriber id symbol).1.subscribers other ↔
      key ∈ st.subscribers other ∧ ¬(other = symbol ∧ key = id) := by
  rw [subscribers, dropSubscriber_lookup]
  by_cases same : other = symbol
  · rw [if_pos same, same, subscribers]
    cases st.subsBySymbol.lookup symbol with
    | none => simp
    | some m =>
      have member : key ∈ m.erase id ↔ key ∈ m ∧ ¬key = id := by
        rw [AList.mem_erase]
        exact and_comm
      rw [Option.map_some, Option.getD_some, Option.filter_some, eq_self, true_and, ← member]
      split_ifs with kept
      · exact Iff.rfl
      · rw [Bool.not_eq_true, Bool.not_eq_false'] at kept
        refine iff_of_false (AList.notMem_empty key) (fun there => ?_)
        rw [mem_entries_isEmpty there] at kept
        cases kept
  · rw [if_neg same]
    simp [subscribers, same]

/-- It leaves no symbol without followers. -/
theorem dropSubscriber_tidy (tidy : st.Tidy) : (st.dropSubscriber id symbol).1.Tidy := by
  intro other m found
  rw [dropSubscriber_lookup] at found
  split_ifs at found
  · simpa using (Option.filter_eq_some_iff.mp found).2
  · exact tidy other m found

/-- The demand that `dropSubscriber` reports is what it changes. -/
theorem dropSubscriber_takes (tidy : st.Tidy) :
    Takes st.hasSubscriber (if (st.dropSubscriber id symbol).2.2 then [(symbol, false)] else [])
      (st.dropSubscriber id symbol).1.hasSubscriber := by
  have others (other : Str) (differs : other ≠ symbol) :
      (st.dropSubscriber id symbol).1.hasSubscriber other = st.hasSubscriber other := by
    rw [hasSubscriber, subscribers, dropSubscriber_lookup, if_neg differs, hasSubscriber,
      subscribers]
  have after : (st.dropSubscriber id symbol).1.hasSubscriber symbol =
      (st.hasSubscriber symbol && !(st.dropSubscriber id symbol).2.2) := by
    rw [(dropSubscriber_tidy tidy).hasSubscriber_eq, tidy.hasSubscriber_eq,
      dropSubscriber_lookup, if_pos rfl, dropSubscriber_ended]
    cases st.subsBySymbol.lookup symbol with
    | none => rfl
    | some m => cases empty : (m.erase id).entries.isEmpty <;> simp [empty]
  cases ended : (st.dropSubscriber id symbol).2.2 with
  | true =>
    have had : st.hasSubscriber symbol = true := by
      rw [dropSubscriber_ended] at ended
      rw [tidy.hasSubscriber_eq]
      cases found : st.subsBySymbol.lookup symbol with
      | none => simp [found] at ended
      | some m => rfl
    rw [ended, Bool.not_true, Bool.and_false] at after
    have turned := Takes.single (by rw [after, had]; rfl) others
    rwa [after] at turned
  | false =>
    have same : (st.dropSubscriber id symbol).1.hasSubscriber = st.hasSubscriber := by
      funext other
      by_cases differs : other = symbol
      · rw [differs, after, ended, Bool.not_false, Bool.and_true]
      · exact others other differs
    rw [same]
    exact Takes.refl _

/-- The changes in demand of a list are those of its first symbol and those of the rest. -/
theorem subscribe_cons (conn : Connection) (symbol : Str) (rest : List Str) (st : HubState) :
    (subscribe conn (symbol :: rest) st).2.2 =
      (if (st.addSubscriber conn symbol).2 then [(symbol, true)] else []) ++
        (subscribe conn rest (st.addSubscriber conn symbol).1).2.2 := by
  cases first : (st.addSubscriber conn symbol).2 <;> simp [subscribe, first]

/-- The same when symbols are given up. -/
theorem unsubscribe_cons (id symbol : Str) (rest : List Str) (st : HubState) :
    (unsubscribe id (symbol :: rest) st).2.2 =
      (if (st.dropSubscriber id symbol).2.2 then [(symbol, false)] else []) ++
        (unsubscribe id rest (st.dropSubscriber id symbol).1).2.2 := by
  cases ended : (st.dropSubscriber id symbol).2.2 <;> simp [unsubscribe, ended]

/-- Subscribing to a list keeps the hub tidy. -/
theorem subscribe_tidy (symbols : List Str) (tidy : st.Tidy) :
    (subscribe conn symbols st).1.Tidy := by
  induction symbols generalizing st with
  | nil => exact tidy
  | cons symbol rest inductionHypothesis => exact inductionHypothesis (addSubscriber_tidy tidy)

/-- The changes that it reports lead from the demand before to the demand after. -/
theorem subscribe_takes (conn : Connection) (symbols : List Str) (st : HubState) :
    Takes st.hasSubscriber (subscribe conn symbols st).2.2
      (subscribe conn symbols st).1.hasSubscriber := by
  induction symbols generalizing st with
  | nil => exact Takes.refl _
  | cons symbol rest inductionHypothesis =>
    rw [subscribe_cons]
    exact (addSubscriber_takes st conn symbol).append
      (inductionHypothesis (st.addSubscriber conn symbol).1)

/-- Afterwards the connection follows the symbols of the list, and everything else is as before. -/
theorem mem_subscribe (conn : Connection) (symbols : List Str) (st : HubState) (other key : Str) :
    key ∈ (subscribe conn symbols st).1.subscribers other ↔
      key ∈ st.subscribers other ∨ (other ∈ symbols ∧ key = conn.id) := by
  induction symbols generalizing st with
  | nil => simp [subscribe]
  | cons symbol rest inductionHypothesis =>
    rw [subscribe]
    dsimp only
    rw [inductionHypothesis, mem_addSubscriber, List.mem_cons]
    tauto

/-- Giving up a list keeps the hub tidy. -/
theorem unsubscribe_tidy (symbols : List Str) (tidy : st.Tidy) :
    (unsubscribe id symbols st).1.Tidy := by
  induction symbols generalizing st with
  | nil => exact tidy
  | cons symbol rest inductionHypothesis => exact inductionHypothesis (dropSubscriber_tidy tidy)

/-- The changes that it reports lead from the demand before to the demand after. -/
theorem unsubscribe_takes (symbols : List Str) (tidy : st.Tidy) :
    Takes st.hasSubscriber (unsubscribe id symbols st).2.2
      (unsubscribe id symbols st).1.hasSubscriber := by
  induction symbols generalizing st with
  | nil => exact Takes.refl _
  | cons symbol rest inductionHypothesis =>
    rw [unsubscribe_cons]
    exact (dropSubscriber_takes tidy).append (inductionHypothesis (dropSubscriber_tidy tidy))

/-- Afterwards the connection follows none of the symbols, and everything else is as before. -/
theorem mem_unsubscribe (id : Str) (symbols : List Str) (st : HubState) (other key : Str) :
    key ∈ (unsubscribe id symbols st).1.subscribers other ↔
      key ∈ st.subscribers other ∧ ¬(other ∈ symbols ∧ key = id) := by
  induction symbols generalizing st with
  | nil => simp [unsubscribe]
  | cons symbol rest inductionHypothesis =>
    rw [unsubscribe]
    dsimp only
    rw [inductionHypothesis, mem_dropSubscriber, List.mem_cons]
    tauto

/-- A connection that leaves keeps the hub tidy. -/
theorem unregister_tidy (symbols : List Str) (tidy : st.Tidy) :
    (unregister conn symbols st).1.Tidy := by
  have before : Tidy { st with connections := st.connections.erase conn.id } := tidy
  exact unsubscribe_tidy symbols before

/-- The changes that it reports lead from the demand before to the demand after. -/
theorem unregister_takes (symbols : List Str) (tidy : st.Tidy) :
    Takes st.hasSubscriber (unregister conn symbols st).2
      (unregister conn symbols st).1.hasSubscriber := by
  have before : Tidy { st with connections := st.connections.erase conn.id } := tidy
  exact unsubscribe_takes symbols before

/-- The symbols of a connection are those that it follows. -/
theorem mem_symbolsOf (st : HubState) (id symbol : Str) :
    symbol ∈ st.symbolsOf id ↔ id ∈ st.subscribers symbol := by
  rw [symbolsOf, List.mem_map, subscribers]
  constructor
  · rintro ⟨⟨key, m⟩, listed, rfl⟩
    obtain ⟨there, member⟩ := List.mem_filter.mp listed
    rw [Option.mem_def.mp (AList.mem_lookup_iff.mpr there), Option.getD_some]
    exact of_decide_eq_true member
  · intro member
    cases found : st.subsBySymbol.lookup symbol with
    | none =>
      rw [found] at member
      exact absurd member (AList.notMem_empty id)
    | some m =>
      rw [found, Option.getD_some] at member
      exact ⟨⟨symbol, m⟩, List.mem_filter.mpr
        ⟨AList.mem_lookup_iff.mp (Option.mem_def.mpr found), decide_eq_true member⟩, rfl⟩

/-- The connection is a subscriber no more, and nothing else changes. -/
theorem mem_unregister {symbols : List Str} (all : symbols.Perm (st.symbolsOf conn.id))
    (other key : Str) :
    key ∈ (unregister conn symbols st).1.subscribers other ↔
      key ∈ st.subscribers other ∧ key ≠ conn.id := by
  have dropped := mem_unsubscribe conn.id symbols
    { st with connections := st.connections.erase conn.id } other key
  refine dropped.trans ?_
  rw [all.mem_iff, mem_symbolsOf]
  constructor
  · rintro ⟨there, kept⟩
    exact ⟨there, fun same => kept ⟨same ▸ there, same⟩⟩
  · rintro ⟨there, differs⟩
    exact ⟨there, fun gone => differs gone.2⟩

end HubState

end LumidPlatform.Realtime
