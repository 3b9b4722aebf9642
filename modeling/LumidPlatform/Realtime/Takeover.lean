import LumidPlatform.Lib.Transitions
import LumidPlatform.Realtime.Streams

/-!
# A caller's stream is taken over

Registering the second stream of a caller evicts the first: it is told so, and returned for its
transport to be closed. Neither of the transports does that. The evicted stream keeps its
subscriptions, and with them the data frames; it loses them only where it had none and asks for
none any more.
-/

namespace LumidPlatform.Realtime.Takeover

open Transitions

/-! ## Subscribers are registered connections -/

/-- Whoever follows a symbol after one subscription followed it before, or is the connection that
subscribes. -/
theorem subscribers_addSubscriber {st : HubState} {conn found : Connection} {symbol other id : Str}
    (there : ((st.addSubscriber conn symbol).1.subscribers other).lookup id = some found) :
    (st.subscribers other).lookup id = some found ∨ (id = conn.id ∧ found = conn) := by
  rw [HubState.subscribers, HubState.addSubscriber_lookup] at there
  split_ifs at there with same member
  · subst same
    exact Or.inl there
  · subst same
    by_cases own : id = conn.id
    · subst own
      rw [Option.getD_some, AList.lookup_insert] at there
      exact Or.inr ⟨rfl, (Option.some.inj there).symm⟩
    · rw [Option.getD_some, AList.lookup_insert_ne own] at there
      exact Or.inl there
  · exact Or.inl there

/-- The same after the subscription to a whole list, by induction on the list. -/
theorem subscribers_subscribe {conn found : Connection} {symbols : List Str} {st : HubState}
    {other id : Str}
    (there : ((HubState.subscribe conn symbols st).1.subscribers other).lookup id = some found) :
    (st.subscribers other).lookup id = some found ∨ (id = conn.id ∧ found = conn) := by
  induction symbols generalizing st with
  | nil => exact Or.inl there
  | cons symbol rest inductionHypothesis =>
    rcases inductionHypothesis there with earlier | own
    · exact subscribers_addSubscriber earlier
    · exact Or.inr own

/-- A follower that is left after one is dropped was one before. -/
theorem subscribers_dropSubscriber {st : HubState} {found : Connection} {gone symbol other id : Str}
    (there : ((st.dropSubscriber gone symbol).1.subscribers other).lookup id = some found) :
    (st.subscribers other).lookup id = some found := by
  rw [HubState.subscribers, HubState.dropSubscriber_lookup] at there
  split_ifs at there with same
  · subst same
    rw [HubState.subscribers]
    cases listed : st.subsBySymbol.lookup other with
    | none => simp [listed] at there
    | some m =>
      rw [listed, Option.map_some, Option.filter_some] at there
      split_ifs at there with kept
      · rw [Option.getD_some] at there ⊢
        by_cases own : id = gone
        · subst own
          rw [AList.lookup_erase] at there
          cases there
        · rwa [AList.lookup_erase_ne own] at there
      · cases there
  · exact there

/-- The same after a list of symbols is given up. -/
theorem subscribers_unsubscribe {found : Connection} {symbols : List Str} {st : HubState}
    {gone other id : Str}
    (there : ((HubState.unsubscribe gone symbols st).1.subscribers other).lookup id = some found) :
    (st.subscribers other).lookup id = some found := by
  induction symbols generalizing st with
  | nil => exact there
  | cons symbol rest inductionHypothesis =>
    exact subscribers_dropSubscriber (inductionHypothesis there)

/-- Subscribing registers nothing. -/
theorem subscribe_keeps (conn : Connection) (symbols : List Str) (st : HubState) :
    (HubState.subscribe conn symbols st).1.connections = st.connections ∧
      (HubState.subscribe conn symbols st).1.connectionsBySub = st.connectionsBySub := by
  induction symbols generalizing st with
  | nil => exact ⟨rfl, rfl⟩
  | cons symbol rest inductionHypothesis =>
    have added : (st.addSubscriber conn symbol).1.connections = st.connections ∧
        (st.addSubscriber conn symbol).1.connectionsBySub = st.connectionsBySub := by
      rw [HubState.addSubscriber]
      split_ifs <;> exact ⟨rfl, rfl⟩
    obtain ⟨all, last⟩ := inductionHypothesis (st.addSubscriber conn symbol).1
    exact ⟨all.trans added.1, last.trans added.2⟩

/-- Giving up symbols changes the followers only: the connections and the one of each subject stay
as they are. -/
theorem unsubscribe_keeps (id : Str) (symbols : List Str) (st : HubState) :
    (HubState.unsubscribe id symbols st).1.connections = st.connections ∧
      (HubState.unsubscribe id symbols st).1.connectionsBySub = st.connectionsBySub := by
  induction symbols generalizing st with
  | nil => exact ⟨rfl, rfl⟩
  | cons symbol rest inductionHypothesis =>
    have dropped : (st.dropSubscriber id symbol).1.connections = st.connections ∧
        (st.dropSubscriber id symbol).1.connectionsBySub = st.connectionsBySub := by
      rw [HubState.dropSubscriber]
      split
      · exact ⟨rfl, rfl⟩
      · dsimp only
        split_ifs <;> exact ⟨rfl, rfl⟩
    obtain ⟨all, last⟩ := inductionHypothesis (st.dropSubscriber id symbol).1
    exact ⟨all.trans dropped.1, last.trans dropped.2⟩

/-! ## Who is connected, and who was evicted -/

/-- What decides who receives data frames. -/
structure Shape where
  hub : HubState
  transports : List Str
  opened : List Str
  evictions : List (Str × Nat)

/-- What the takeover rule reads of a world, without queues and frames. -/
def shape (w : World) : Shape := ⟨w.hub, w.transports, w.opened, w.evictions⟩

/-- What holds in every run, whatever the streams do. -/
structure Registered (s : Shape) : Prop where
  subscribers : ∀ symbol id conn, (s.hub.subscribers symbol).lookup id = some conn →
    s.hub.connections.lookup id = some conn
  named : ∀ id conn, s.hub.connections.lookup id = some conn → conn.id = id ∧ id ∈ s.opened
  current : ∀ sub conn, s.hub.connectionsBySub.lookup sub = some conn →
    conn.sub = sub ∧ s.hub.connections.lookup conn.id = some conn
  latest : ∀ id conn, s.hub.connections.lookup id = some conn → enforceCl conn.sub = true →
    (∀ at_, (id, at_) ∉ s.evictions) → s.hub.connectionsBySub.lookup conn.sub = some conn
  evicted : ∀ id at_, (id, at_) ∈ s.evictions → id ∈ s.opened
  carried : ∀ id ∈ s.transports, ∃ conn, s.hub.connections.lookup id = some conn

/-- An evicted stream is closed, or subscribed to nothing. -/
def Detached (s : Shape) : Prop :=
  ∀ id at_, (id, at_) ∈ s.evictions → id ∈ s.transports → ∀ symbol, id ∉ s.hub.subscribers symbol

/-- The stream is open and would be sent data frames. -/
def Receives (s : Shape) (conn : Connection) : Prop :=
  conn.id ∈ s.transports ∧ ∃ symbol, (s.hub.subscribers symbol).lookup conn.id = some conn

/-- At most one stream of a caller would be sent data frames. -/
def OnePerSub (s : Shape) : Prop :=
  ∀ first second, Receives s first → Receives s second → first.sub = second.sub →
    enforceCl first.sub = true → first = second

/-- If an evicted stream follows nothing, the followers of one subject are all its current stream.
-/
theorem onePerSub_of_detached {s : Shape} (registered : Registered s) (detached : Detached s) :
    OnePerSub s := by
  have latest (conn : Connection) (receives : Receives s conn) (enforced : enforceCl conn.sub = true) :
      s.hub.connectionsBySub.lookup conn.sub = some conn := by
    obtain ⟨isOpen, symbol, there⟩ := receives
    apply registered.latest conn.id conn (registered.subscribers symbol conn.id conn there) enforced
    intro at_ evicted
    exact detached conn.id at_ evicted isOpen symbol
      (AList.lookup_isSome.mp (by rw [there]; rfl))
  intro first second one two same enforced
  have current := latest first one enforced
  rw [same] at enforced current
  rw [latest second two enforced] at current
  exact (Option.some.inj current).symm

/-! ## What a step does to the connections -/

/-- The stream that a new one evicts. -/
def takenOver (w : World) (conn : Connection) : Option Connection :=
  (w.hub.register conn (enforceCl conn.sub)).2

/-- A stream is taken over when it is the current one of a subject that the rule is enforced for,
and another than the one that registers. -/
theorem takenOver_eq_some {w : World} {conn p : Connection} :
    takenOver w conn = some p ↔ w.hub.connectionsBySub.lookup conn.sub = some p ∧
      enforceCl conn.sub = true ∧ p.id ≠ conn.id := by
  rw [takenOver, HubState.register]
  simp [Option.filter_eq_some_iff]

/-- Registration as the rule sees it: the hub's own change, the new transport, and an eviction of
the stream that is taken over. -/
theorem register_shape (w : World) (conn : Connection) :
    shape (w.register conn) =
      ⟨(w.hub.register conn (enforceCl conn.sub)).1, conn.id :: w.transports, conn.id :: w.opened,
        (takenOver w conn).toList.map (fun p => (p.id, w.now)) ++ w.evictions⟩ := by
  rw [World.register, takenOver]
  cases registered : w.hub.register conn (enforceCl conn.sub) with
  | mk hub evicted =>
    cases evicted with
    | none => rfl
    | some p => rfl

/-- A fresh stream enters under its own id, and the one that it replaces keeps its place among the
connections until it unregisters. -/
theorem Registered.register {w : World} {conn : Connection} (registered : Registered (shape w))
    (fresh : conn.id ∉ w.opened) : Registered (shape (w.register conn)) := by
  have other {id : Str} {c : Connection} (there : w.hub.connections.lookup id = some c) :
      id ≠ conn.id := by
    rintro rfl
    exact fresh (registered.named _ c there).2
  rw [register_shape]
  refine ⟨?_, ?_, ?_, ?_, ?_, ?_⟩
  · intro symbol id c there
    have known : w.hub.connections.lookup id = some c := registered.subscribers symbol id c there
    exact (AList.lookup_insert_ne (other known)).trans known
  · intro id c there
    by_cases own : id = conn.id
    · subst own
      obtain rfl : conn = c := Option.some.inj ((AList.lookup_insert _).symm.trans there)
      exact ⟨rfl, List.mem_cons_self ..⟩
    · obtain ⟨same, known⟩ := registered.named id c ((AList.lookup_insert_ne own).symm.trans there)
      exact ⟨same, List.mem_cons_of_mem _ known⟩
  · intro sub c there
    by_cases own : sub = conn.sub
    · subst own
      obtain rfl : conn = c := Option.some.inj ((AList.lookup_insert _).symm.trans there)
      exact ⟨rfl, AList.lookup_insert _⟩
    · obtain ⟨same, known⟩ := registered.current sub c ((AList.lookup_insert_ne own).symm.trans there)
      exact ⟨same, (AList.lookup_insert_ne (other known)).trans known⟩
  · intro id c there enforced kept
    by_cases own : id = conn.id
    · subst own
      obtain rfl : conn = c := Option.some.inj ((AList.lookup_insert _).symm.trans there)
      exact AList.lookup_insert _
    · have before : w.hub.connections.lookup id = some c :=
        (AList.lookup_insert_ne own).symm.trans there
      have current : w.hub.connectionsBySub.lookup c.sub = some c :=
        registered.latest id c before enforced
          (fun at_ listed => kept at_ (List.mem_append_right _ listed))
      by_cases same : c.sub = conn.sub
      · have named : c.id = id := (registered.named id c before).1
        have evicted : takenOver w conn = some c := by
          rw [takenOver_eq_some, ← same]
          exact ⟨current, enforced, named ▸ own⟩
        refine absurd (List.mem_append_left _ ?_) (kept w.now)
        rw [evicted, ← named]
        exact List.mem_singleton_self _
      · exact (AList.lookup_insert_ne same).trans current
  · intro id at_ listed
    rcases List.mem_append.mp listed with new | old
    · obtain ⟨p, member, same⟩ := List.mem_map.mp new
      obtain ⟨current, -, -⟩ := takenOver_eq_some.mp (Option.mem_toList.mp member)
      obtain ⟨rfl, -⟩ := Prod.mk.inj same
      have known := (registered.current conn.sub p current).2
      exact List.mem_cons_of_mem _ (registered.named p.id p known).2
    · exact List.mem_cons_of_mem _ (registered.evicted id at_ old)
  · intro id member
    rcases List.mem_cons.mp member with rfl | old
    · exact ⟨conn, AList.lookup_insert _⟩
    · obtain ⟨c, known⟩ := registered.carried id old
      exact ⟨c, (AList.lookup_insert_ne (other known)).trans known⟩

/-- A subscription only adds followers that are registered. -/
theorem Registered.subscribe {s : Shape} {conn : Connection} (registered : Registered s)
    (there : s.hub.connections.lookup conn.id = some conn) (symbols : List Str) :
    Registered { s with hub := (HubState.subscribe conn symbols s.hub).1 } := by
  obtain ⟨all, last⟩ := subscribe_keeps conn symbols s.hub
  refine ⟨?_, ?_, ?_, ?_, registered.evicted, ?_⟩
  · intro symbol id c listed
    dsimp only at listed ⊢
    rw [all]
    rcases subscribers_subscribe listed with earlier | ⟨rfl, rfl⟩
    · exact registered.subscribers symbol id c earlier
    · exact there
  · simpa only [all] using registered.named
  · simpa only [all, last] using registered.current
  · simpa only [all, last] using registered.latest
  · simpa only [all] using registered.carried

/-- Giving up symbols only removes followers. -/
theorem Registered.unsubscribe {s : Shape} (registered : Registered s) (id : Str)
    (symbols : List Str) :
    Registered { s with hub := (HubState.unsubscribe id symbols s.hub).1 } := by
  obtain ⟨all, last⟩ := unsubscribe_keeps id symbols s.hub
  refine ⟨?_, ?_, ?_, ?_, registered.evicted, ?_⟩
  · intro symbol key c listed
    dsimp only at listed ⊢
    rw [all]
    exact registered.subscribers symbol key c (subscribers_unsubscribe listed)
  · simpa only [all] using registered.named
  · simpa only [all, last] using registered.current
  · simpa only [all, last] using registered.latest
  · simpa only [all] using registered.carried

/-- A transport that closes leaves the hub as it is: the hub learns of it when the stream
unregisters. -/
theorem Registered.hangUp {s : Shape} (registered : Registered s) (id : Str) :
    Registered { s with transports := s.transports.filter (· ≠ id) } :=
  { registered with
    carried := fun key member => registered.carried key (List.mem_filter.mp member).1 }

/-- A stream that unregisters has left every symbol and is no longer open, so nothing is left that
would name it. -/
theorem Registered.unregister {s : Shape} {conn : Connection} {order : List Str}
    (registered : Registered s) (there : s.hub.connections.lookup conn.id = some conn)
    (closed : conn.id ∉ s.transports) (all : order.Perm (s.hub.symbolsOf conn.id)) :
    Registered { s with hub := (HubState.unregister conn order s.hub).1 } := by
  obtain ⟨connections, bySub⟩ := unsubscribe_keeps conn.id order
    { s.hub with connections := s.hub.connections.erase conn.id }
  have connections' : (HubState.unregister conn order s.hub).1.connections =
      s.hub.connections.erase conn.id := connections
  have bySub' : (HubState.unregister conn order s.hub).1.connectionsBySub =
      if (s.hub.connectionsBySub.lookup conn.sub).any (fun c => c.id = conn.id) then
        s.hub.connectionsBySub.erase conn.sub
      else s.hub.connectionsBySub := by
    rw [HubState.unregister]
    dsimp only
    rw [bySub]
  have still {id : Str} {c : Connection}
      (found : (s.hub.connections.erase conn.id).lookup id = some c) :
      id ≠ conn.id ∧ s.hub.connections.lookup id = some c := by
    by_cases own : id = conn.id
    · subst own
      rw [AList.lookup_erase] at found
      cases found
    · exact ⟨own, (AList.lookup_erase_ne own).symm.trans found⟩
  refine ⟨?_, ?_, ?_, ?_, registered.evicted, ?_⟩
  · intro symbol id c listed
    have member : id ∈ (HubState.unregister conn order s.hub).1.subscribers symbol :=
      AList.lookup_isSome.mp (by rw [listed]; rfl)
    have other := ((HubState.mem_unregister all symbol id).mp member).2
    have earlier : ({ s.hub with connections := s.hub.connections.erase conn.id } :
        HubState).subscribers symbol = s.hub.subscribers symbol := rfl
    have before := subscribers_unsubscribe listed
    rw [earlier] at before
    show (HubState.unregister conn order s.hub).1.connections.lookup id = some c
    rw [connections', AList.lookup_erase_ne other]
    exact registered.subscribers symbol id c before
  · intro id c found
    rw [connections'] at found
    exact registered.named id c (still found).2
  · intro sub c found
    rw [bySub'] at found
    rw [connections']
    have before : s.hub.connectionsBySub.lookup sub = some c := by
      split_ifs at found with last
      · by_cases own : sub = conn.sub
        · subst own
          rw [AList.lookup_erase] at found
          cases found
        · exact (AList.lookup_erase_ne own).symm.trans found
      · exact found
    obtain ⟨same, known⟩ := registered.current sub c before
    refine ⟨same, ?_⟩
    rw [AList.lookup_erase_ne ?_]
    · exact known
    · -- Otherwise it is the connection itself, and its entry was removed.
      intro own
      rw [own, there] at known
      obtain rfl := Option.some.inj known
      subst same
      rw [before, Option.any_some, if_pos (decide_eq_true rfl), AList.lookup_erase] at found
      cases found
  · intro id c found enforced kept
    rw [connections'] at found
    rw [bySub']
    obtain ⟨other, before⟩ := still found
    have current := registered.latest id c before enforced kept
    split_ifs with last
    · refine (AList.lookup_erase_ne ?_).trans current
      intro same
      rw [← same, current, Option.any_some, decide_eq_true_eq] at last
      exact other ((registered.named id c before).1.symm.trans last)
    · exact current
  · intro id member
    obtain ⟨c, known⟩ := registered.carried id member
    refine ⟨c, ?_⟩
    show (HubState.unregister conn order s.hub).1.connections.lookup id = some c
    rw [connections', AList.lookup_erase_ne]
    · exact known
    · rintro rfl
      exact closed member

/-- A replay only fills a queue. -/
theorem replayLast_shape (w : World) (conn : Connection) (cached : List Str) (symbol : Str) :
    shape (w.replayLast conn cached symbol) = shape w := by
  rw [World.replayLast]
  split
  · split_ifs <;> rfl
  · rfl

/-- A subscription changes the hub, and its replays nothing of the shape. -/
theorem subscribe_shape (w : World) (conn : Connection) (symbols cached : List Str) :
    shape (w.subscribe conn symbols cached).1 =
      { shape w with hub := (HubState.subscribe conn symbols w.hub).1 } := by
  have replays (list : List Str) (v : World) :
      shape (list.foldl (fun v symbol => v.replayLast conn cached symbol) v) = shape v := by
    induction list generalizing v with
    | nil => rfl
    | cons symbol rest inductionHypothesis =>
      rw [List.foldl_cons, inductionHypothesis, replayLast_shape]
  exact replays symbols _

/-- The symbols that a message subscribes its stream to. -/
def asked (settings : Settings) (w : World) (conn : Connection) : Option Json → List Str
  | none => []
  | some message =>
    if (field message "type".str).bind Json.asStr? = some "subscribe".str then
      let syms := upperSymbols settings.unicode message
      if settings.wsLifetimeSyms < (w.hub.lifetimeSymbols.lookup conn.id).getD 0 + syms.length then
        []
      else syms
    else []

/-- A message subscribes its stream to something, or ends subscriptions of it. -/
theorem receive_shape (settings : Settings) (w : World) (conn : Connection) (parsed : Option Json)
    (cached : List Str) :
    shape (w.receive settings conn parsed cached) =
        { shape w with
          hub := (HubState.subscribe conn (asked settings w conn parsed) w.hub).1 } ∨
      asked settings w conn parsed = [] ∧ ∃ symbols,
        shape (w.receive settings conn parsed cached) =
          { shape w with hub := (HubState.unsubscribe conn.id symbols w.hub).1 } := by
  cases parsed with
  | none => exact Or.inl rfl
  | some message =>
    rw [World.receive, asked]
    dsimp only
    by_cases subscribes : (field message "type".str).bind Json.asStr? = some "subscribe".str
    · rw [if_pos subscribes, if_pos subscribes]
      by_cases exceeded : settings.wsLifetimeSyms < (w.hub.lifetimeSymbols.lookup conn.id).getD 0 +
          (upperSymbols settings.unicode message).length
      · rw [if_pos exceeded, if_pos exceeded]
        exact Or.inl rfl
      · rw [if_neg exceeded, if_neg exceeded]
        exact Or.inl (subscribe_shape w conn _ cached)
    rw [if_neg subscribes, if_neg subscribes]
    by_cases ends : (field message "type".str).bind Json.asStr? = some "unsubscribe".str
    · rw [if_pos ends]
      exact Or.inr ⟨rfl, _, rfl⟩
    · rw [if_neg ends]
      split_ifs
      · exact Or.inl rfl
      · exact Or.inl rfl

/-! ## The condition on a step -/

/-- A stream that is evicted is closed already or subscribed to nothing, and an evicted stream
that is open subscribes to nothing, with a message or when its response begins. -/
def yields (settings : Settings) (w : World) : Label → Bool
  | .openWs id sub _ => idle ⟨id, sub, .ws, settings.slowclientQueue⟩
  | .openSse id sub symbols =>
    let list := symList settings.unicode symbols
    (list.isEmpty || decide (settings.sseRequestSyms < list.length)) ||
      idle ⟨id, sub, .sse, settings.slowclientQueue⟩
  | .beginSse id _ =>
    (w.opening.lookup id).all (fun list =>
      list.isEmpty || !w.evictions.any (fun e => e.1 = id))
  | .message id parsed _ =>
    (w.hub.connections.lookup id).all (fun conn =>
      (asked settings w conn parsed).isEmpty || !w.evictions.any (fun e => e.1 = id))
  | _ => true
where
  idle (conn : Connection) : Bool :=
    (takenOver w conn).all (fun p =>
      decide (p.id ∉ w.transports) || (w.hub.symbolsOf p.id).isEmpty)

/-- A stream has no symbols exactly when no symbol has it as a follower. -/
theorem symbolsOf_isEmpty (st : HubState) (id : Str) :
    (st.symbolsOf id).isEmpty = true ↔ ∀ symbol, id ∉ st.subscribers symbol := by
  rw [List.isEmpty_iff, List.eq_nil_iff_forall_not_mem]
  exact forall_congr' (fun symbol => not_congr (HubState.mem_symbolsOf st id symbol))

/-- Registering a stream detaches exactly if the one it evicts is idle. -/
theorem idle_iff {w : World} {conn : Connection} (registered : Registered (shape w))
    (detached : Detached (shape w)) (fresh : conn.id ∉ w.opened) :
    yields.idle w conn = true ↔ Detached (shape (w.register conn)) := by
  rw [register_shape, yields.idle, Option.all_eq_true]
  simp only [Bool.or_eq_true, decide_eq_true_eq, symbolsOf_isEmpty]
  constructor
  · intro idle id at_ evicted isOpen symbol
    rcases List.mem_append.mp evicted with new | old
    · obtain ⟨p, member, same⟩ := List.mem_map.mp new
      obtain ⟨rfl, -⟩ := Prod.mk.inj same
      have taken := Option.mem_toList.mp member
      have other : p.id ≠ conn.id := (takenOver_eq_some.mp taken).2.2
      rcases idle p taken with closed | free
      · exact absurd ((List.mem_cons.mp isOpen).resolve_left other) closed
      · exact free symbol
    · rcases List.mem_cons.mp isOpen with rfl | there
      · exact absurd (registered.evicted _ at_ old) fresh
      · exact detached id at_ old there symbol
  · intro after p taken
    by_cases isOpen : p.id ∈ w.transports
    · refine Or.inr (fun symbol => after p.id w.now ?_ (List.mem_cons_of_mem _ isOpen) symbol)
      refine List.mem_append_left _ ?_
      rw [taken]
      exact List.mem_singleton_self _
    · exact Or.inl isOpen

/-- Subscribing a stream detaches exactly if it asks for nothing or was not evicted. -/
theorem detached_subscribe_iff {s : Shape} {conn : Connection} {symbols : List Str}
    (detached : Detached s) (isOpen : conn.id ∈ s.transports) :
    (symbols = [] ∨ ∀ at_, (conn.id, at_) ∉ s.evictions) ↔
      Detached { s with hub := (HubState.subscribe conn symbols s.hub).1 } := by
  constructor
  · intro harmless id at_ evicted there symbol member
    rcases (HubState.mem_subscribe conn symbols s.hub symbol id).mp member with
      before | ⟨listed, rfl⟩
    · exact detached id at_ evicted there symbol before
    · rcases harmless with rfl | never
      · cases listed
      · exact never at_ evicted
  · intro after
    cases symbols with
    | nil => exact Or.inl rfl
    | cons symbol rest =>
      refine Or.inr (fun at_ evicted => ?_)
      exact after conn.id at_ evicted isOpen symbol
        ((HubState.mem_subscribe conn _ s.hub symbol conn.id).mpr
          (Or.inr ⟨List.mem_cons_self .., rfl⟩))

/-- A stream that followed nothing follows nothing after symbols are given up. -/
theorem Detached.unsubscribe {s : Shape} (detached : Detached s) (id : Str) (symbols : List Str) :
    Detached { s with hub := (HubState.unsubscribe id symbols s.hub).1 } :=
  fun key at_ evicted there symbol member => detached key at_ evicted there symbol
    ((HubState.mem_unsubscribe id symbols s.hub symbol key).mp member).1

/-- What a step can do to the connections, and what the condition says of it. -/
inductive Moves (settings : Settings) (w : World) (label : Label) : Shape → Prop
  | stays (allowed : yields settings w label = true) : Moves settings w label (shape w)
  | enters (conn : Connection) (fresh : conn.id ∉ w.opened)
      (exactly : yields settings w label = yields.idle w conn) :
      Moves settings w label (shape (w.register conn))
  | subscribes (conn : Connection) (there : w.hub.connections.lookup conn.id = some conn)
      (isOpen : conn.id ∈ w.transports) (symbols : List Str)
      (exactly : yields settings w label = true ↔
        symbols = [] ∨ ∀ at_, (conn.id, at_) ∉ w.evictions) :
      Moves settings w label
        { shape w with hub := (HubState.subscribe conn symbols w.hub).1 }
  | unsubscribes (id : Str) (symbols : List Str) (allowed : yields settings w label = true) :
      Moves settings w label
        { shape w with hub := (HubState.unsubscribe id symbols w.hub).1 }
  | hangsUp (id : Str) (allowed : yields settings w label = true) :
      Moves settings w label { shape w with transports := w.transports.filter (· ≠ id) }
  | unregisters (conn : Connection) (there : w.hub.connections.lookup conn.id = some conn)
      (closed : conn.id ∉ w.transports) (order : List Str)
      (all : order.Perm (w.hub.symbolsOf conn.id)) (allowed : yields settings w label = true) :
      Moves settings w label { shape w with hub := (HubState.unregister conn order w.hub).1 }

/-- The condition's test of the evictions, as a proposition. -/
theorem evictions_any {w : World} {id : Str} :
    (!w.evictions.any (fun e => e.1 = id)) = true ↔ ∀ at_, (id, at_) ∉ w.evictions := by
  rw [Bool.not_eq_true', List.any_eq_false]
  constructor
  · intro none at_ listed
    exact none _ listed (decide_eq_true rfl)
  · intro never entry listed same
    obtain rfl : entry.1 = id := of_decide_eq_true same
    exact never entry.2 listed

/-- What a step does where it is taken, before the clock goes on. -/
inductive Acts (settings : Settings) (w : World) : Label → World → Prop
  | openWs {id sub : Str} {newsOnly : Bool} (fresh : id ∉ w.opened) :
      Acts settings w (.openWs id sub newsOnly)
        { w.register ⟨id, sub, .ws, settings.slowclientQueue⟩ with
          newsOnly := if newsOnly then id :: w.newsOnly else w.newsOnly }
  | refuseSse {id sub symbols : Str}
      (refused : (symList settings.unicode symbols).isEmpty = true ∨
        settings.sseRequestSyms < (symList settings.unicode symbols).length) :
      Acts settings w (.openSse id sub symbols) w
  | openSse {id sub symbols : Str} (fresh : id ∉ w.opened)
      (accepted : ¬((symList settings.unicode symbols).isEmpty = true ∨
        settings.sseRequestSyms < (symList settings.unicode symbols).length)) :
      Acts settings w (.openSse id sub symbols)
        { w.register ⟨id, sub, .sse, settings.slowclientQueue⟩ with
          opening := (id, symList settings.unicode symbols) :: w.opening }
  | beginSse {id : Str} {cached list : List Str} {conn : Connection}
      (waiting : w.opening.lookup id = some list)
      (found : w.hub.connections.lookup id = some conn) (isOpen : id ∈ w.transports)
      {initial : Item} (control : initial.published = none) :
      Acts settings w (.beginSse id cached)
        { (w.subscribe conn list cached).1 with
          opening := w.opening.filter (fun entry => entry.1 ≠ id)
          sent := (w.subscribe conn list cached).1.sent ++ [(id, initial)] }
  | message {id : Str} {parsed : Option Json} {cached : List Str} {conn : Connection}
      (found : w.hub.connections.lookup id = some conn) (isOpen : id ∈ w.transports) :
      Acts settings w (.message id parsed cached) (w.receive settings conn parsed cached)
  | publish {kind key : Str} {payload : Json} {stashed : Bool} :
      Acts settings w (.publish kind key payload stashed) (w.publish kind key payload stashed)
  | ignore {kind key : Str} {payload : Json} {stashed : Bool} :
      Acts settings w (.publish kind key payload stashed) w
  | heartbeat {id ts : Str} {conn : Connection} {beat : Item} (control : beat.published = none) :
      Acts settings w (.heartbeat id ts) (w.push conn beat)
  | drain {id : Str} (isOpen : id ∈ w.transports) :
      Acts settings w (.drain id)
        { w with
          queues := Function.update w.queues id []
          sent := w.sent ++ ((w.queues id).filter
            (fun item => !(decide (id ∈ w.newsOnly) && notNews item.frame))).map (fun item =>
              (id, item)) }
  | hangUp {id : Str} :
      Acts settings w (.hangUp id) { w with transports := w.transports.filter (· ≠ id) }
  | unregister {id : Str} {order : List Str} {conn : Connection}
      (found : w.hub.connections.lookup id = some conn) (closed : id ∉ w.transports)
      (all : order.Perm (w.hub.symbolsOf id)) :
      Acts settings w (.unregister id order)
        { w with hub := (HubState.unregister conn order w.hub).1 }

/-- The inversion of a step, once for all of its labels. -/
theorem acts_of_act {settings : Settings} {w after : World} {label : Label}
    (acted : act settings w label = some after) : Acts settings w label after := by
  cases label with
  | openWs id sub newsOnly =>
    rw [act] at acted
    by_cases used : id ∈ w.opened
    · rw [if_pos used] at acted
      cases acted
    · rw [if_neg used] at acted
      obtain rfl := Option.some.inj acted
      exact .openWs used
  | openSse id sub symbols =>
    rw [act] at acted
    dsimp only at acted
    split_ifs at acted with used refused
    · obtain rfl := Option.some.inj acted
      exact .refuseSse refused
    · obtain rfl := Option.some.inj acted
      exact .openSse used refused
  | beginSse id cached =>
    rw [act] at acted
    split at acted
    next list conn waiting found =>
      split_ifs at acted with isOpen
      obtain rfl := Option.some.inj acted
      exact .beginSse waiting found isOpen rfl
    next => cases acted
  | message id parsed cached =>
    rw [act] at acted
    split at acted
    next conn found =>
      split_ifs at acted with live
      obtain rfl := Option.some.inj acted
      exact .message found live.2
    next => cases acted
  | publish kind key payload stashed =>
    rw [act] at acted
    split_ifs at acted
    · obtain rfl := Option.some.inj acted
      exact .publish
    · obtain rfl := Option.some.inj acted
      exact .ignore
  | heartbeat id ts =>
    rw [act] at acted
    split_ifs at acted
    obtain ⟨conn, -, rfl⟩ := Option.map_eq_some_iff.mp acted
    exact .heartbeat rfl
  | drain id =>
    rw [act] at acted
    split_ifs at acted with ready
    obtain rfl := Option.some.inj acted
    exact .drain ready.1
  | hangUp id =>
    rw [act] at acted
    split_ifs at acted
    obtain rfl := Option.some.inj acted
    exact .hangUp
  | unregister id order =>
    rw [act] at acted
    split at acted
    next conn found =>
      split_ifs at acted with ready
      obtain rfl := Option.some.inj acted
      exact .unregister found ready.1.1 (List.isPerm_iff.mp ready.2)
    next => cases acted

/-- Of the connections a step only does one of these. -/
theorem step_moves {settings : Settings} {w next : World} {label : Label}
    (registered : Registered (shape w)) (stepped : w.step settings label = some next) :
    Moves settings w label (shape next) := by
  obtain ⟨after, acted, rfl⟩ := Option.map_eq_some_iff.mp stepped
  show Moves settings w label (shape after)
  cases acts_of_act acted with
  | @openWs id sub newsOnly fresh =>
    exact .enters ⟨id, sub, .ws, settings.slowclientQueue⟩ fresh rfl
  | refuseSse refused => exact .stays (by simpa [yields] using Or.inl refused)
  | @openSse id sub symbols fresh accepted =>
    let conn : Connection := ⟨id, sub, .sse, settings.slowclientQueue⟩
    refine .enters conn fresh ?_
    rw [not_or, Bool.not_eq_true] at accepted
    simp [yields, accepted, conn]
  | @beginSse id cached list conn waiting found isOpen =>
    obtain ⟨rfl, -⟩ := registered.named id conn found
    show Moves settings w _ (shape (w.subscribe conn list cached).1)
    rw [subscribe_shape]
    refine .subscribes conn found isOpen list ?_
    rw [yields, waiting, Option.all_some, Bool.or_eq_true, List.isEmpty_iff, evictions_any]
  | @message id parsed cached conn found isOpen =>
    obtain ⟨rfl, -⟩ := registered.named id conn found
    have exactly : yields settings w (.message conn.id parsed cached) = true ↔
        asked settings w conn parsed = [] ∨ ∀ at_, (conn.id, at_) ∉ w.evictions := by
      rw [yields, found, Option.all_some, Bool.or_eq_true, List.isEmpty_iff, evictions_any]
    rcases receive_shape settings w conn parsed cached with same | ⟨nothing, symbols, same⟩
    · rw [same]
      exact .subscribes conn found isOpen _ exactly
    · rw [same]
      exact .unsubscribes conn.id symbols (exactly.mpr (Or.inl nothing))
  | publish | ignore | heartbeat | drain => exact .stays rfl
  | @hangUp id => exact .hangsUp id rfl
  | @unregister id order conn found closed all =>
    obtain ⟨rfl, -⟩ := registered.named id conn found
    exact .unregisters conn found closed order all rfl

/-- Every step keeps the records of the hub in order. -/
theorem Registered.step {settings : Settings} {w next : World} {label : Label}
    (registered : Registered (shape w)) (stepped : w.step settings label = some next) :
    Registered (shape next) := by
  have moves := step_moves registered stepped
  revert moves
  generalize shape next = s
  intro moves
  cases moves with
  | stays => exact registered
  | enters conn fresh exactly => exact registered.register fresh
  | subscribes conn there isOpen symbols => exact registered.subscribe there symbols
  | unsubscribes id symbols => exact registered.unsubscribe id symbols
  | hangsUp id => exact registered.hangUp id
  | unregisters conn there closed order all => exact registered.unregister there closed all

/-- The condition says of each step whether all evicted streams are still detached after it. -/
theorem yields_iff {settings : Settings} {w next : World} {label : Label}
    (registered : Registered (shape w)) (detached : Detached (shape w))
    (stepped : w.step settings label = some next) :
    yields settings w label = true ↔ Detached (shape next) := by
  have moves := step_moves registered stepped
  revert moves
  generalize shape next = s
  intro moves
  cases moves with
  | stays allowed => exact iff_of_true allowed detached
  | enters conn fresh exactly => rw [exactly, idle_iff registered detached fresh]
  | subscribes conn there isOpen symbols exactly =>
    rw [exactly]
    exact detached_subscribe_iff detached isOpen
  | unsubscribes id symbols allowed => exact iff_of_true allowed (detached.unsubscribe id symbols)
  | hangsUp id allowed =>
    refine iff_of_true allowed (fun key at_ evicted there => ?_)
    exact detached key at_ evicted (List.mem_filter.mp there).1
  | unregisters conn there closed order all allowed =>
    refine iff_of_true allowed (fun key at_ evicted isOpen symbol member => ?_)
    exact detached key at_ evicted isOpen symbol
      ((HubState.mem_unregister all symbol key).mp member).1

/-! ## What is sent -/

/-- What a stream is sent was published before the stream was evicted. -/
def Spared (w : World) : Prop :=
  ∀ id item, (id, item) ∈ w.sent → ∀ published, item.published = some published →
    ∀ at_, (id, at_) ∈ w.evictions → published < at_

/-- A data frame in hand is older than the bound, and than the eviction of the stream. -/
def Older (bound : Nat) (evictions : List Nat) (item : Item) : Prop :=
  ∀ published, item.published = some published → published < bound ∧ ∀ at_ ∈ evictions, published < at_

/-- When a stream was evicted. -/
def evictedAt (evictions : List (Str × Nat)) (id : Str) : List Nat :=
  (evictions.filter (fun e => e.1 = id)).map Prod.snd

/-- The moments at which one stream is evicted, read off the list of all evictions. -/
theorem mem_evictedAt {evictions : List (Str × Nat)} {id : Str} {at_ : Nat} :
    at_ ∈ evictedAt evictions id ↔ (id, at_) ∈ evictions := by
  simp [evictedAt]

/-- What a run keeps that keeps the evicted streams detached. -/
structure Timely (w : World) (bound : Nat) : Prop where
  stash : ∀ key payload published, w.lastTick.lookup key = some (payload, published) →
    published < bound
  queued : ∀ id, ∀ item ∈ w.queues id,
    Older bound (if id ∈ w.transports then evictedAt w.evictions id else []) item
  sent : ∀ id item, (id, item) ∈ w.sent → Older bound (evictedAt w.evictions id) item

/-- A frame that is older than a moment is older than every later one. -/
theorem Older.mono {bound later : Nat} {evictions : List Nat} {item : Item}
    (older : Older bound evictions item) (le : bound ≤ later) : Older later evictions item :=
  fun published data => ⟨(older published data).1.trans_le le, (older published data).2⟩

/-- A control frame carries no publication, so nothing is asked of it. -/
theorem older_control {bound : Nat} {evictions : List Nat} {item : Item}
    (control : item.published = none) : Older bound evictions item := by
  intro published data
  rw [control] at data
  cases data

/-- What is in a queue after a frame is put in was there before, or is the frame. -/
theorem mem_enqueue {maxQueue : Nat} {queue : List Item} {item entry : Item}
    (member : entry ∈ enqueue maxQueue queue item) : entry ∈ queue ∨ entry = item := by
  rw [enqueue] at member
  split_ifs at member
  · rcases List.mem_append.mp member with old | new
    · exact Or.inl (List.mem_of_mem_tail old)
    · exact Or.inr (List.mem_singleton.mp new)
  · rcases List.mem_append.mp member with old | new
    · exact Or.inl old
    · exact Or.inr (List.mem_singleton.mp new)

variable {settings : Settings} {w : World} {bound : Nat}

/-- A bound on the moments of the publications may be raised. -/
theorem Timely.mono (timely : Timely w bound) {later : Nat} (le : bound ≤ later) :
    Timely w later where
  stash key payload published found := (timely.stash key payload published found).trans_le le
  queued id item member := (timely.queued id item member).mono le
  sent id item member := (timely.sent id item member).mono le

/-- A frame that is old enough may be queued. -/
theorem Timely.push (timely : Timely w bound) {conn : Connection} {item : Item}
    (older : Older bound (if conn.id ∈ w.transports then evictedAt w.evictions conn.id else []) item) :
    Timely (w.push conn item) bound := by
  refine ⟨timely.stash, fun id entry member => ?_, timely.sent⟩
  rw [World.push] at member
  dsimp only at member
  by_cases own : id = conn.id
  · subst own
    rw [Function.update_self] at member
    rcases mem_enqueue member with old | rfl
    · exact timely.queued conn.id entry old
    · exact older
  · rw [Function.update_of_ne own] at member
    exact timely.queued id entry member

/-- The replayed tick was published earlier, and goes to a stream that was not evicted. -/
theorem Timely.replayLast (timely : Timely w bound) {conn : Connection}
    (never : evictedAt w.evictions conn.id = []) (cached : List Str) (symbol : Str) :
    Timely (w.replayLast conn cached symbol) bound := by
  rw [World.replayLast]
  split
  next payload published found =>
    split_ifs
    · refine timely.push (fun shown data => ?_)
      obtain rfl := Option.some.inj data
      rw [never, ite_self]
      exact ⟨timely.stash symbol payload published found, fun at_ member => nomatch member⟩
    · exact timely
  next => exact timely

/-- A subscription replays to a stream that was not evicted, or has no symbols to replay. -/
theorem Timely.subscribe (timely : Timely w bound) {conn : Connection} {symbols : List Str}
    (never : symbols = [] ∨ evictedAt w.evictions conn.id = []) (cached : List Str) :
    Timely (w.subscribe conn symbols cached).1 bound := by
  have replays (list : List Str) (v : World) (held : Timely v bound)
      (none : evictedAt v.evictions conn.id = []) :
      Timely (list.foldl (fun v symbol => v.replayLast conn cached symbol) v) bound := by
    induction list generalizing v with
    | nil => exact held
    | cons symbol rest inductionHypothesis =>
      refine inductionHypothesis _ (held.replayLast none cached symbol) ?_
      have same := congrArg Shape.evictions (replayLast_shape v conn cached symbol)
      rw [evictedAt, show (v.replayLast conn cached symbol).evictions = v.evictions from same]
      exact none
  have before : Timely { w with hub := (HubState.subscribe conn symbols w.hub).1 } bound :=
    ⟨timely.stash, timely.queued, timely.sent⟩
  rcases never with rfl | none
  · exact before
  · exact replays symbols _ before none

/-- A new stream was not evicted, and the one it evicts has only older frames. -/
theorem Timely.register (timely : Timely w w.now) {conn : Connection}
    (fresh : evictedAt w.evictions conn.id = []) : Timely (w.register conn) w.now := by
  have entered : Timely { w with
      hub := (w.hub.register conn (enforceCl conn.sub)).1
      opened := conn.id :: w.opened, transports := conn.id :: w.transports } w.now := by
    refine ⟨timely.stash, fun id item member => ?_, timely.sent⟩
    have held := timely.queued id item member
    show Older w.now (if id ∈ conn.id :: w.transports then evictedAt w.evictions id else []) item
    by_cases own : id = conn.id
    · subst own
      rw [fresh, ite_self] at held ⊢
      exact held
    · simpa only [List.mem_cons, own, false_or] using held
  rw [World.register]
  cases taken : w.hub.register conn (enforceCl conn.sub) with
  | mk hub evicted =>
    rw [taken] at entered
    cases evicted with
    | none => exact entered
    | some p =>
      have told : Timely (World.push _ p (errorItem "concurrent_limit".str
          "another stream from this identity took over".str)) w.now :=
        entered.push (older_control rfl)
      -- Everything in hand was published before now, when the other stream is evicted.
      have extend {id : Str} {item : Item}
          (older : Older w.now (evictedAt w.evictions id) item) :
          Older w.now (evictedAt ((p.id, w.now) :: w.evictions) id) item := by
        intro published data
        obtain ⟨past, before⟩ := older published data
        refine ⟨past, fun at_ member => ?_⟩
        rcases List.mem_cons.mp (mem_evictedAt.mp member) with new | old
        · rw [(Prod.mk.inj new).2]
          exact past
        · exact before at_ (mem_evictedAt.mpr old)
      refine ⟨told.stash, fun id item member => ?_, fun id item member => ?_⟩
      · have held : Older w.now
            (if id ∈ conn.id :: w.transports then evictedAt w.evictions id else []) item :=
          told.queued id item member
        show Older w.now (if id ∈ conn.id :: w.transports then
          evictedAt ((p.id, w.now) :: w.evictions) id else []) item
        split_ifs at held ⊢
        · exact extend held
        · exact held
      · exact extend (told.sent id item member)

/-- A message of a client leads to control frames, and to replays for what it subscribes to. -/
theorem Timely.receive (timely : Timely w bound) {conn : Connection} {parsed : Option Json}
    (never : asked settings w conn parsed = [] ∨ evictedAt w.evictions conn.id = [])
    (cached : List Str) : Timely (w.receive settings conn parsed cached) bound := by
  cases parsed with
  | none => exact timely.push (older_control rfl)
  | some message =>
    rw [asked] at never
    rw [World.receive]
    dsimp only at never ⊢
    by_cases subscribes : (field message "type".str).bind Json.asStr? = some "subscribe".str
    · rw [if_pos subscribes] at never ⊢
      by_cases exceeded : settings.wsLifetimeSyms < (w.hub.lifetimeSymbols.lookup conn.id).getD 0 +
          (upperSymbols settings.unicode message).length
      · rw [if_pos exceeded]
        exact timely.push (older_control rfl)
      · rw [if_neg exceeded] at never ⊢
        exact (timely.subscribe never cached).push (older_control rfl)
    rw [if_neg subscribes]
    by_cases ends : (field message "type".str).bind Json.asStr? = some "unsubscribe".str
    · rw [if_pos ends]
      have before : Timely { w with hub := (HubState.unsubscribe conn.id
          (upperSymbols settings.unicode message) w.hub).1 } bound :=
        ⟨timely.stash, timely.queued, timely.sent⟩
      exact before.push (older_control rfl)
    · rw [if_neg ends]
      split_ifs
      · exact timely.push (older_control rfl)
      · exact timely.push (older_control rfl)

/-- No evicted stream that is open is among the subscribers a payload is fanned out to. -/
theorem Timely.publish (timely : Timely w w.now) (detached : Detached (shape w)) (kind key : Str)
    (payload : Json) (stashed : Bool) :
    Timely (w.publish kind key payload stashed) (w.now + 1) := by
  have later := timely.mono (Nat.le_succ w.now)
  refine ⟨?_, fun id item member => ?_, later.sent⟩
  · intro symbol members published found
    rw [World.publish] at found
    dsimp only at found
    split at found
    next object =>
      split_ifs at found
      · by_cases same : symbol = key
        · subst same
          rw [AList.lookup_insert] at found
          obtain ⟨-, rfl⟩ := Prod.mk.inj (Option.some.inj found)
          exact Nat.lt_succ_self _
        · rw [AList.lookup_insert_ne same] at found
          exact later.stash symbol members published found
      · exact later.stash symbol members published found
    next => exact later.stash symbol members published found
  · show Older (w.now + 1) (if id ∈ w.transports then evictedAt w.evictions id else []) item
    rw [World.publish] at member
    dsimp only at member
    cases found : (w.hub.subscribers key).lookup id with
    | none =>
      rw [found] at member
      exact later.queued id item member
    | some conn =>
      rw [found] at member
      rcases mem_enqueue member with old | rfl
      · exact later.queued id item old
      · intro published data
        obtain rfl := Option.some.inj data
        refine ⟨Nat.lt_succ_self _, fun at_ evicted => ?_⟩
        split_ifs at evicted with isOpen
        · have subscribed : id ∈ w.hub.subscribers key :=
            AList.lookup_isSome.mp (by rw [found]; rfl)
          exact absurd subscribed (detached id at_ (mem_evictedAt.mp evicted) isOpen key)
        · cases evicted

/-- The frames of an open stream that are taken out were in its queue. -/
theorem Timely.drain (timely : Timely w bound) {id : Str} (isOpen : id ∈ w.transports)
    (passes : Item → Bool) :
    Timely { w with
      queues := Function.update w.queues id []
      sent := w.sent ++ ((w.queues id).filter passes).map (fun item => (id, item)) } bound := by
  refine ⟨timely.stash, fun key item member => ?_, fun key item member => ?_⟩
  · dsimp only at member
    by_cases own : key = id
    · subst own
      rw [Function.update_self] at member
      cases member
    · rw [Function.update_of_ne own] at member
      exact timely.queued key item member
  · rcases List.mem_append.mp member with old | new
    · exact timely.sent key item old
    · obtain ⟨entry, listed, same⟩ := List.mem_map.mp new
      obtain ⟨rfl, rfl⟩ := Prod.mk.inj same
      have held := timely.queued id entry (List.mem_filter.mp listed).1
      rwa [if_pos isOpen] at held

/-- What is queued for a closed stream is not sent any more. -/
theorem Timely.hangUp (timely : Timely w bound) (id : Str) :
    Timely { w with transports := w.transports.filter (· ≠ id) } bound := by
  refine ⟨timely.stash, fun key item member => ?_, timely.sent⟩
  have held := timely.queued key item member
  by_cases gone : key = id
  · have closed : key ∉ w.transports.filter (· ≠ id) := by simp [gone]
    rw [if_neg closed]
    intro published data
    exact ⟨(held published data).1, fun at_ member => nomatch member⟩
  · have same : key ∈ w.transports.filter (· ≠ id) ↔ key ∈ w.transports := by simp [gone]
    simpa only [same] using held

/-- A stream that opens was not there before, so it was never evicted. -/
theorem Timely.opened (timely : Timely w w.now) (registered : Registered (shape w))
    {conn : Connection} (fresh : conn.id ∉ w.opened) :
    Timely (w.register conn) (w.now + 1) := by
  have never : evictedAt w.evictions conn.id = [] :=
    List.eq_nil_iff_forall_not_mem.mpr fun at_ member =>
      fresh (registered.evicted conn.id at_ (mem_evictedAt.mp member))
  exact (timely.register never).mono (Nat.le_succ w.now)

/-- A stream that is nowhere among the evictions has no moment of eviction. -/
theorem evictedAt_eq_nil {id : Str} (never : ∀ at_, (id, at_) ∉ w.evictions) :
    evictedAt w.evictions id = [] :=
  List.eq_nil_iff_forall_not_mem.mpr (fun at_ member => never at_ (mem_evictedAt.mp member))

/-- A step under the condition queues and sends only frames older than the eviction of their stream.
The cases are those of what a step does. -/
theorem Timely.step {next : World} {label : Label} (timely : Timely w w.now)
    (registered : Registered (shape w)) (detached : Detached (shape w))
    (allowed : yields settings w label = true) (stepped : w.step settings label = some next) :
    Timely next next.now := by
  obtain ⟨after, acted, rfl⟩ := Option.map_eq_some_iff.mp stepped
  suffices held : Timely after (w.now + 1) from ⟨held.stash, held.queued, held.sent⟩
  have later := timely.mono (Nat.le_succ w.now)
  cases acts_of_act acted with
  | @openWs id sub newsOnly fresh =>
    have entered : Timely (w.register ⟨id, sub, .ws, settings.slowclientQueue⟩) (w.now + 1) :=
      timely.opened registered fresh
    exact ⟨entered.stash, entered.queued, entered.sent⟩
  | @openSse id sub symbols fresh =>
    have entered : Timely (w.register ⟨id, sub, .sse, settings.slowclientQueue⟩) (w.now + 1) :=
      timely.opened registered fresh
    exact ⟨entered.stash, entered.queued, entered.sent⟩
  | refuseSse | ignore => exact later
  | @beginSse id cached list conn waiting found _ initial control =>
    obtain ⟨rfl, -⟩ := registered.named id conn found
    rw [yields, waiting, Option.all_some, Bool.or_eq_true, List.isEmpty_iff, evictions_any]
      at allowed
    have followed := later.subscribe (allowed.imp_right evictedAt_eq_nil) cached
    refine ⟨followed.stash, followed.queued, fun key item member => ?_⟩
    rcases List.mem_append.mp member with old | new
    · exact followed.sent key item old
    · obtain ⟨-, rfl⟩ := Prod.mk.inj (List.mem_singleton.mp new)
      exact older_control control
  | @message id parsed cached conn found =>
    obtain ⟨rfl, -⟩ := registered.named id conn found
    rw [yields, found, Option.all_some, Bool.or_eq_true, List.isEmpty_iff, evictions_any] at allowed
    exact later.receive (allowed.imp_right evictedAt_eq_nil) cached
  | @publish kind key payload stashed => exact timely.publish detached kind key payload stashed
  | heartbeat control => exact later.push (older_control control)
  | drain isOpen => exact later.drain isOpen _
  | @hangUp id => exact later.hangUp id
  | unregister => exact ⟨later.stash, later.queued, later.sent⟩

/-! ## Whole runs -/

/-- Before the first step nothing is registered. -/
theorem registered_start : Registered (shape {}) where
  subscribers _ _ _ found := nomatch found
  named _ _ found := nomatch found
  current _ _ found := nomatch found
  latest _ _ found := nomatch found
  evicted _ _ listed := nomatch listed
  carried _ member := nomatch member

/-- Before the first step nothing was published. -/
theorem timely_start : Timely {} 0 where
  stash _ _ _ found := nomatch found
  queued _ _ member := nomatch member
  sent _ _ member := nomatch member

/-- So the records of the hub are in order in every state that a run reaches. -/
theorem registered_run {labels : List Label} (ran : run (World.step settings) {} labels = some w) :
    Registered (shape w) := by
  let Inv (state : World) : Prop := Registered (shape state)
  have kept : ∀ state label next, Inv state → World.step settings state label = some next →
      Inv next := fun _ _ _ holds stepped => Registered.step holds stepped
  exact run_invariant kept registered_start ran

/-- What a run keeps all of whose steps meet the condition. -/
structure Safe (w : World) : Prop where
  registered : Registered (shape w)
  detached : Detached (shape w)
  timely : Timely w w.now

/-- The beginning satisfies all three invariants. -/
theorem Safe.start : Safe {} := ⟨registered_start, fun _ _ listed => (nomatch listed), timely_start⟩

/-- In a run, the evicted streams are detached in every state exactly if every step meets the
condition; and then no stream is sent what was published after its eviction, and at most one
stream of a caller would be sent data frames. -/
theorem evicted_spared {settings : Settings} {labels : List Label} {w : World}
    (ran : run (World.step settings) {} labels = some w) :
    ((∀ before, before <+: labels → ∀ state, run (World.step settings) {} before = some state →
        Detached (shape state)) ↔
      (run (guarded (yields settings) (World.step settings)) {} labels).isSome) ∧
    ((run (guarded (yields settings) (World.step settings)) {} labels).isSome →
      Spared w ∧ OnePerSub (shape w)) := by
  constructor
  · have exactly : (∀ before, before <+: labels → ∀ state,
        run (World.step settings) {} before = some state →
          Registered (shape state) ∧ Detached (shape state)) ↔
        (run (guarded (yields settings) (World.step settings)) {} labels).isSome := by
      refine guarded_exact (fun state label next holds stepped => ?_)
        ⟨Safe.start.registered, Safe.start.detached⟩ ran
      rw [yields_iff holds.1 holds.2 stepped]
      exact ⟨fun detached => ⟨holds.1.step stepped, detached⟩, And.right⟩
    rw [← exactly]
    refine forall₄_congr (fun before inside state ends => ?_)
    exact ⟨fun detached => ⟨registered_run ends, detached⟩, And.right⟩
  · intro meets
    obtain ⟨reached, allowed⟩ := Option.isSome_iff_exists.mp meets
    obtain rfl : reached = w := Option.some.inj ((run_of_guarded allowed).symm.trans ran)
    have safe : Safe reached := by
      refine Reaches.guarded_invariant ⟨labels, allowed⟩ Safe.start ?_
      intro state label next holds meets stepped
      exact ⟨holds.registered.step stepped,
        (yields_iff holds.registered holds.detached stepped).mp meets,
        holds.timely.step holds.registered holds.detached meets stepped⟩
    refine ⟨fun id item member published data at_ evicted => ?_,
      onePerSub_of_detached safe.registered safe.detached⟩
    exact (safe.timely.sent id item member published data).2 at_ (mem_evictedAt.mpr evicted)

/-! ## Two runs -/

/-- The limits of the default configuration. -/
def deployed : Settings := ⟨500, 100, 100, ["tick".str], Unicode.ascii⟩

/-- The message that subscribes to one symbol. -/
def follow (symbol : Str) : Json :=
  .object [("type".str, .string "subscribe".str), ("symbols".str, .array [.string symbol])]

/-- A second tab is opened when the first is still open, and a price is published. -/
def twoTabs (first : List Label) : List Label :=
  [.openWs "c1".str "user:ana".str false] ++ first ++
    [.openSse "c2".str "user:ana".str "btc".str, .beginSse "c2".str [],
      .publish "tick".str "BTC".str (.object [("price".str, .number (.int 7))]) true,
      .drain "c1".str, .drain "c2".str]

/-- Where the second tab follows nothing before it is taken over, the run goes through and spares
it. -/
theorem idleTab_spared : ∃ w, run (World.step deployed) {} (twoTabs []) = some w ∧
    Spared w ∧ OnePerSub (shape w) := by
  have meets : (run (guarded (yields deployed) (World.step deployed)) {} (twoTabs [])).isSome =
      true := by decide +kernel
  obtain ⟨w, allowed⟩ := Option.isSome_iff_exists.mp meets
  exact ⟨w, run_of_guarded allowed, (evicted_spared (run_of_guarded allowed)).2 meets⟩

/-- The first tab follows the symbol: it is evicted, and is sent the price all the same. -/
theorem followingTab_served : ∃ w, run (World.step deployed) {}
      (twoTabs [.message "c1".str (some (follow "BTC".str)) []]) = some w ∧
    w.evictions = [("c1".str, 2)] ∧ ¬Spared w ∧ ¬OnePerSub (shape w) := by
  let tabs := twoTabs [.message "c1".str (some (follow "BTC".str)) []]
  have ran : (run (World.step deployed) {} tabs).isSome = true := by decide +kernel
  obtain ⟨w, reached⟩ := Option.isSome_iff_exists.mp ran
  have seen {A : Type} (f : World → A) {value : A}
      (found : (run (World.step deployed) {} tabs).map f = some value) : f w = value := by
    rw [reached] at found
    exact Option.some.inj found
  have evictions : w.evictions = [("c1".str, 2)] := seen World.evictions (by decide +kernel)
  refine ⟨w, reached, evictions, fun spared => ?_, fun one => ?_⟩
  · have sent : w.sent.map (fun e => (e.1, e.2.published)) =
        [("c2".str, none), ("c1".str, none), ("c1".str, none), ("c1".str, some 4),
          ("c2".str, some 4)] :=
      seen (fun w => w.sent.map (fun e => (e.1, e.2.published))) (by decide +kernel)
    have late : ("c1".str, some 4) ∈ w.sent.map (fun e => (e.1, e.2.published)) := by
      rw [sent]
      decide
    obtain ⟨entry, member, same⟩ := List.mem_map.mp late
    obtain ⟨own, published⟩ := Prod.mk.inj same
    have before := spared entry.1 entry.2 member 4 published 2 (by rw [evictions, own]; decide)
    omega
  · let first : Connection := ⟨"c1".str, "user:ana".str, .ws, 100⟩
    let second : Connection := ⟨"c2".str, "user:ana".str, .sse, 100⟩
    have transports : w.transports = ["c2".str, "c1".str] :=
      seen World.transports (by decide +kernel)
    have isOpen {id : Str} (listed : id ∈ ["c2".str, "c1".str]) : id ∈ (shape w).transports := by
      show id ∈ w.transports
      rw [transports]
      exact listed
    have old : (w.hub.subscribers "BTC".str).lookup "c1".str = some first :=
      seen (fun w => (w.hub.subscribers "BTC".str).lookup "c1".str) (by decide +kernel)
    have new : (w.hub.subscribers "BTC".str).lookup "c2".str = some second :=
      seen (fun w => (w.hub.subscribers "BTC".str).lookup "c2".str) (by decide +kernel)
    have same := one first second ⟨isOpen (by decide), "BTC".str, old⟩
      ⟨isOpen (by decide), "BTC".str, new⟩ rfl (by decide)
    exact absurd (congrArg Connection.id same) (by decide)

end LumidPlatform.Realtime.Takeover
