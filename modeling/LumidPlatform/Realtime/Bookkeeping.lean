import LumidPlatform.Lib.Transitions
import LumidPlatform.Realtime.Hub

/-!
# The hub's bookkeeping

A run is any sequence of calls of the hub, each taking the state lock once. The demand it
decides under the lock is logged. The index holds no symbol without subscribers, and the log of
a symbol alternates and ends in whether the symbol has a subscriber.
-/

namespace LumidPlatform.Realtime

open Switches Transitions

/-- A call of the hub. The order in which the map yields the symbols of a connection that is
unregistered comes with it. -/
inductive Call where
  | register (conn : Connection) (enforceConcurrent : Bool)
  | subscribe (conn : Connection) (symbols : List Str)
  | unsubscribe (conn : Connection) (symbols : List Str)
  | unregister (conn : Connection) (order : List Str)

/-- What a call does while it holds the state lock, and the demand it decides. -/
def Call.perform (st : HubState) : Call → Option (HubState × List (Str × Bool))
  | register conn enforceConcurrent => some ((st.register conn enforceConcurrent).1, [])
  | subscribe conn symbols =>
    let (after, _, demand) := HubState.subscribe conn symbols st
    some (after, demand)
  | unsubscribe conn symbols =>
    let (after, _, demand) := HubState.unsubscribe conn.id symbols st
    some (after, demand)
  | unregister conn order =>
    if order.isPerm (st.symbolsOf conn.id) then some (st.unregister conn order) else none

/-- The hub, with the log of the demand it has decided. -/
structure Books where
  hub : HubState := {}
  decided : List (Str × Bool) := []

def step (books : Books) (call : Call) : Option Books :=
  (call.perform books.hub).map
    (fun (after, demand) => { hub := after, decided := books.decided ++ demand })

/-- No call leaves a symbol without subscribers behind, and the demand it decides accounts for
what it changes. -/
theorem perform_takes {call : Call} {st after : HubState} {demand : List (Str × Bool)}
    (performed : call.perform st = some (after, demand)) (tidy : st.Tidy) :
    after.Tidy ∧ Takes st.hasSubscriber demand after.hasSubscriber := by
  cases call with
  | register conn enforceConcurrent =>
    obtain ⟨rfl, rfl⟩ := Prod.mk.inj (Option.some.inj performed)
    exact ⟨tidy, Takes.refl _⟩
  | subscribe conn symbols =>
    obtain ⟨rfl, rfl⟩ := Prod.mk.inj (Option.some.inj performed)
    exact ⟨HubState.subscribe_tidy symbols tidy, HubState.subscribe_takes conn symbols st⟩
  | unsubscribe conn symbols =>
    obtain ⟨rfl, rfl⟩ := Prod.mk.inj (Option.some.inj performed)
    exact ⟨HubState.unsubscribe_tidy symbols tidy, HubState.unsubscribe_takes symbols tidy⟩
  | unregister conn order =>
    rw [Call.perform] at performed
    split_ifs at performed
    obtain ⟨rfl, rfl⟩ := Prod.mk.inj (Option.some.inj performed)
    exact ⟨HubState.unregister_tidy order tidy, HubState.unregister_takes order tidy⟩

/-- What every call keeps. -/
structure Books.Sound (books : Books) : Prop where
  tidy : books.hub.Tidy
  takes : Takes (fun _ => false) books.decided books.hub.hasSubscriber

theorem Books.Sound.start : ({} : Books).Sound where
  tidy := by
    intro symbol m found
    cases found
  takes := Takes.refl _

theorem Books.Sound.step {books next : Books} {call : Call} (sound : books.Sound)
    (stepped : step books call = some next) : next.Sound := by
  obtain ⟨⟨after, demand⟩, performed, rfl⟩ := Option.map_eq_some_iff.mp stepped
  obtain ⟨tidy, takes⟩ := perform_takes performed sound.tidy
  exact ⟨tidy, sound.takes.append takes⟩

/-- In every state the hub gets into, no symbol is kept without a subscriber, the demand decided
for a symbol alternates from true on and ends in whether it has a subscriber, and a connection
that is then unregistered is a subscriber of nothing. -/
theorem bookkeeping_sound {books : Books} (reaches : Reaches step {} books) :
    (∀ symbol m, books.hub.subsBySymbol.lookup symbol = some m → m.entries.isEmpty = false) ∧
      (∀ symbol, (∀ i (inside : i < (moves books.decided symbol).length),
          (moves books.decided symbol)[i] = decide (i % 2 = 0)) ∧
        (moves books.decided symbol).getLast?.getD false = books.hub.hasSubscriber symbol) ∧
      ∀ conn order after, step books (.unregister conn order) = some after →
        ∀ symbol, conn.id ∉ after.hub.subscribers symbol := by
  have sound : books.Sound :=
    reaches.invariant Books.Sound.start (fun _ _ _ holds stepped => holds.step stepped)
  refine ⟨sound.tidy, fun symbol => ⟨fun i inside => ?_, (sound.takes symbol).last⟩, ?_⟩
  · rw [(sound.takes symbol).alternate i inside, Bool.false_xor]
  · intro conn order after stepped symbol member
    obtain ⟨⟨st, demand⟩, performed, rfl⟩ := Option.map_eq_some_iff.mp stepped
    rw [Call.perform] at performed
    split_ifs at performed with all
    obtain rfl : (books.hub.unregister conn order).1 = st :=
      congrArg Prod.fst (Option.some.inj performed)
    exact ((HubState.mem_unregister (List.isPerm_iff.mp all) symbol conn.id).mp member).2 rfl

/-- Two streams of one caller. -/
def laptop : Connection := ⟨"c1".str, "user:ana".str, .ws, 100⟩

def phone : Connection := ⟨"c2".str, "user:ana".str, .sse, 100⟩

/-- Both follow a symbol, one of them asking twice, and one goes away twice. -/
def reopened : List Call :=
  [.register laptop true, .subscribe laptop ["BTC".str, "BTC".str], .register phone true,
    .unsubscribe laptop ["BTC".str], .subscribe phone ["BTC".str],
    .unregister phone ["BTC".str], .unregister phone []]

theorem reopened_sound : ∃ books, run step {} reopened = some books ∧
    moves books.decided "BTC".str = [true, false, true, false] ∧
    (moves books.decided "BTC".str).getLast?.getD false = books.hub.hasSubscriber "BTC".str := by
  have ran : (run step {} reopened).map (fun books => moves books.decided "BTC".str) =
      some [true, false, true, false] := by decide +kernel
  obtain ⟨books, reached, heard⟩ := Option.map_eq_some_iff.mp ran
  exact ⟨books, reached, heard, ((bookkeeping_sound ⟨_, reached⟩).2.1 "BTC".str).2⟩

end LumidPlatform.Realtime
