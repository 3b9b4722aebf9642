import Mathlib.Algebra.BigOperators.Group.List.Basic
import Mathlib.Algebra.Order.BigOperators.Group.List
import Mathlib.Algebra.Order.Group.Int
import Mathlib.Algebra.Order.Group.Unbundled.Abs
import Mathlib.Data.Int.Basic
import Mathlib.Data.List.Induction
import Mathlib.Tactic.Linarith

/-!
# Counters that expire

A store has counters under keys. An amount is added to a counter, which starts from nothing
where it is not there or has expired, and a counter is given a time to live from now on. A
counter is 64 bits wide, and an addition that does not fit is refused. As long as no time to
live has ended that a counter was ever given, it holds the sum of its amounts.
-/

namespace ExpiringCounters

variable {K : Type*} [DecidableEq K]

/-- A counter, and the last moment of its life if that was limited. -/
structure Slot where
  value : Int
  deadline : Option Nat

def Slot.alive (now : Nat) (slot : Slot) : Bool := slot.deadline.all (fun last => now ≤ last)

abbrev Store (K : Type*) := K → Option Slot

inductive Command (K : Type*) where
  | add (key : K) (amount : Int)
  | expire (key : K) (span : Nat)

/-- The sum fits a counter. -/
def Fits (n : Int) : Prop := -2 ^ 63 ≤ n ∧ n < 2 ^ 63

instance (n : Int) : Decidable (Fits n) := inferInstanceAs (Decidable (_ ∧ _))

namespace Store

variable (store : Store K) (now : Nat)

/-- What is there at a moment. -/
def current (key : K) : Option Slot := (store key).filter (Slot.alive now)

def read (key : K) : Option Int := (store.current now key).map Slot.value

def perform : Command K → Store K
  | .add key amount =>
    let slot := (store.current now key).getD ⟨0, none⟩
    if Fits (slot.value + amount) then
      Function.update store key (some { slot with value := slot.value + amount })
    else store
  | .expire key span =>
    match store.current now key with
    | some slot => Function.update store key (some { slot with deadline := some (now + span) })
    | none => store

end Store

/-- The store after commands, each performed at its moment. -/
def after (history : List (Nat × Command K)) : Store K :=
  history.foldl (fun store performed => store.perform performed.1 performed.2) (fun _ => none)

/-- The amount that a command adds to a key. -/
def Command.amount? (key : K) : Command K → Option Int
  | .add other amount => if other = key then some amount else none
  | .expire _ _ => none

/-- The amounts that are added to a key. -/
def amounts (commands : List (Command K)) (key : K) : List Int :=
  commands.filterMap (Command.amount? key)

/-- The amounts of a key are too few to ever leave the range of a counter. -/
def InRange (amounts : List Int) : Prop := (amounts.map (fun amount => |amount|)).sum < 2 ^ 63

theorem abs_sum_le (amounts : List Int) :
    |amounts.sum| ≤ (amounts.map (fun amount => |amount|)).sum := by
  induction amounts with
  | nil => simp
  | cons amount rest inductionHypothesis =>
    rw [List.sum_cons, List.map_cons, List.sum_cons]
    exact (abs_add_le _ _).trans (by linarith)

theorem InRange.fits {amounts : List Int} (small : InRange amounts) : Fits amounts.sum := by
  have bound := abs_le.mp (abs_sum_le amounts)
  rw [InRange] at small
  constructor
  · linarith
  · linarith

theorem InRange.of_append {front back : List Int} (small : InRange (front ++ back)) :
    InRange front := by
  rw [InRange, List.map_append, List.sum_append] at small
  have rest : 0 ≤ (back.map (fun amount => |amount|)).sum :=
    List.sum_nonneg (by simp)
  rw [InRange]
  linarith

/-- What a counter holds that has not expired before some moment: the sum of its amounts, with
no earlier deadline. -/
structure Holds (until' : Nat) (slot : Option Slot) (amounts : List Int) : Prop where
  absent : amounts = [] → slot = none
  value : amounts ≠ [] → slot.map Slot.value = some amounts.sum
  deadline : ∀ found ∈ slot, ∀ last ∈ found.deadline, until' ≤ last

omit [DecidableEq K] in
theorem Holds.current {until' now : Nat} {store : Store K} {key : K} {amounts : List Int}
    (holds : Holds until' (store key) amounts) (early : now ≤ until') :
    store.current now key = store key := by
  rw [Store.current]
  cases there : store key with
  | none => rfl
  | some slot =>
    have alive : slot.alive now = true := by
      rw [Slot.alive, Option.all_eq_true]
      intro last limited
      exact decide_eq_true (early.trans (holds.deadline slot there last limited))
    rw [Option.filter_some, if_pos alive]

/-- Every command before some moment keeps it, if the lives that it limits last until then. -/
theorem Holds.perform {until' now : Nat} {store : Store K} {key : K} {amounts : List Int}
    (holds : Holds until' (store key) amounts) (early : now ≤ until') (command : Command K)
    (lasting : ∀ span, command = .expire key span → until' ≤ now + span)
    (small : InRange (amounts ++ (command.amount? key).toList)) :
    Holds until' (store.perform now command key) (amounts ++ (command.amount? key).toList) := by
  cases command with
  | add other amount =>
    rw [Store.perform]
    by_cases same : other = key
    · subst same
      have sum : ((store other).getD ⟨0, none⟩).value = amounts.sum := by
        by_cases first : amounts = []
        · rw [holds.absent first, first]
          rfl
        · obtain ⟨slot, there, value⟩ := Option.map_eq_some_iff.mp (holds.value first)
          rw [there, Option.getD_some, value]
      have deadline : ∀ last ∈ ((store other).getD ⟨0, none⟩).deadline, until' ≤ last := by
        cases there : store other with
        | none => exact fun last limited => (nomatch limited)
        | some slot => exact holds.deadline slot there
      have more : (Command.add other amount).amount? other = some amount := if_pos rfl
      rw [more, Option.toList_some] at small ⊢
      have total : (amounts ++ [amount]).sum = amounts.sum + amount := by simp
      have fits := small.fits
      rw [total, ← sum] at fits
      rw [holds.current early, if_pos fits, Function.update_self]
      refine ⟨fun none => absurd none (by simp), fun _ => ?_, ?_⟩
      · rw [total, ← sum]
        rfl
      · intro found there last limited
        obtain rfl := Option.some.inj there
        exact deadline last limited
    · have other' : (Command.add other amount).amount? key = none := if_neg same
      rw [other', Option.toList_none, List.append_nil]
      split_ifs
      · rw [Function.update_of_ne (Ne.symm same)]
        exact holds
      · exact holds
  | expire other span =>
    have nothing : (Command.expire other span : Command K).amount? key = none := rfl
    rw [nothing, Option.toList_none, List.append_nil, Store.perform]
    by_cases same : other = key
    · subst same
      rw [holds.current early]
      cases there : store other with
      | none =>
        rw [there] at holds
        dsimp only
        rw [there]
        exact holds
      | some slot =>
        rw [there] at holds
        dsimp only
        rw [Function.update_self]
        refine ⟨fun none => absurd (holds.absent none) (by simp), holds.value, ?_⟩
        intro found limited last final
        obtain rfl := Option.some.inj limited
        obtain rfl := Option.some.inj final
        exact lasting span rfl
    · cases store.current now other with
      | none => exact holds
      | some slot =>
        dsimp only
        rw [Function.update_of_ne (Ne.symm same)]
        exact holds

/-- A counter that lives until some moment holds the sum of the amounts added so far. -/
theorem after_holds {until' : Nat} {history : List (Nat × Command K)} {key : K}
    (early : ∀ performed ∈ history, performed.1 ≤ until')
    (lasting : ∀ performed ∈ history, ∀ span, performed.2 = .expire key span →
      until' ≤ performed.1 + span)
    (small : InRange (amounts (history.map Prod.snd) key)) :
    Holds until' (after history key) (amounts (history.map Prod.snd) key) := by
  induction history using List.reverseRecOn with
  | nil => exact ⟨fun _ => rfl, fun some => absurd rfl some, fun _ none => nomatch none⟩
  | append_singleton history performed inductionHypothesis =>
    have last : performed ∈ history ++ [performed] := by simp
    have sum : amounts ((history ++ [performed]).map Prod.snd) key =
        amounts (history.map Prod.snd) key ++ (performed.2.amount? key).toList := by
      rw [amounts, List.map_append, List.filterMap_append, amounts, List.map_singleton]
      cases found : performed.2.amount? key <;> simp [found]
    rw [sum] at small ⊢
    rw [after, List.foldl_append]
    refine Holds.perform (inductionHypothesis ?_ ?_ small.of_append) (early performed last)
      performed.2 (lasting performed last) small
    · exact fun before member => early before (List.mem_append_left _ member)
    · exact fun before member => lasting before (List.mem_append_left _ member)

theorem read_after {until' now : Nat} {history : List (Nat × Command K)} {key : K}
    (early : ∀ performed ∈ history, performed.1 ≤ until')
    (lasting : ∀ performed ∈ history, ∀ span, performed.2 = .expire key span →
      until' ≤ performed.1 + span)
    (small : InRange (amounts (history.map Prod.snd) key)) (before : now ≤ until') :
    ((after history).read now key).getD 0 = (amounts (history.map Prod.snd) key).sum := by
  have holds := after_holds early lasting small
  rw [Store.read, holds.current before]
  by_cases first : amounts (history.map Prod.snd) key = []
  · rw [holds.absent first, first]
    rfl
  · rw [holds.value first, Option.getD_some]

end ExpiringCounters
