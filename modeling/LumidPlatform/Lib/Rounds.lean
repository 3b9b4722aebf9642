import Mathlib.Data.List.Nodup
import Mathlib.Data.List.Perm.Basic

/-!
# Rounds of handing out a note

A round hands one note to each of a list of receivers, one after the other and in any order.
Rounds of different notes may be under way together. What a receiver has been handed and what
it is still owed are together the notes of the rounds that were opened for it.
-/

namespace Rounds

variable {Receiver Note : Type*} [DecidableEq Receiver]

/-- A note, and who has yet to get it. -/
structure Round (Receiver Note : Type*) where
  note : Note
  left : List Receiver

namespace Round

variable (round : Round Receiver Note) (receiver : Receiver)

/-- The round after a receiver got the note. -/
def hand : Round Receiver Note := { round with left := round.left.erase receiver }

/-- What the round owes a receiver. -/
def owed : List Note := if receiver ∈ round.left then [round.note] else []

variable {round receiver}

theorem nodup_hand (distinct : round.left.Nodup) : (round.hand receiver).left.Nodup :=
  distinct.erase receiver

theorem owed_hand_self (distinct : round.left.Nodup) : (round.hand receiver).owed receiver = [] :=
  if_neg fun member => (distinct.mem_erase_iff.mp member).1 rfl

theorem owed_hand_of_ne {other : Receiver} (differs : other ≠ receiver) :
    (round.hand receiver).owed other = round.owed other := by
  simp only [owed, hand, List.mem_erase_of_ne differs]

end Round

/-- What rounds owe a receiver. -/
def owed (rounds : List (Round Receiver Note)) (receiver : Receiver) : List Note :=
  rounds.flatMap (fun round => round.owed receiver)

/-- A receiver is handed the note of one of the rounds. -/
def handAt (rounds : List (Round Receiver Note)) (place : Nat) (receiver : Receiver) :
    List (Round Receiver Note) :=
  rounds.modify place (fun round => round.hand receiver)

variable {rounds : List (Round Receiver Note)} {round : Round Receiver Note}
  {receiver other : Receiver} {place : Nat}

theorem owed_concat : owed (rounds ++ [round]) receiver =
    owed rounds receiver ++ round.owed receiver := by
  simp [owed]

/-- Nobody else is concerned. -/
theorem owed_handAt_of_ne (differs : other ≠ receiver) :
    owed (handAt rounds place receiver) other = owed rounds other := by
  induction rounds generalizing place with
  | nil => cases place <;> rfl
  | cons first rest inductionHypothesis =>
    cases place with
    | zero =>
      rw [handAt, List.modify_zero_cons, owed, owed, List.flatMap_cons, List.flatMap_cons,
        Round.owed_hand_of_ne differs]
    | succ place =>
      have onward := @inductionHypothesis place
      rw [handAt, owed] at onward
      rw [handAt, List.modify_succ_cons, owed, List.flatMap_cons, onward, owed, owed,
        List.flatMap_cons]

/-- The note that is handed over is owed no more. -/
theorem owed_handAt (there : rounds[place]? = some round) (member : receiver ∈ round.left)
    (distinct : round.left.Nodup) :
    (round.note :: owed (handAt rounds place receiver) receiver).Perm (owed rounds receiver) := by
  induction rounds generalizing place with
  | nil => simp at there
  | cons first rest inductionHypothesis =>
    cases place with
    | zero =>
      obtain rfl : first = round := by simpa using there
      have before : first.owed receiver = [first.note] := if_pos member
      rw [handAt, List.modify_zero_cons, owed, owed, List.flatMap_cons, List.flatMap_cons,
        Round.owed_hand_self distinct, before]
      exact List.Perm.refl _
    | succ place =>
      have onward := inductionHypothesis (by simpa using there)
      rw [handAt, List.modify_succ_cons, owed, owed, List.flatMap_cons, List.flatMap_cons]
      exact List.perm_middle.symm.trans (onward.append_left _)

theorem distinct_handAt (distinct : ∀ round ∈ rounds, round.left.Nodup) :
    ∀ round ∈ handAt rounds place receiver, round.left.Nodup := by
  induction rounds generalizing place with
  | nil => cases place <;> exact distinct
  | cons first rest inductionHypothesis =>
    have later := fun round member => distinct round (List.mem_cons_of_mem first member)
    cases place with
    | zero =>
      rw [handAt, List.modify_zero_cons]
      intro round member
      rcases List.mem_cons.mp member with rfl | inRest
      · exact (distinct first List.mem_cons_self).erase _
      · exact later round inRest
    | succ place =>
      rw [handAt, List.modify_succ_cons]
      intro round member
      rcases List.mem_cons.mp member with rfl | inRest
      · exact distinct round List.mem_cons_self
      · exact inductionHypothesis later round inRest

end Rounds
