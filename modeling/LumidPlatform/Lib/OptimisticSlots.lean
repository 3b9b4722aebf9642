import Mathlib.Data.Nat.Basic

/-!
# Slots that are counted first

A slot is taken by adding to a counter, whatever its limit is, and by looking at what the counter
was: below the limit the slot is granted, else the addition is undone. So the counter may pass the
limit for a while, but it counts the slots that are live and those that are being decided, and the
ones decided for and the live ones together stay within the limit. The counter is a machine number
and starts over behind its largest value.
-/

namespace OptimisticSlots

/-- The counter after an addition. -/
def fetchAdd (modulus counter : Nat) : Nat := (counter + 1) % modulus

/-- The counter after a subtraction. -/
def fetchSub (modulus counter : Nat) : Nat := (counter + (modulus - 1)) % modulus

theorem fetchAdd_of_room {modulus counter : Nat} (room : counter + 1 < modulus) :
    fetchAdd modulus counter = counter + 1 := Nat.mod_eq_of_lt room

theorem fetchSub_of_pos {modulus counter : Nat} (pos : 0 < counter) (fits : counter < modulus) :
    fetchSub modulus counter = counter - 1 := by
  have around : counter + (modulus - 1) = counter - 1 + modulus := by omega
  rw [fetchSub, around, Nat.add_mod_right, Nat.mod_eq_of_lt (by omega)]

/-- A counter, with how many additions found it below their limit and are not granted yet, how
many found it at their limit and are not undone yet, and how many slots are live. -/
structure Slots where
  counter : Nat
  winners : Nat
  losers : Nat
  live : Nat

/-- What can happen to a counter that has room; no limit is above the bound. -/
inductive Step (modulus bound : Nat) : Slots → Slots → Prop where
  | stay (s : Slots) : Step modulus bound s s
  | win {c w l v limit : Nat} (within : limit ≤ bound) (below : c < limit)
      (room : c + 1 < modulus) :
      Step modulus bound ⟨c, w, l, v⟩ ⟨fetchAdd modulus c, w + 1, l, v⟩
  | lose {c w l v : Nat} (room : c + 1 < modulus) :
      Step modulus bound ⟨c, w, l, v⟩ ⟨fetchAdd modulus c, w, l + 1, v⟩
  | grant {c w l v : Nat} : Step modulus bound ⟨c, w + 1, l, v⟩ ⟨c, w, l, v + 1⟩
  | undo {c w l v : Nat} :
      Step modulus bound ⟨c, w, l + 1, v⟩ ⟨fetchSub modulus c, w, l, v⟩
  | drop {c w l v : Nat} :
      Step modulus bound ⟨c, w, l, v + 1⟩ ⟨fetchSub modulus c, w, l, v⟩

/-- The counter counts what it is to count, and as many slots are live or granted as may be. -/
structure Sound (modulus bound : Nat) (s : Slots) : Prop where
  counted : s.counter = s.winners + s.losers + s.live
  fits : s.counter < modulus
  bounded : s.live + s.winners ≤ bound

variable {modulus bound : Nat} {s next : Slots}

theorem sound_zero (positive : 0 < modulus) : Sound modulus bound ⟨0, 0, 0, 0⟩ :=
  ⟨rfl, positive, Nat.zero_le bound⟩

/-- Every step keeps a counter sound. -/
theorem Sound.step (sound : Sound modulus bound s) (taken : Step modulus bound s next) :
    Sound modulus bound next := by
  obtain ⟨counted, fits, bounded⟩ := sound
  cases taken with
  | stay => exact ⟨counted, fits, bounded⟩
  | win within below room =>
    dsimp only at counted bounded
    refine ⟨?_, ?_, ?_⟩ <;> dsimp only <;> try rw [fetchAdd_of_room room]
    all_goals omega
  | lose room =>
    dsimp only at counted bounded
    refine ⟨?_, ?_, ?_⟩ <;> dsimp only <;> try rw [fetchAdd_of_room room]
    all_goals omega
  | grant =>
    dsimp only at counted fits bounded
    refine ⟨?_, fits, ?_⟩ <;> dsimp only <;> omega
  | undo =>
    dsimp only at counted fits bounded
    have less := @fetchSub_of_pos modulus _ (by omega) fits
    refine ⟨?_, ?_, ?_⟩ <;> dsimp only <;> omega
  | drop =>
    dsimp only at counted fits bounded
    have less := @fetchSub_of_pos modulus _ (by omega) fits
    refine ⟨?_, ?_, ?_⟩ <;> dsimp only <;> omega

end OptimisticSlots
