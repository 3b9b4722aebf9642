import Mathlib.Algebra.Group.Nat.Defs
import Mathlib.Data.List.Basic
import Mathlib.Data.Nat.Basic

/-!
# SHA-256

The digest on byte lists, written for evaluation by the kernel: words are natural
numbers below `2 ^ 32`, and every recursion is on a list or a count.
-/

namespace Sha256

/-- The 64 round constants. -/
def constants : List Nat := [
  0x428a2f98, 0x71374491, 0xb5c0fbcf, 0xe9b5dba5, 0x3956c25b, 0x59f111f1, 0x923f82a4, 0xab1c5ed5,
  0xd807aa98, 0x12835b01, 0x243185be, 0x550c7dc3, 0x72be5d74, 0x80deb1fe, 0x9bdc06a7, 0xc19bf174,
  0xe49b69c1, 0xefbe4786, 0x0fc19dc6, 0x240ca1cc, 0x2de92c6f, 0x4a7484aa, 0x5cb0a9dc, 0x76f988da,
  0x983e5152, 0xa831c66d, 0xb00327c8, 0xbf597fc7, 0xc6e00bf3, 0xd5a79147, 0x06ca6351, 0x14292967,
  0x27b70a85, 0x2e1b2138, 0x4d2c6dfc, 0x53380d13, 0x650a7354, 0x766a0abb, 0x81c2c92e, 0x92722c85,
  0xa2bfe8a1, 0xa81a664b, 0xc24b8b70, 0xc76c51a3, 0xd192e819, 0xd6990624, 0xf40e3585, 0x106aa070,
  0x19a4c116, 0x1e376c08, 0x2748774c, 0x34b0bcb5, 0x391c0cb3, 0x4ed8aa4a, 0x5b9cca4f, 0x682e6ff3,
  0x748f82ee, 0x78a5636f, 0x84c87814, 0x8cc70208, 0x90befffa, 0xa4506ceb, 0xbef9a3f7, 0xc67178f2]

/-- Rotation of a 32-bit word to the right. -/
def rotate (n x : Nat) : Nat := (x >>> n) ||| (x <<< (32 - n)) % 2 ^ 32

/-- The message schedule, from a window of sixteen words, oldest first. -/
def schedule : Nat → List Nat → List Nat
  | 0, _ => []
  | _, [] => []
  | n + 1, w :: rest =>
    let w1 := rest.getD 0 0
    let w9 := rest.getD 8 0
    let w14 := rest.getD 13 0
    let s0 := (rotate 7 w1) ^^^ (rotate 18 w1) ^^^ (w1 >>> 3)
    let s1 := (rotate 17 w14) ^^^ (rotate 19 w14) ^^^ (w14 >>> 10)
    w :: schedule n (rest ++ [(s1 + w9 + s0 + w) % 2 ^ 32])

/-- The eight working words. -/
structure Words where
  a : Nat
  b : Nat
  c : Nat
  d : Nat
  e : Nat
  f : Nat
  g : Nat
  h : Nat

def round (s : Words) (kw : Nat × Nat) : Words :=
  let s1 := (rotate 6 s.e) ^^^ (rotate 11 s.e) ^^^ (rotate 25 s.e)
  let ch := (s.e &&& s.f) ^^^ ((2 ^ 32 - 1 - s.e) &&& s.g)
  let t1 := s.h + s1 + ch + kw.1 + kw.2
  let s0 := (rotate 2 s.a) ^^^ (rotate 13 s.a) ^^^ (rotate 22 s.a)
  let maj := (s.a &&& s.b) ^^^ (s.a &&& s.c) ^^^ (s.b &&& s.c)
  ⟨(t1 + s0 + maj) % 2 ^ 32, s.a, s.b, s.c, (s.d + t1) % 2 ^ 32, s.e, s.f, s.g⟩

/-- One block folded into the state. -/
def compress (s : Words) (block : List Nat) : Words :=
  let t := (constants.zip (schedule 64 block)).foldl round s
  ⟨(s.a + t.a) % 2 ^ 32, (s.b + t.b) % 2 ^ 32, (s.c + t.c) % 2 ^ 32, (s.d + t.d) % 2 ^ 32,
    (s.e + t.e) % 2 ^ 32, (s.f + t.f) % 2 ^ 32, (s.g + t.g) % 2 ^ 32, (s.h + t.h) % 2 ^ 32⟩

def initial : Words :=
  ⟨0x6a09e667, 0xbb67ae85, 0x3c6ef372, 0xa54ff53a, 0x510e527f, 0x9b05688c, 0x1f83d9ab, 0x5be0cd19⟩

/-- Bytes as big-endian words. -/
def words : List UInt8 → List Nat
  | b0 :: b1 :: b2 :: b3 :: rest =>
    (b0.toNat * 2 ^ 24 + b1.toNat * 2 ^ 16 + b2.toNat * 2 ^ 8 + b3.toNat) :: words rest
  | _ => []

def blocks : Nat → Words → List Nat → Words
  | 0, s, _ => s
  | n + 1, s, ws => blocks n (compress s (ws.take 16)) (ws.drop 16)

def bigEndian : Nat → Nat → List UInt8
  | 0, _ => []
  | n + 1, x => bigEndian n (x / 256) ++ [UInt8.ofNat (x % 256)]

/-- The message, a marker bit, zeros, and the length in bits. -/
def pad (m : List UInt8) : List UInt8 :=
  m ++ 0x80 :: List.replicate ((119 - m.length % 64) % 64) 0 ++ bigEndian 8 (m.length * 8)

def hexWord (x : Nat) : List Char :=
  (List.range 8).map (fun i => Nat.digitChar (x / 16 ^ (7 - i) % 16))

/-- The digest, as 64 lowercase hexadecimal digits. -/
def hex (m : List UInt8) : List Char :=
  let p := words (pad m)
  let s := blocks (p.length / 16) initial p
  [s.a, s.b, s.c, s.d, s.e, s.f, s.g, s.h].flatMap hexWord

/-- A digest has 64 digits. -/
theorem hex_length (m : List UInt8) : (hex m).length = 64 := by
  simp [hex, hexWord]

/-- Every digit of a digest is a lowercase hexadecimal digit. -/
theorem hex_digits (m : List UInt8) :
    ∀ c ∈ hex m, (48 ≤ c.toNat ∧ c.toNat ≤ 57) ∨ (97 ≤ c.toNat ∧ c.toNat ≤ 102) := by
  have digit : ∀ n < 16, (48 ≤ (Nat.digitChar n).toNat ∧ (Nat.digitChar n).toNat ≤ 57) ∨
      (97 ≤ (Nat.digitChar n).toNat ∧ (Nat.digitChar n).toNat ≤ 102) := by decide
  intro c member
  obtain ⟨word, -, inWord⟩ := List.mem_flatMap.mp member
  obtain ⟨place, -, rfl⟩ := List.mem_map.mp inWord
  exact digit _ (Nat.mod_lt _ (by omega))

set_option maxRecDepth 100000 in
example : hex [97, 98, 99] =
    "ba7816bf8f01cfea414140de5dae2223b00361a396177a9cb410ff61f20015ad".toList := by
  decide +kernel

end Sha256
