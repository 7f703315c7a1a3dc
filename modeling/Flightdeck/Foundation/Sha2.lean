import Mathlib.Tactic

/-!
# SHA-256

The hash function itself, for runs on fixed inputs.  Words are naturals below `2 ^ 32`, and the
message schedule is kept newest first.
-/

namespace Foundation.Sha2

def word (n : Nat) : Nat := n % 2 ^ 32

/-- Rotation to the right. -/
def rotr (x n : Nat) : Nat := word (x >>> n ||| x <<< (32 - n))

/-- The first bits of the fractional parts of the cube roots of the first 64 primes. -/
def roundConstants : List Nat :=
  [1116352408, 1899447441, 3049323471, 3921009573, 961987163, 1508970993, 2453635748, 2870763221,
    3624381080, 310598401, 607225278, 1426881987, 1925078388, 2162078206, 2614888103, 3248222580,
    3835390401, 4022224774, 264347078, 604807628, 770255983, 1249150122, 1555081692, 1996064986,
    2554220882, 2821834349, 2952996808, 3210313671, 3336571891, 3584528711, 113926993, 338241895,
    666307205, 773529912, 1294757372, 1396182291, 1695183700, 1986661051, 2177026350, 2456956037,
    2730485921, 2820302411, 3259730800, 3345764771, 3516065817, 3600352804, 4094571909, 275423344,
    430227734, 506948616, 659060556, 883997877, 958139571, 1322822218, 1537002063, 1747873779,
    1955562222, 2024104815, 2227730452, 2361852424, 2428436474, 2756734187, 3204031479, 3329325298]

structure Registers where
  a : Nat
  b : Nat
  c : Nat
  d : Nat
  e : Nat
  f : Nat
  g : Nat
  h : Nat

/-- The first bits of the fractional parts of the square roots of the first eight primes. -/
def initial : Registers :=
  ⟨1779033703, 3144134277, 1013904242, 2773480762, 1359893119, 2600822924, 528734635, 1541459225⟩

def Registers.words (r : Registers) : List Nat := [r.a, r.b, r.c, r.d, r.e, r.f, r.g, r.h]

def Registers.round (r : Registers) (constant scheduled : Nat) : Registers :=
  let choice := (r.e &&& r.f) ^^^ ((r.e ^^^ (2 ^ 32 - 1)) &&& r.g)
  let majority := (r.a &&& r.b) ^^^ (r.a &&& r.c) ^^^ (r.b &&& r.c)
  let first := r.h + (rotr r.e 6 ^^^ rotr r.e 11 ^^^ rotr r.e 25) + choice + constant + scheduled
  let second := (rotr r.a 2 ^^^ rotr r.a 13 ^^^ rotr r.a 22) + majority
  ⟨word (first + second), r.a, r.b, r.c, word (r.d + first), r.e, r.f, r.g⟩

def bigEndian : List UInt8 → Nat := List.foldl (fun n b => 256 * n + b.toNat) 0

def wordBytes (n : Nat) : List UInt8 :=
  [UInt8.ofNat (n >>> 24), UInt8.ofNat (n >>> 16), UInt8.ofNat (n >>> 8), UInt8.ofNat n]

/-- The next word of the schedule, from the sixteen before it. -/
def nextWord (ws : List Nat) : Nat :=
  let older := ws.getD 14 0
  let newer := ws.getD 1 0
  word ((rotr newer 17 ^^^ rotr newer 19 ^^^ newer >>> 10) + ws.getD 6 0 +
    (rotr older 7 ^^^ rotr older 18 ^^^ older >>> 3) + ws.getD 15 0)

def extend : Nat → List Nat → List Nat
  | 0, ws => ws
  | n + 1, ws => extend n (nextWord ws :: ws)

def Registers.add (r s : Registers) : Registers :=
  ⟨word (r.a + s.a), word (r.b + s.b), word (r.c + s.c), word (r.d + s.d), word (r.e + s.e),
    word (r.f + s.f), word (r.g + s.g), word (r.h + s.h)⟩

/-- One block of sixteen words. -/
def compress (r : Registers) (block : List Nat) : Registers :=
  let schedule := (extend 48 block.reverse).reverse
  r.add ((roundConstants.zip schedule).foldl (fun r step => r.round step.1 step.2) r)

def words : List UInt8 → List Nat
  | a :: b :: c :: d :: rest => bigEndian [a, b, c, d] :: words rest
  | _ => []

def compressAll : Nat → Registers → List Nat → Registers
  | 0, r, _ => r
  | blocks + 1, r, ws => compressAll blocks (compress r (ws.take 16)) (ws.drop 16)

/-- A one bit, zeros, and the length in bits, up to a whole number of blocks. -/
def pad (data : List UInt8) : List UInt8 :=
  data ++ 128 :: (List.replicate ((119 - data.length % 64) % 64) 0 ++
    (wordBytes (8 * data.length / 2 ^ 32) ++ wordBytes (8 * data.length)))

def digest (data : List UInt8) : List UInt8 :=
  let padded := pad data
  (compressAll (padded.length / 64) initial (words padded)).words.flatMap wordBytes

theorem digest_length (data : List UInt8) : (digest data).length = 32 := rfl

end Foundation.Sha2
