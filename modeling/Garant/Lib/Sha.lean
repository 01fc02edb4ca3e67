import Mathlib
/-!
# SHA-1, SHA-256 and HMAC

On lists of bytes. A message is padded to blocks of sixteen words, and each
block is compressed into the state. A digest has as many bytes as the state
whatever the message is (`sha1_length`, `sha256_length`), and so has an HMAC
over it (`hmac_length`).
-/

namespace Sha

/-! ## Bytes and words -/

def rotl (n x : UInt32) : UInt32 := (x <<< n) ||| (x >>> (32 - n))

def rotr (n x : UInt32) : UInt32 := (x >>> n) ||| (x <<< (32 - n))

/-- The `n` lowest bytes of a number, highest first. -/
def bigEndian : ℕ → ℕ → List UInt8
  | 0, _ => []
  | n + 1, x => bigEndian n (x / 256) ++ [UInt8.ofNat x]

@[simp] theorem bigEndian_length (n x : ℕ) : (bigEndian n x).length = n := by
  induction n generalizing x with
  | zero => rfl
  | succ n ih => rw [bigEndian, List.length_append, ih, List.length_singleton]

def wordBytes (x : UInt32) : List UInt8 := [(x >>> 24).toUInt8, (x >>> 16).toUInt8, (x >>> 8).toUInt8, x.toUInt8]

def words : List UInt8 → List UInt32
  | a :: b :: c :: d :: rest =>
    ((a.toUInt32 <<< 24) ||| (b.toUInt32 <<< 16) ||| (c.toUInt32 <<< 8) ||| d.toUInt32) :: words rest
  | _ => []

/-- The first `n` pieces of `size` elements. -/
def chunks {α : Type} (size : ℕ) : ℕ → List α → List (List α)
  | 0, _ => []
  | n + 1, xs => xs.take size :: chunks size n (xs.drop size)

/-- A one bit, zeros up to eight bytes below a full block, and the length in bits. -/
def pad (msg : List UInt8) : List UInt8 :=
  msg ++ 0x80 :: List.replicate ((119 - msg.length % 64) % 64) 0 ++ bigEndian 8 (8 * msg.length)

/-- `n` more words, each computed from those before it; the last word comes first. -/
def expand (next : List UInt32 → UInt32) : ℕ → List UInt32 → List UInt32
  | 0, ws => ws
  | n + 1, ws => expand next n (next ws :: ws)

/-- The state after all blocks of the padded message. -/
def process {S : Type} (compress : S → List UInt32 → S) (init : S) (msg : List UInt8) : S :=
  let ws := words (pad msg)
  (chunks 16 (ws.length / 16) ws).foldl compress init

/-! ## SHA-1 -/

structure State1 where
  a : UInt32
  b : UInt32
  c : UInt32
  d : UInt32
  e : UInt32

/-- The function and the constant of round `t`. -/
def mix (t : ℕ) (b c d : UInt32) : UInt32 :=
  if t < 20 then ((b &&& c) ||| (~~~b &&& d)) + 0x5A827999
  else if t < 40 then (b ^^^ c ^^^ d) + 0x6ED9EBA1
  else if t < 60 then ((b &&& c) ||| (b &&& d) ||| (c &&& d)) + 0x8F1BBCDC
  else (b ^^^ c ^^^ d) + 0xCA62C1D6

def round1 (s : State1) (w : UInt32 × ℕ) : State1 :=
  ⟨rotl 5 s.a + mix w.2 s.b s.c s.d + s.e + w.1, s.a, rotl 30 s.b, s.c, s.d⟩

def schedule1 (block : List UInt32) : List UInt32 :=
  let next ws := rotl 1 (ws.getD 2 0 ^^^ ws.getD 7 0 ^^^ ws.getD 13 0 ^^^ ws.getD 15 0)
  (expand next 64 block.reverse).reverse

def compress1 (s : State1) (block : List UInt32) : State1 :=
  let r := (schedule1 block).zipIdx.foldl round1 s
  ⟨s.a + r.a, s.b + r.b, s.c + r.c, s.d + r.d, s.e + r.e⟩

def sha1 (msg : List UInt8) : List UInt8 :=
  let s := process compress1 ⟨0x67452301, 0xEFCDAB89, 0x98BADCFE, 0x10325476, 0xC3D2E1F0⟩ msg
  [s.a, s.b, s.c, s.d, s.e].flatMap wordBytes

theorem sha1_length (msg : List UInt8) : (sha1 msg).length = 20 := rfl

/-! ## SHA-256 -/

structure State256 where
  a : UInt32
  b : UInt32
  c : UInt32
  d : UInt32
  e : UInt32
  f : UInt32
  g : UInt32
  h : UInt32

def roundConstants : List UInt32 :=
  [0x428a2f98, 0x71374491, 0xb5c0fbcf, 0xe9b5dba5, 0x3956c25b, 0x59f111f1, 0x923f82a4, 0xab1c5ed5,
    0xd807aa98, 0x12835b01, 0x243185be, 0x550c7dc3, 0x72be5d74, 0x80deb1fe, 0x9bdc06a7, 0xc19bf174,
    0xe49b69c1, 0xefbe4786, 0x0fc19dc6, 0x240ca1cc, 0x2de92c6f, 0x4a7484aa, 0x5cb0a9dc, 0x76f988da,
    0x983e5152, 0xa831c66d, 0xb00327c8, 0xbf597fc7, 0xc6e00bf3, 0xd5a79147, 0x06ca6351, 0x14292967,
    0x27b70a85, 0x2e1b2138, 0x4d2c6dfc, 0x53380d13, 0x650a7354, 0x766a0abb, 0x81c2c92e, 0x92722c85,
    0xa2bfe8a1, 0xa81a664b, 0xc24b8b70, 0xc76c51a3, 0xd192e819, 0xd6990624, 0xf40e3585, 0x106aa070,
    0x19a4c116, 0x1e376c08, 0x2748774c, 0x34b0bcb5, 0x391c0cb3, 0x4ed8aa4a, 0x5b9cca4f, 0x682e6ff3,
    0x748f82ee, 0x78a5636f, 0x84c87814, 0x8cc70208, 0x90befffa, 0xa4506ceb, 0xbef9a3f7, 0xc67178f2]

/-- One round, with its word and its constant. -/
def round256 (s : State256) (w : UInt32 × UInt32) : State256 :=
  let t₁ := s.h + (rotr 6 s.e ^^^ rotr 11 s.e ^^^ rotr 25 s.e) + ((s.e &&& s.f) ^^^ (~~~s.e &&& s.g)) + w.2 + w.1
  let t₂ := (rotr 2 s.a ^^^ rotr 13 s.a ^^^ rotr 22 s.a) + ((s.a &&& s.b) ^^^ (s.a &&& s.c) ^^^ (s.b &&& s.c))
  ⟨t₁ + t₂, s.a, s.b, s.c, s.d + t₁, s.e, s.f, s.g⟩

def schedule256 (block : List UInt32) : List UInt32 :=
  let near x := rotr 17 x ^^^ rotr 19 x ^^^ (x >>> 10)
  let far x := rotr 7 x ^^^ rotr 18 x ^^^ (x >>> 3)
  let next ws := near (ws.getD 1 0) + ws.getD 6 0 + far (ws.getD 14 0) + ws.getD 15 0
  (expand next 48 block.reverse).reverse

def compress256 (s : State256) (block : List UInt32) : State256 :=
  let r := ((schedule256 block).zip roundConstants).foldl round256 s
  ⟨s.a + r.a, s.b + r.b, s.c + r.c, s.d + r.d, s.e + r.e, s.f + r.f, s.g + r.g, s.h + r.h⟩

def sha256 (msg : List UInt8) : List UInt8 :=
  let s := process compress256
    ⟨0x6a09e667, 0xbb67ae85, 0x3c6ef372, 0xa54ff53a, 0x510e527f, 0x9b05688c, 0x1f83d9ab, 0x5be0cd19⟩ msg
  [s.a, s.b, s.c, s.d, s.e, s.f, s.g, s.h].flatMap wordBytes

theorem sha256_length (msg : List UInt8) : (sha256 msg).length = 32 := rfl

/-! ## HMAC -/

/-- The HMAC of a message, over a hash with blocks of 64 bytes. -/
def hmac (hash : List UInt8 → List UInt8) (key msg : List UInt8) : List UInt8 :=
  let key := if 64 < key.length then hash key else key
  let key := key ++ List.replicate (64 - key.length) 0
  hash (key.map (· ^^^ 0x5c) ++ hash (key.map (· ^^^ 0x36) ++ msg))

theorem hmac_length {hash : List UInt8 → List UInt8} {n : ℕ} (h : ∀ msg, (hash msg).length = n) (key msg : List UInt8) :
    (hmac hash key msg).length = n := h _

example : sha1 [97, 98, 99] = bigEndian 20 0xa9993e364706816aba3e25717850c26c9cd0d89d := by decide +kernel

example : sha256 [97, 98, 99] =
    bigEndian 32 0xba7816bf8f01cfea414140de5dae2223b00361a396177a9cb410ff61f20015ad := by decide +kernel

end Sha
