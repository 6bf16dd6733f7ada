import OpenDataGov.Lib.Text

/-!
# SHA-256

The hash function SHA-256 on lists of bytes, and its digests as texts of 64
hexadecimal digits (`hexdigest`).
-/

namespace Sha256

/-- The words of 32 bits. -/
abbrev Word := BitVec 32

/-- The fractional parts of the cube roots of the first 64 primes. -/
def roundConstants : List Word := [
  0x428a2f98#32, 0x71374491#32, 0xb5c0fbcf#32, 0xe9b5dba5#32,
  0x3956c25b#32, 0x59f111f1#32, 0x923f82a4#32, 0xab1c5ed5#32,
  0xd807aa98#32, 0x12835b01#32, 0x243185be#32, 0x550c7dc3#32,
  0x72be5d74#32, 0x80deb1fe#32, 0x9bdc06a7#32, 0xc19bf174#32,
  0xe49b69c1#32, 0xefbe4786#32, 0x0fc19dc6#32, 0x240ca1cc#32,
  0x2de92c6f#32, 0x4a7484aa#32, 0x5cb0a9dc#32, 0x76f988da#32,
  0x983e5152#32, 0xa831c66d#32, 0xb00327c8#32, 0xbf597fc7#32,
  0xc6e00bf3#32, 0xd5a79147#32, 0x06ca6351#32, 0x14292967#32,
  0x27b70a85#32, 0x2e1b2138#32, 0x4d2c6dfc#32, 0x53380d13#32,
  0x650a7354#32, 0x766a0abb#32, 0x81c2c92e#32, 0x92722c85#32,
  0xa2bfe8a1#32, 0xa81a664b#32, 0xc24b8b70#32, 0xc76c51a3#32,
  0xd192e819#32, 0xd6990624#32, 0xf40e3585#32, 0x106aa070#32,
  0x19a4c116#32, 0x1e376c08#32, 0x2748774c#32, 0x34b0bcb5#32,
  0x391c0cb3#32, 0x4ed8aa4a#32, 0x5b9cca4f#32, 0x682e6ff3#32,
  0x748f82ee#32, 0x78a5636f#32, 0x84c87814#32, 0x8cc70208#32,
  0x90befffa#32, 0xa4506ceb#32, 0xbef9a3f7#32, 0xc67178f2#32]

/-- The eight words of the state of the hash function. -/
structure State where
  a : Word
  b : Word
  c : Word
  d : Word
  e : Word
  f : Word
  g : Word
  h : Word

/-- The fractional parts of the square roots of the first 8 primes. -/
def State.init : State := ⟨0x6a09e667, 0xbb67ae85, 0x3c6ef372, 0xa54ff53a,
  0x510e527f, 0x9b05688c, 0x1f83d9ab, 0x5be0cd19⟩

/-- Adding two states word by word. -/
def State.add (s t : State) : State :=
  ⟨s.a + t.a, s.b + t.b, s.c + t.c, s.d + t.d, s.e + t.e, s.f + t.f, s.g + t.g, s.h + t.h⟩

/-- A round, with its constant and its word of the message. -/
def round (s : State) (kw : Word × Word) : State :=
  let S1 := s.e.rotateRight 6 ^^^ s.e.rotateRight 11 ^^^ s.e.rotateRight 25
  let ch := (s.e &&& s.f) ^^^ (~~~s.e &&& s.g)
  let t1 := s.h + S1 + ch + kw.1 + kw.2
  let S0 := s.a.rotateRight 2 ^^^ s.a.rotateRight 13 ^^^ s.a.rotateRight 22
  let maj := (s.a &&& s.b) ^^^ (s.a &&& s.c) ^^^ (s.b &&& s.c)
  ⟨t1 + (S0 + maj), s.a, s.b, s.c, s.d + t1, s.e, s.f, s.g⟩

/-- Extending the words of a block, the last one first, by `n` words. -/
def extend : ℕ → List Word → List Word
  | 0, ws => ws
  | n + 1, ws =>
    let w15 := ws.getD 14 0
    let w2 := ws.getD 1 0
    let s0 := w15.rotateRight 7 ^^^ w15.rotateRight 18 ^^^ (w15 >>> 3)
    let s1 := w2.rotateRight 17 ^^^ w2.rotateRight 19 ^^^ (w2 >>> 10)
    extend n ((ws.getD 15 0 + s0 + ws.getD 6 0 + s1) :: ws)

/-- Hashing a block of 16 words. -/
def compress (s : State) (block : List Word) : State :=
  let schedule := (extend 48 block.reverse).reverse
  s.add ((roundConstants.zip schedule).foldl round s)

/-- The big-endian words of a list of bytes. -/
def words : List UInt8 → List Word
  | a :: b :: c :: d :: bs =>
    BitVec.ofNat 32 (((a.toNat * 256 + b.toNat) * 256 + c.toNat) * 256 + d.toNat) :: words bs
  | _ => []

/-- A message padded to a multiple of 64 bytes: a bit 1, zeros, and its length in
    bits as 64 bits. -/
def pad (msg : List UInt8) : List UInt8 :=
  let n := msg.length
  msg ++ 0x80 :: (List.replicate ((119 - n % 64) % 64) 0 ++
    (List.range 8).reverse.map fun i => UInt8.ofNat (8 * n / 256 ^ i))

/-- Hashing the words of a message, `n` blocks of 16. -/
def hashBlocks : ℕ → State → List Word → State
  | 0, s, _ => s
  | n + 1, s, ws => hashBlocks n (compress s (ws.take 16)) (ws.drop 16)

/-- The digest of a message, as eight words. -/
def digest (msg : List UInt8) : List Word :=
  let ws := words (pad msg)
  let s := hashBlocks (ws.length / 16) .init ws
  [s.a, s.b, s.c, s.d, s.e, s.f, s.g, s.h]

/-- The digest of the UTF-8 encoding of a string, as a hexadecimal text. -/
def hexdigest (s : String) : String :=
  String.ofList ((digest s.toUTF8.toList).flatMap fun w => Text.hexDigits 8 w.toNat)

/-- A digest is written with 64 digits. -/
theorem length_hexdigest (s : String) : (hexdigest s).length = 64 := by
  rw [hexdigest, String.length_ofList, digest]
  simp only [List.flatMap_cons, List.flatMap_nil, List.length_append, List.length_nil,
    Text.length_hexDigits]

end Sha256
