/-!
# SHA-256

The digest of FIPS 180-4 over a list of bytes. The message is padded to blocks of sixteen
words, each block is stretched to sixty-four words, and sixty-four rounds mix them into
eight words of state.
-/

namespace PlatformWiring.Digest

/-- The eight words of state. -/
structure State where
  a : UInt32
  b : UInt32
  c : UInt32
  d : UInt32
  e : UInt32
  f : UInt32
  g : UInt32
  h : UInt32

/-- The state before the first block. -/
def start : State :=
  ⟨0x6a09e667, 0xbb67ae85, 0x3c6ef372, 0xa54ff53a, 0x510e527f, 0x9b05688c, 0x1f83d9ab, 0x5be0cd19⟩

/-- The constant of each round. -/
def roundConstants : List UInt32 :=
  [0x428a2f98, 0x71374491, 0xb5c0fbcf, 0xe9b5dba5, 0x3956c25b, 0x59f111f1, 0x923f82a4, 0xab1c5ed5,
   0xd807aa98, 0x12835b01, 0x243185be, 0x550c7dc3, 0x72be5d74, 0x80deb1fe, 0x9bdc06a7, 0xc19bf174,
   0xe49b69c1, 0xefbe4786, 0x0fc19dc6, 0x240ca1cc, 0x2de92c6f, 0x4a7484aa, 0x5cb0a9dc, 0x76f988da,
   0x983e5152, 0xa831c66d, 0xb00327c8, 0xbf597fc7, 0xc6e00bf3, 0xd5a79147, 0x06ca6351, 0x14292967,
   0x27b70a85, 0x2e1b2138, 0x4d2c6dfc, 0x53380d13, 0x650a7354, 0x766a0abb, 0x81c2c92e, 0x92722c85,
   0xa2bfe8a1, 0xa81a664b, 0xc24b8b70, 0xc76c51a3, 0xd192e819, 0xd6990624, 0xf40e3585, 0x106aa070,
   0x19a4c116, 0x1e376c08, 0x2748774c, 0x34b0bcb5, 0x391c0cb3, 0x4ed8aa4a, 0x5b9cca4f, 0x682e6ff3,
   0x748f82ee, 0x78a5636f, 0x84c87814, 0x8cc70208, 0x90befffa, 0xa4506ceb, 0xbef9a3f7, 0xc67178f2]

/-- The word turned right by `n` bits. -/
def rotate (x n : UInt32) : UInt32 := (x >>> n) ||| (x <<< (32 - n))

/-- One round with a word of the schedule and its constant. -/
def round (s : State) (word constant : UInt32) : State :=
  let mixE := rotate s.e 6 ^^^ rotate s.e 11 ^^^ rotate s.e 25
  let choice := (s.e &&& s.f) ^^^ (~~~s.e &&& s.g)
  let t := s.h + mixE + choice + constant + word
  let mixA := rotate s.a 2 ^^^ rotate s.a 13 ^^^ rotate s.a 22
  let majority := (s.a &&& s.b) ^^^ (s.a &&& s.c) ^^^ (s.b &&& s.c)
  ⟨t + mixA + majority, s.a, s.b, s.c, s.d + t, s.e, s.f, s.g⟩

/-- The next word of a schedule, of which the last sixteen words are given, latest first. -/
def nextWord (latest : List UInt32) : UInt32 :=
  let ago (i : Nat) : UInt32 := latest.getD (i - 1) 0
  let two := ago 2
  let fifteen := ago 15
  let mixTwo := rotate two 17 ^^^ rotate two 19 ^^^ (two >>> 10)
  let mixFifteen := rotate fifteen 7 ^^^ rotate fifteen 18 ^^^ (fifteen >>> 3)
  mixTwo + ago 7 + mixFifteen + ago 16

/-- `n` further words of a schedule, which is held latest first. -/
def stretch (schedule : List UInt32) : Nat → List UInt32
  | 0 => schedule
  | n + 1 => stretch (nextWord schedule :: schedule) n

/-- The state after a block of sixteen words. -/
def absorb (s : State) (block : List UInt32) : State :=
  let schedule := (stretch block.reverse 48).reverse
  let t := (schedule.zip roundConstants).foldl (fun t (w, k) => round t w k) s
  ⟨s.a + t.a, s.b + t.b, s.c + t.c, s.d + t.d, s.e + t.e, s.f + t.f, s.g + t.g, s.h + t.h⟩

/-- The bytes of a number in `n` bytes, highest first. -/
def bigEndian (n value : Nat) : List UInt8 :=
  (List.range n).reverse.map fun i => UInt8.ofNat (value >>> (8 * i))

/-- The message with a one bit, zero bits and its length in bits, up to a multiple of 64 bytes. -/
def pad (bytes : List UInt8) : List UInt8 :=
  let zeros := (64 - (bytes.length + 9) % 64) % 64
  bytes ++ 0x80 :: List.replicate zeros 0 ++ bigEndian 8 (8 * bytes.length)

/-- Words of four bytes each, highest byte first. -/
def words : List UInt8 → List UInt32
  | a :: b :: c :: d :: rest =>
    ((a.toUInt32 <<< 24) ||| (b.toUInt32 <<< 16) ||| (c.toUInt32 <<< 8) ||| d.toUInt32) :: words rest
  | _ => []

/-- The state after all words, taken in blocks of sixteen. -/
def absorbAll (s : State) (ws : List UInt32) : State :=
  if _h : ws.length < 16 then s
  else absorbAll (absorb s (ws.take 16)) (ws.drop 16)
termination_by ws.length
decreasing_by simp only [List.length_drop]; omega

/-- A word in eight lower-case hexadecimal digits. -/
def hex (w : UInt32) : List Char :=
  (List.range 8).reverse.map fun i => Nat.digitChar (w.toNat >>> (4 * i) % 16)

/-- The digest of a list of bytes in lower-case hexadecimal. -/
def ofBytes (bytes : List UInt8) : String :=
  let s := absorbAll start (words (pad bytes))
  String.ofList ([s.a, s.b, s.c, s.d, s.e, s.f, s.g, s.h].flatMap hex)

/-- The digest of a text in UTF-8. -/
def ofText (s : String) : String := ofBytes s.toUTF8.toList

end PlatformWiring.Digest
