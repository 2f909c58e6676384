/-
The digest SHA-256.

The message is padded to blocks of 64 bytes (a one bit, zeros, and its length
in bits).  Each block is spread to 64 words and mixed into the eight words of
the state by 64 rounds; the last state is the digest.
-/
import CompilationDatabase.Text.Hexadecimal

namespace CompilationDatabase.Digest

/-- The constants of the 64 rounds. -/
def roundConstants : List UInt32 :=
  [ 0x428a2f98, 0x71374491, 0xb5c0fbcf, 0xe9b5dba5, 0x3956c25b, 0x59f111f1, 0x923f82a4, 0xab1c5ed5,
    0xd807aa98, 0x12835b01, 0x243185be, 0x550c7dc3, 0x72be5d74, 0x80deb1fe, 0x9bdc06a7, 0xc19bf174,
    0xe49b69c1, 0xefbe4786, 0x0fc19dc6, 0x240ca1cc, 0x2de92c6f, 0x4a7484aa, 0x5cb0a9dc, 0x76f988da,
    0x983e5152, 0xa831c66d, 0xb00327c8, 0xbf597fc7, 0xc6e00bf3, 0xd5a79147, 0x06ca6351, 0x14292967,
    0x27b70a85, 0x2e1b2138, 0x4d2c6dfc, 0x53380d13, 0x650a7354, 0x766a0abb, 0x81c2c92e, 0x92722c85,
    0xa2bfe8a1, 0xa81a664b, 0xc24b8b70, 0xc76c51a3, 0xd192e819, 0xd6990624, 0xf40e3585, 0x106aa070,
    0x19a4c116, 0x1e376c08, 0x2748774c, 0x34b0bcb5, 0x391c0cb3, 0x4ed8aa4a, 0x5b9cca4f, 0x682e6ff3,
    0x748f82ee, 0x78a5636f, 0x84c87814, 0x8cc70208, 0x90befffa, 0xa4506ceb, 0xbef9a3f7, 0xc67178f2 ]

/-- The eight words that are mixed. -/
structure State where
  a : UInt32
  b : UInt32
  c : UInt32
  d : UInt32
  e : UInt32
  f : UInt32
  g : UInt32
  h : UInt32

namespace State

/-- The state before the first block. -/
def initial : State where
  a := 0x6a09e667
  b := 0xbb67ae85
  c := 0x3c6ef372
  d := 0xa54ff53a
  e := 0x510e527f
  f := 0x9b05688c
  g := 0x1f83d9ab
  h := 0x5be0cd19

/-- The words in order. -/
def words (s : State) : List UInt32 := [s.a, s.b, s.c, s.d, s.e, s.f, s.g, s.h]

/-- The sum of two states, word by word. -/
def add (s t : State) : State where
  a := s.a + t.a
  b := s.b + t.b
  c := s.c + t.c
  d := s.d + t.d
  e := s.e + t.e
  f := s.f + t.f
  g := s.g + t.g
  h := s.h + t.h

end State

/-- The word turned right by `n` bits. -/
def rotateRight (x n : UInt32) : UInt32 := (x >>> n) ||| (x <<< (32 - n))

/-- One round, with the sum of its constant and its word of the block. -/
def round (s : State) (input : UInt32) : State :=
  let mixE := rotateRight s.e 6 ^^^ rotateRight s.e 11 ^^^ rotateRight s.e 25
  let choice := (s.e &&& s.f) ^^^ ((~~~s.e) &&& s.g)
  let first := s.h + mixE + choice + input
  let mixA := rotateRight s.a 2 ^^^ rotateRight s.a 13 ^^^ rotateRight s.a 22
  let majority := (s.a &&& s.b) ^^^ (s.a &&& s.c) ^^^ (s.b &&& s.c)
  { a := first + (mixA + majority)
    b := s.a
    c := s.b
    d := s.c
    e := s.d + first
    f := s.e
    g := s.f
    h := s.g }

/-- The word of four bytes, the greatest first. -/
def wordOfBytes (a b c d : UInt8) : UInt32 :=
  (a.toUInt32 <<< 24) ||| (b.toUInt32 <<< 16) ||| (c.toUInt32 <<< 8) ||| d.toUInt32

/-- The words of a sequence of bytes. -/
def wordsOfBytes : List UInt8 → List UInt32
  | a :: b :: c :: d :: rest => wordOfBytes a b c d :: wordsOfBytes rest
  | _ => []

/-- Spreads the words of a block: the latest sixteen words, the latest first,
give the next one, `n` times over. -/
def spread : Nat → List UInt32 → List UInt32
  | 0, latest => latest
  | n + 1, latest =>
    let two := latest.getD 1 0
    let fifteen := latest.getD 14 0
    let small := rotateRight fifteen 7 ^^^ rotateRight fifteen 18 ^^^ (fifteen >>> 3)
    let large := rotateRight two 17 ^^^ rotateRight two 19 ^^^ (two >>> 10)
    spread n ((latest.getD 15 0 + small + latest.getD 6 0 + large) :: latest)

/-- Mixes a block of sixteen words into the state. -/
def mix (s : State) (block : List UInt32) : State :=
  let schedule := (spread 48 block.reverse).reverse
  s.add ((roundConstants.zipWith (· + ·) schedule).foldl round s)

/-- Mixes the words into the state, sixteen at a time, `n` blocks at most. -/
def mixAll : Nat → State → List UInt32 → State
  | 0, s, _ => s
  | n + 1, s, words => mixAll n (mix s (words.take 16)) (words.drop 16)

/-- The bytes of a natural number, the greatest first, in `n` places. -/
def bytesOfNat : Nat → Nat → List UInt8
  | 0, _ => []
  | n + 1, value => (value / 256 ^ n).toUInt8 :: bytesOfNat n value

/-- The message with its padding. -/
def padded (message : List UInt8) : List UInt8 :=
  let zeros := (119 - message.length % 64) % 64
  message ++ 0x80 :: List.replicate zeros 0 ++ bytesOfNat 8 (8 * message.length)

/-- The digest of a message, as 64 hexadecimal digits in lower case. -/
def sha256 (message : ByteArray) : String :=
  let words := wordsOfBytes (padded message.toList)
  let last := mixAll (words.length / 16) State.initial words
  String.ofList (last.words.flatMap fun word => Text.hexDigits 8 word.toNat)

end CompilationDatabase.Digest
