import LogShipper.Decimal.Digits

/-!
# SHA-256

The padded message is read in blocks of sixteen words, each block is stretched to sixty-four words
and mixed into eight chaining words. The constants are not listed but computed from their rule,
the first fraction bits of roots of the first primes.
-/

namespace LogShipper.Digest

/-! ## Constants -/

/-- The primes below `n`, in order. -/
def primesBelow (n : Nat) : List Nat :=
  (List.range n).filter fun p => 2 ≤ p && (List.range p).all fun d => d < 2 || p % d ≠ 0

/-- The largest number below `2 ^ bits` whose `k`-th power is at most `n`, found bit by bit. -/
def rootBelow (bits k n : Nat) : Nat :=
  (List.range bits).reverse.foldl (fun r i =>
    let more := r + Nat.pow 2 i
    if Nat.pow more k ≤ n then more else r) 0

/-- The first 32 bits after the point of the `k`-th root of `p`. -/
def rootFraction (k p : Nat) : UInt32 :=
  UInt32.ofNat (rootBelow 40 k (p * Nat.pow 2 (32 * k)))

/-- One constant for each of the 64 rounds, from the cube roots of the first 64 primes. -/
def roundConstants : Array UInt32 :=
  ((primesBelow 312).map (rootFraction 3)).toArray

/-! ## Mixing -/

/-- The eight chaining words. -/
structure Chain where
  a : UInt32
  b : UInt32
  c : UInt32
  d : UInt32
  e : UInt32
  f : UInt32
  g : UInt32
  h : UInt32
deriving DecidableEq

/-- The chaining words before the first block, from the square roots of the first eight primes. -/
def Chain.start : Chain :=
  { a := rootFraction 2 2, b := rootFraction 2 3, c := rootFraction 2 5, d := rootFraction 2 7
    e := rootFraction 2 11, f := rootFraction 2 13, g := rootFraction 2 17, h := rootFraction 2 19 }

/-- Rotation to the right by less than a word. -/
def rotate (n : UInt32) (x : UInt32) : UInt32 :=
  (x >>> n) ||| (x <<< (32 - n))

/-- One round, with its word and its constant already added up. -/
def Chain.mix (s : Chain) (w : UInt32) : Chain :=
  let choice := (s.e &&& s.f) ^^^ (~~~s.e &&& s.g)
  let majority := (s.a &&& s.b) ^^^ (s.a &&& s.c) ^^^ (s.b &&& s.c)
  let t := s.h + (rotate 6 s.e ^^^ rotate 11 s.e ^^^ rotate 25 s.e) + choice + w
  let u := (rotate 2 s.a ^^^ rotate 13 s.a ^^^ rotate 22 s.a) + majority
  { a := t + u, b := s.a, c := s.b, d := s.c, e := s.d + t, f := s.e, g := s.f, h := s.g }

/-- The words of two chains added one by one. -/
def Chain.add (s t : Chain) : Chain :=
  { a := s.a + t.a, b := s.b + t.b, c := s.c + t.c, d := s.d + t.d
    e := s.e + t.e, f := s.f + t.f, g := s.g + t.g, h := s.h + t.h }

/-- The next word of a schedule, from four earlier ones. -/
def nextWord (w : Array UInt32) : UInt32 :=
  let back (i : Nat) := w.getD (w.size - i) 0
  let x := back 15
  let y := back 2
  back 16 + (rotate 7 x ^^^ rotate 18 x ^^^ (x >>> 3)) + back 7 +
    (rotate 17 y ^^^ rotate 19 y ^^^ (y >>> 10))

/-- A block of sixteen words stretched to sixty-four. -/
def schedule (block : Array UInt32) : Array UInt32 :=
  (List.range 48).foldl (fun w _ => w.push (nextWord w)) block

/-- The chain after one more block. -/
def Chain.absorb (s : Chain) (block : Array UInt32) : Chain :=
  s.add (((schedule block).zipWith (· + ·) roundConstants).foldl Chain.mix s)

/-! ## Messages -/

/-- The message with a one bit, zeros up to a whole number of blocks, and its length in bits. -/
def padded (message : ByteArray) : ByteArray :=
  let zeros := (119 - message.size % 64) % 64
  let bits := message.size * 8
  let tail := (List.range 8).map fun i => UInt8.ofNat (bits / Nat.pow 256 (7 - i))
  (0x80 :: (List.replicate zeros 0 ++ tail)).foldl ByteArray.push message

/-- The byte at a place, zero behind the end. -/
def byteAt (bytes : ByteArray) (i : Nat) : UInt32 :=
  if h : i < bytes.size then bytes[i].toUInt32 else 0

/-- The word that starts at a place, its first byte the highest. -/
def wordAt (bytes : ByteArray) (i : Nat) : UInt32 :=
  (byteAt bytes i <<< 24) ||| (byteAt bytes (i + 1) <<< 16) |||
    (byteAt bytes (i + 2) <<< 8) ||| byteAt bytes (i + 3)

/-- The sixteen words of the block with the given number. -/
def blockAt (bytes : ByteArray) (n : Nat) : Array UInt32 :=
  ((List.range 16).map fun i => wordAt bytes (64 * n + 4 * i)).toArray

/-- The chain after the whole message. -/
def digest (message : ByteArray) : Chain :=
  let bytes := padded message
  (List.range (bytes.size / 64)).foldl (fun s n => s.absorb (blockAt bytes n)) .start

/-! ## Text form -/

/-- Eight hexadecimal digits. -/
def hexWord (w : UInt32) : List Char :=
  Decimal.padZeros 8 (Decimal.numeral 16 w.toNat)

/-- The digest of a message as sixty-four small hexadecimal digits. -/
def sha256Hex (message : ByteArray) : String :=
  let s := digest message
  String.ofList ([s.a, s.b, s.c, s.d, s.e, s.f, s.g, s.h].flatMap hexWord)

/-- The digest of a text's UTF-8 form. -/
def sha256Text (text : String) : String :=
  sha256Hex text.toUTF8

end LogShipper.Digest
