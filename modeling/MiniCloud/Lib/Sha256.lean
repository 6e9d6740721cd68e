import MiniCloud.Lib.Text

/-!
# SHA-256

FIPS 180-4, on lists of bytes. General results either hold for every hash or assume that
two given messages do not collide; only samples evaluate it. What the callers do rely on is
the shape of the output, `hash_length`.
-/

namespace MiniCloud.Lib.Sha256

/-- The eight words of the chaining state. -/
structure Words where
  a : UInt32
  b : UInt32
  c : UInt32
  d : UInt32
  e : UInt32
  f : UInt32
  g : UInt32
  h : UInt32

def rotr (x n : UInt32) : UInt32 := (x >>> n) ||| (x <<< (32 - n))

def bigSigma0 (x : UInt32) : UInt32 := rotr x 2 ^^^ rotr x 13 ^^^ rotr x 22
def bigSigma1 (x : UInt32) : UInt32 := rotr x 6 ^^^ rotr x 11 ^^^ rotr x 25
def smallSigma0 (x : UInt32) : UInt32 := rotr x 7 ^^^ rotr x 18 ^^^ (x >>> 3)
def smallSigma1 (x : UInt32) : UInt32 := rotr x 17 ^^^ rotr x 19 ^^^ (x >>> 10)
def ch (x y z : UInt32) : UInt32 := (x &&& y) ^^^ (~~~ x &&& z)
def maj (x y z : UInt32) : UInt32 := (x &&& y) ^^^ (x &&& z) ^^^ (y &&& z)

/-- The round constants. -/
def roundConstants : List UInt32 := [
  0x428a2f98, 0x71374491, 0xb5c0fbcf, 0xe9b5dba5, 0x3956c25b, 0x59f111f1, 0x923f82a4, 0xab1c5ed5,
  0xd807aa98, 0x12835b01, 0x243185be, 0x550c7dc3, 0x72be5d74, 0x80deb1fe, 0x9bdc06a7, 0xc19bf174,
  0xe49b69c1, 0xefbe4786, 0x0fc19dc6, 0x240ca1cc, 0x2de92c6f, 0x4a7484aa, 0x5cb0a9dc, 0x76f988da,
  0x983e5152, 0xa831c66d, 0xb00327c8, 0xbf597fc7, 0xc6e00bf3, 0xd5a79147, 0x06ca6351, 0x14292967,
  0x27b70a85, 0x2e1b2138, 0x4d2c6dfc, 0x53380d13, 0x650a7354, 0x766a0abb, 0x81c2c92e, 0x92722c85,
  0xa2bfe8a1, 0xa81a664b, 0xc24b8b70, 0xc76c51a3, 0xd192e819, 0xd6990624, 0xf40e3585, 0x106aa070,
  0x19a4c116, 0x1e376c08, 0x2748774c, 0x34b0bcb5, 0x391c0cb3, 0x4ed8aa4a, 0x5b9cca4f, 0x682e6ff3,
  0x748f82ee, 0x78a5636f, 0x84c87814, 0x8cc70208, 0x90befffa, 0xa4506ceb, 0xbef9a3f7, 0xc67178f2]

def initial : Words :=
  ⟨0x6a09e667, 0xbb67ae85, 0x3c6ef372, 0xa54ff53a, 0x510e527f, 0x9b05688c, 0x1f83d9ab, 0x5be0cd19⟩

/-- Big-endian words of a block. -/
def wordsOf : List UInt8 → List UInt32
  | p :: q :: r :: s :: rest =>
    ((p.toUInt32 <<< 24) ||| (q.toUInt32 <<< 16) ||| (r.toUInt32 <<< 8) ||| s.toUInt32) ::
      wordsOf rest
  | _ => []

/-- Extend the message schedule by `n` words. The newest word stands first. -/
def extend : Nat → List UInt32 → List UInt32
  | 0, w => w
  | n + 1, w =>
    extend n ((smallSigma1 (w.getD 1 0) + w.getD 6 0 + smallSigma0 (w.getD 14 0) + w.getD 15 0) :: w)

/-- The sixty-four words of the schedule, oldest first. -/
def schedule (block : List UInt8) : List UInt32 := (extend 48 (wordsOf block).reverse).reverse

def round (s : Words) (kw : UInt32 × UInt32) : Words :=
  let t1 := s.h + bigSigma1 s.e + ch s.e s.f s.g + kw.1 + kw.2
  let t2 := bigSigma0 s.a + maj s.a s.b s.c
  ⟨t1 + t2, s.a, s.b, s.c, s.d + t1, s.e, s.f, s.g⟩

def compress (s : Words) (block : List UInt8) : Words :=
  let r := (roundConstants.zip (schedule block)).foldl round s
  ⟨s.a + r.a, s.b + r.b, s.c + r.c, s.d + r.d, s.e + r.e, s.f + r.f, s.g + r.g, s.h + r.h⟩

/-- The message, a one bit, zeros, and the bit length in eight bytes. -/
def pad (message : List UInt8) : List UInt8 :=
  let bits := message.length * 8
  message ++ 0x80 :: List.replicate ((119 - message.length % 64) % 64) 0 ++
    (List.range 8).map fun i => (bits / 256 ^ (7 - i)).toUInt8

/-- Cut into blocks of sixty-four bytes. -/
def blocks : Nat → List UInt8 → List (List UInt8)
  | 0, _ => []
  | n + 1, bytes => bytes.take 64 :: blocks n (bytes.drop 64)

def bytesOf (w : UInt32) : List UInt8 :=
  [(w >>> 24).toUInt8, (w >>> 16).toUInt8, (w >>> 8).toUInt8, w.toUInt8]

/-- `sha256.Sum256`. -/
def hash (message : List UInt8) : List UInt8 :=
  let padded := pad message
  let s := (blocks (padded.length / 64) padded).foldl compress initial
  bytesOf s.a ++ bytesOf s.b ++ bytesOf s.c ++ bytesOf s.d ++
    bytesOf s.e ++ bytesOf s.f ++ bytesOf s.g ++ bytesOf s.h

theorem hash_length (message : List UInt8) : (hash message).length = 32 := rfl

/-! ## Hexadecimal -/

/-- The lower-case digit of a nibble. -/
def hexDigit (n : UInt8) : UInt8 := if n < 10 then n + 48 else n + 87

/-- `hex.EncodeToString`. -/
def hex (bytes : List UInt8) : List UInt8 :=
  bytes.flatMap fun b : UInt8 => [hexDigit (b >>> 4), hexDigit (b &&& 15)]

theorem hex_cons (b : UInt8) (rest : List UInt8) :
    hex (b :: rest) = hexDigit (b >>> 4) :: hexDigit (b &&& 15) :: hex rest := by
  simp [hex]

theorem hexDigits_isLowerHex (b : UInt8) :
    Text.isLowerHex (hexDigit (b >>> 4)) = true ∧ Text.isLowerHex (hexDigit (b &&& 15)) = true :=
  Text.forall_byte (p := fun b => Text.isLowerHex (hexDigit (b >>> 4)) = true ∧
    Text.isLowerHex (hexDigit (b &&& 15)) = true) (by decide +kernel) b

theorem hex_length (bytes : List UInt8) : (hex bytes).length = 2 * bytes.length := by
  induction bytes with
  | nil => simp [hex]
  | cons b rest ih =>
      rw [hex_cons]
      simp only [List.length_cons, ih]
      omega

theorem hex_all (bytes : List UInt8) : (hex bytes).all Text.isLowerHex = true := by
  induction bytes with
  | nil => simp [hex]
  | cons b rest ih =>
      obtain ⟨h1, h2⟩ := hexDigits_isLowerHex b
      rw [hex_cons, List.all_cons, List.all_cons, h1, h2, ih]
      rfl

end MiniCloud.Lib.Sha256
