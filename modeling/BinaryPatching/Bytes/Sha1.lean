import BinaryPatching.Bytes.Hex

/-!
# `BinaryPatching.Bytes.Sha1` — the SHA-1 digest

## Contents
- `Bytes.Sha1.padded`: the message padded to whole blocks of sixty-four bytes.
- `Bytes.Sha1.schedule`, `Bytes.Sha1.compress`: the eighty words of a block and its eighty rounds.
- `Bytes.sha1`: the digest, twenty bytes.
-/

namespace BinaryPatching.Bytes

namespace Sha1

/-- The five words that a digest is made of. -/
structure State where
  a : UInt32
  b : UInt32
  c : UInt32
  d : UInt32
  e : UInt32
deriving Repr, DecidableEq, Inhabited

/-- The state before the first block. -/
def initial : State := ⟨0x67452301, 0xEFCDAB89, 0x98BADCFE, 0x10325476, 0xC3D2E1F0⟩

/-- A word turned left by a number of bits below thirty-two. -/
def rotateLeft (w : UInt32) (n : UInt32) : UInt32 := (w <<< n) ||| (w >>> (32 - n))

/-- The four bytes of a word, high byte first. -/
def highFirst (w : UInt32) : Bytes :=
  [(w >>> 24).toUInt8, (w >>> 16).toUInt8, (w >>> 8).toUInt8, w.toUInt8]

/-- The eight bytes of a message's length in bits, high byte first. -/
def lengthField (n : Nat) : Bytes :=
  let bits := 8 * n
  highFirst (UInt32.ofNat (bits / 0x100000000)) ++ highFirst (UInt32.ofNat bits)

/-- The message, a one bit, as many zero bytes as needed, and the length: whole blocks of sixty-four bytes. -/
def padded (data : Bytes) : Bytes :=
  data ++ 0x80 :: List.replicate ((119 - data.length % 64) % 64) 0 ++ lengthField data.length

/-- Padding fills the last block. -/
theorem length_padded (data : Bytes) : (padded data).length % 64 = 0 := by
  simp [padded, lengthField, highFirst]
  omega

/-- The words of a block, high byte first. -/
def blockWords : Bytes → List UInt32
  | b0 :: b1 :: b2 :: b3 :: rest => joinWord32 b3 b2 b1 b0 :: blockWords rest
  | _ => []

/-- Adds `n` words to a schedule: each is the turned sum, without carries, of four earlier ones. -/
def extend : Nat → Array UInt32 → Array UInt32
  | 0, w => w
  | n + 1, w =>
    let t := w.size
    let x := w.getD (t - 3) 0 ^^^ w.getD (t - 8) 0 ^^^ w.getD (t - 14) 0 ^^^ w.getD (t - 16) 0
    extend n (w.push (rotateLeft x 1))

/-- The eighty words that a block's rounds use. -/
def schedule (block : Bytes) : Array UInt32 := extend 64 (blockWords block).toArray

/-- One round. The function and the constant change every twenty rounds. -/
def round (s : State) (t : Nat) (w : UInt32) : State :=
  let (f, k) : UInt32 × UInt32 :=
    if t < 20 then ((s.b &&& s.c) ||| (~~~s.b &&& s.d), 0x5A827999)
    else if t < 40 then (s.b ^^^ s.c ^^^ s.d, 0x6ED9EBA1)
    else if t < 60 then ((s.b &&& s.c) ||| (s.b &&& s.d) ||| (s.c &&& s.d), 0x8F1BBCDC)
    else (s.b ^^^ s.c ^^^ s.d, 0xCA62C1D6)
  ⟨rotateLeft s.a 5 + f + s.e + k + w, s.a, rotateLeft s.b 30, s.c, s.d⟩

/-- The rounds of the words from round `t` on. -/
def rounds (s : State) (t : Nat) : List UInt32 → State
  | [] => s
  | w :: rest => rounds (round s t w) (t + 1) rest

/-- One block added to the state. -/
def compress (s : State) (block : Bytes) : State :=
  let r := rounds s 0 (schedule block).toList
  ⟨s.a + r.a, s.b + r.b, s.c + r.c, s.d + r.d, s.e + r.e⟩

/-- The next `n` blocks added to the state. -/
def absorb : Nat → State → Bytes → State
  | 0, s, _ => s
  | n + 1, s, data => absorb n (compress s (data.take 64)) (data.drop 64)

/-- The digest that a state stands for. -/
def State.digest (s : State) : Bytes :=
  highFirst s.a ++ highFirst s.b ++ highFirst s.c ++ highFirst s.d ++ highFirst s.e

end Sha1

/-- The SHA-1 digest of the data. -/
def sha1 (data : Bytes) : Bytes :=
  let message := Sha1.padded data
  (Sha1.absorb (message.length / 64) Sha1.initial message).digest

/-- A digest has twenty bytes. -/
@[simp] theorem length_sha1 (data : Bytes) : (sha1 data).length = 20 := rfl

end BinaryPatching.Bytes
