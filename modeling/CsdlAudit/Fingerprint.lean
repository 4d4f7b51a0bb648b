import CsdlAudit.Json

/-!
# Fingerprints

A fingerprint stands for a text in comparisons and in reports: the SHA-256 hash of its UTF-8 bytes
in hexadecimal digits. Reports show its first twelve digits.

The hash of a byte sequence is 32 bytes long. The message is padded to whole blocks of 64 bytes, and
each block stirs the eight words of the state in 64 rounds.
-/

namespace CsdlAudit.Sha256

/-- The eight words between two rounds. -/
structure State where
  /-- The first word. -/
  a : UInt32
  /-- The second word. -/
  b : UInt32
  /-- The third word. -/
  c : UInt32
  /-- The fourth word. -/
  d : UInt32
  /-- The fifth word. -/
  e : UInt32
  /-- The sixth word. -/
  f : UInt32
  /-- The seventh word. -/
  g : UInt32
  /-- The eighth word. -/
  h : UInt32
deriving DecidableEq, Repr

/-- The state before the first block. -/
def State.initial : State :=
  ⟨0x6a09e667, 0xbb67ae85, 0x3c6ef372, 0xa54ff53a, 0x510e527f, 0x9b05688c, 0x1f83d9ab, 0x5be0cd19⟩

/-- The constants of the 64 rounds. -/
def roundConstants : List UInt32 :=
  [0x428a2f98, 0x71374491, 0xb5c0fbcf, 0xe9b5dba5, 0x3956c25b, 0x59f111f1, 0x923f82a4, 0xab1c5ed5,
   0xd807aa98, 0x12835b01, 0x243185be, 0x550c7dc3, 0x72be5d74, 0x80deb1fe, 0x9bdc06a7, 0xc19bf174,
   0xe49b69c1, 0xefbe4786, 0x0fc19dc6, 0x240ca1cc, 0x2de92c6f, 0x4a7484aa, 0x5cb0a9dc, 0x76f988da,
   0x983e5152, 0xa831c66d, 0xb00327c8, 0xbf597fc7, 0xc6e00bf3, 0xd5a79147, 0x06ca6351, 0x14292967,
   0x27b70a85, 0x2e1b2138, 0x4d2c6dfc, 0x53380d13, 0x650a7354, 0x766a0abb, 0x81c2c92e, 0x92722c85,
   0xa2bfe8a1, 0xa81a664b, 0xc24b8b70, 0xc76c51a3, 0xd192e819, 0xd6990624, 0xf40e3585, 0x106aa070,
   0x19a4c116, 0x1e376c08, 0x2748774c, 0x34b0bcb5, 0x391c0cb3, 0x4ed8aa4a, 0x5b9cca4f, 0x682e6ff3,
   0x748f82ee, 0x78a5636f, 0x84c87814, 0x8cc70208, 0x90befffa, 0xa4506ceb, 0xbef9a3f7, 0xc67178f2]

/-- The word turned right by `n` bits. -/
def rotateRight (x : UInt32) (n : UInt32) : UInt32 := (x >>> n) ||| (x <<< (32 - n))

/-- The bytes of a number below `2 ^ 64`, highest first. -/
def lengthBytes (n : Nat) : List UInt8 :=
  [56, 48, 40, 32, 24, 16, 8, 0].map fun shift => UInt8.ofNat ((n >>> shift) % 256)

/-- The message with a one bit, zeros and its length in bits behind it, a multiple of 64 bytes. -/
def pad (message : List UInt8) : List UInt8 :=
  let zeros := (119 - message.length % 64) % 64
  message ++ 0x80 :: (List.replicate zeros 0 ++ lengthBytes (8 * message.length))

/-- The words of a byte sequence, four bytes each, highest byte first. -/
def wordsOf : List UInt8 → List UInt32
  | p :: q :: r :: s :: rest =>
    ((p.toUInt32 <<< 24) ||| (q.toUInt32 <<< 16) ||| (r.toUInt32 <<< 8) ||| s.toUInt32) ::
      wordsOf rest
  | _ => []

/-- The next word of a block's schedule, from the sixteen before it, latest first. -/
def scheduleWord (latest : List UInt32) : UInt32 :=
  let at' (i : Nat) : UInt32 := latest.getD (i - 1) 0
  let x := at' 15
  let y := at' 2
  let s0 := rotateRight x 7 ^^^ rotateRight x 18 ^^^ (x >>> 3)
  let s1 := rotateRight y 17 ^^^ rotateRight y 19 ^^^ (y >>> 10)
  at' 16 + s0 + at' 7 + s1

/-- `n` further words in front of a schedule that is listed latest first. -/
def extendSchedule : (n : Nat) → (latest : List UInt32) → List UInt32
  | 0, latest => latest
  | n + 1, latest => extendSchedule n (scheduleWord latest :: latest)

/-- The 64 words that a block feeds into the rounds. -/
def schedule (block : List UInt8) : List UInt32 :=
  (extendSchedule 48 (wordsOf block).reverse).reverse

/-- One round with its constant and its word. -/
def round (s : State) (k w : UInt32) : State :=
  let s1 := rotateRight s.e 6 ^^^ rotateRight s.e 11 ^^^ rotateRight s.e 25
  let choice := (s.e &&& s.f) ^^^ ((~~~ s.e) &&& s.g)
  let t1 := s.h + s1 + choice + k + w
  let s0 := rotateRight s.a 2 ^^^ rotateRight s.a 13 ^^^ rotateRight s.a 22
  let majority := (s.a &&& s.b) ^^^ (s.a &&& s.c) ^^^ (s.b &&& s.c)
  ⟨t1 + (s0 + majority), s.a, s.b, s.c, s.d + t1, s.e, s.f, s.g⟩

/-- The state after one block. -/
def compress (s : State) (block : List UInt8) : State :=
  let t := (roundConstants.zip (schedule block)).foldl (fun t kw => round t kw.1 kw.2) s
  ⟨s.a + t.a, s.b + t.b, s.c + t.c, s.d + t.d, s.e + t.e, s.f + t.f, s.g + t.g, s.h + t.h⟩

/-- The state after the first `n` blocks of a padded message. -/
def compressBlocks : (n : Nat) → State → List UInt8 → State
  | 0, s, _ => s
  | n + 1, s, bytes => compressBlocks n (compress s (bytes.take 64)) (bytes.drop 64)

/-- **The hash of a message**, as eight words. -/
def hash (message : List UInt8) : State :=
  let padded := pad message
  compressBlocks (padded.length / 64) .initial padded

/-- A hexadecimal digit in lower case. -/
def hexDigit (n : Nat) : Char :=
  if n < 10 then Char.ofNat (0x30 + n) else Char.ofNat (0x61 + (n - 10))

/-- The eight hexadecimal digits of a word. -/
def hexWord (w : UInt32) : List Char :=
  [28, 24, 20, 16, 12, 8, 4, 0].map fun shift => hexDigit ((w.toNat >>> shift) % 16)

/-- The words of a state, first to last. -/
def State.words (s : State) : List UInt32 := [s.a, s.b, s.c, s.d, s.e, s.f, s.g, s.h]

/-- **The hash of a message** in 64 hexadecimal digits. -/
def hexHash (message : List UInt8) : String :=
  String.ofList ((hash message).words.flatMap hexWord)

end CsdlAudit.Sha256

namespace CsdlAudit

/-- **The fingerprint of a byte sequence.** -/
structure Fingerprint where
  /-- Its 64 hexadecimal digits. -/
  digits : String
deriving DecidableEq, Repr

namespace Fingerprint

/-- The fingerprint of bytes. -/
def ofBytes (bytes : List UInt8) : Fingerprint := ⟨Sha256.hexHash bytes⟩

/-- The fingerprint of a text's UTF-8 bytes. -/
def ofText (s : String) : Fingerprint := ofBytes s.toUTF8.toList

/-- The fingerprint of a JSON value's one-line form. -/
def ofJson (v : Json) : Fingerprint := ofText v.compact

/-- How many digits a report shows. -/
def shortLength : Nat := 12

/-- The digits that a report shows. -/
def short (f : Fingerprint) : String := String.ofList (f.digits.toList.take shortLength)

end Fingerprint

end CsdlAudit
