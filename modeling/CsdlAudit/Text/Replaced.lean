/-!
# Text of bytes that may be no text

`decodeReplacing` reads bytes as UTF-8. Bytes that are no part of a character are read as one
replacement character for each longest sequence that a character could start with.
-/

namespace CsdlAudit.Text

/-- What a first byte of several promises: how many bytes follow, the bits it gives, and the range
of the byte that follows it. -/
structure LeadByte where
  /-- How many bytes follow. -/
  count : Nat
  /-- The highest bits of the character. -/
  bits : Nat
  /-- The least second byte. -/
  low : Nat
  /-- The greatest second byte. -/
  high : Nat

/-- What a first byte promises, unless it starts no character of several bytes. -/
def leadByte? (b : Nat) : Option LeadByte :=
  if 0xC2 ≤ b ∧ b ≤ 0xDF then some ⟨1, b - 0xC0, 0x80, 0xBF⟩
  else if b = 0xE0 then some ⟨2, 0, 0xA0, 0xBF⟩
  else if b = 0xED then some ⟨2, 0xD, 0x80, 0x9F⟩
  else if 0xE1 ≤ b ∧ b ≤ 0xEF then some ⟨2, b - 0xE0, 0x80, 0xBF⟩
  else if b = 0xF0 then some ⟨3, 0, 0x90, 0xBF⟩
  else if 0xF1 ≤ b ∧ b ≤ 0xF3 then some ⟨3, b - 0xF0, 0x80, 0xBF⟩
  else if b = 0xF4 then some ⟨3, 4, 0x80, 0x8F⟩
  else none

/-- The character that stands for bytes that are no text. -/
def replacement : Char := '\uFFFD'

/-- Reads bytes. `pending` is the number of bytes that the character begun still needs, `bits` what
it has, and `low` and `high` bound its next byte. -/
def decodeFrom (pending bits low high : Nat) : List UInt8 → List Char
  | [] => if pending = 0 then [] else [replacement]
  | b :: bs =>
    let b := b.toNat
    if 0 < pending ∧ low ≤ b ∧ b ≤ high then
      let bits := bits * 64 + (b - 0x80)
      if pending = 1 then Char.ofNat bits :: decodeFrom 0 0 0 0 bs
      else decodeFrom (pending - 1) bits 0x80 0xBF bs
    else
      let broken := if pending = 0 then [] else [replacement]
      broken ++
        (if b < 0x80 then Char.ofNat b :: decodeFrom 0 0 0 0 bs
        else
          match leadByte? b with
          | some lead => decodeFrom lead.count lead.bits lead.low lead.high bs
          | none => replacement :: decodeFrom 0 0 0 0 bs)

/-- **The text of bytes**, with a replacement character for what is no text. -/
def decodeReplacing (bs : List UInt8) : String := String.ofList (decodeFrom 0 0 0 0 bs)

end CsdlAudit.Text
