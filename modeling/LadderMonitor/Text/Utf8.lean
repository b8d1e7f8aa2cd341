namespace LadderMonitor.Utf8

/-- Why bytes write no text. -/
inductive Flaw where
  /-- A byte stands where a character begins, and begins none. -/
  | startByte
  /-- A character has begun, and a byte does not continue it. -/
  | continuationByte
  /-- The bytes end inside a character. -/
  | ending
deriving DecidableEq, Repr

namespace Flaw

def message : Flaw → String
  | startByte => "invalid start byte"
  | continuationByte => "invalid continuation byte"
  | ending => "unexpected end of data"

end Flaw

/-- A character that has begun: the bytes still missing, the number so far, and the range of the
next byte. This range excludes longer forms than necessary, surrogates, and numbers beyond the last
character. -/
structure Begun where
  missing : Nat
  value : Nat
  low : Nat := 0x80
  high : Nat := 0xBF
deriving DecidableEq, Repr

/-- The character that a byte begins, if it begins one of several bytes. -/
def begin? (b : Nat) : Option Begun :=
  if 0xC2 ≤ b && b ≤ 0xDF then some ⟨1, b - 0xC0, 0x80, 0xBF⟩
  else if b = 0xE0 then some ⟨2, 0, 0xA0, 0xBF⟩
  else if b = 0xED then some ⟨2, 0xD, 0x80, 0x9F⟩
  else if 0xE1 ≤ b && b ≤ 0xEF then some ⟨2, b - 0xE0, 0x80, 0xBF⟩
  else if b = 0xF0 then some ⟨3, 0, 0x90, 0xBF⟩
  else if 0xF1 ≤ b && b ≤ 0xF3 then some ⟨3, b - 0xF0, 0x80, 0xBF⟩
  else if b = 0xF4 then some ⟨3, 4, 0x80, 0x8F⟩
  else none

/-- Decodes bytes that go on with what has begun. -/
def decodeFrom : Option Begun → List UInt8 → Except Flaw (List Char)
  | none, [] => .ok []
  | some _, [] => .error .ending
  | none, b :: rest =>
    let n := b.toNat
    if n < 0x80 then (Char.ofNat n :: ·) <$> decodeFrom none rest
    else match begin? n with
      | some begun => decodeFrom (some begun) rest
      | none => .error .startByte
  | some begun, b :: rest =>
    let n := b.toNat
    if n < begun.low || begun.high < n then .error .continuationByte
    else
      let value := 64 * begun.value + (n - 0x80)
      if begun.missing ≤ 1 then (Char.ofNat value :: ·) <$> decodeFrom none rest
      else decodeFrom (some ⟨begun.missing - 1, value, 0x80, 0xBF⟩) rest

/-- The characters that bytes write. -/
def decode (bytes : List UInt8) : Except Flaw (List Char) := decodeFrom none bytes

end LadderMonitor.Utf8
