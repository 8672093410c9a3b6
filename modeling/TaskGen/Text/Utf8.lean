namespace TaskGen
namespace Text

/-- A character of which some bytes have been read: how many are still to come, the
range the next one has to lie in, and the bits collected so far. -/
structure Partial where
  owed : Nat
  low : UInt8
  high : UInt8
  bits : Nat

/-- What a byte in front position means. -/
inductive Lead where
  | whole (c : Char)
  | opens (p : Partial)
  | stray

/-- The ranges exclude overlong forms, surrogates and values above `U+10FFFF` at the
second byte already, so a sequence is given up at the first byte that rules it out. -/
def lead (b : UInt8) : Lead :=
  let n := b.toNat
  if n < 0x80 then .whole (Char.ofNat n)
  else if n < 0xC2 then .stray
  else if n < 0xE0 then .opens ⟨1, 0x80, 0xBF, n - 0xC0⟩
  else if n = 0xE0 then .opens ⟨2, 0xA0, 0xBF, 0⟩
  else if n = 0xED then .opens ⟨2, 0x80, 0x9F, 0xD⟩
  else if n < 0xF0 then .opens ⟨2, 0x80, 0xBF, n - 0xE0⟩
  else if n = 0xF0 then .opens ⟨3, 0x90, 0xBF, 0⟩
  else if n < 0xF4 then .opens ⟨3, 0x80, 0xBF, n - 0xF0⟩
  else if n = 0xF4 then .opens ⟨3, 0x80, 0x8F, 4⟩
  else .stray

/-- Stands for a sequence of bytes that no character has. -/
def replacement : Char := '\uFFFD'

def decodeFrom : Option Partial → List UInt8 → List Char
  | none, [] => []
  | some _, [] => [replacement]
  | state, b :: rest =>
    let fresh : List Char × Option Partial :=
      match lead b with
      | .whole c => ([c], none)
      | .opens p => ([], some p)
      | .stray => ([replacement], none)
    match state with
    | none => fresh.1 ++ decodeFrom fresh.2 rest
    | some p =>
      if p.low ≤ b && b ≤ p.high then
        let bits := p.bits * 64 + (b.toNat - 0x80)
        if p.owed ≤ 1 then Char.ofNat bits :: decodeFrom none rest
        else decodeFrom (some ⟨p.owed - 1, 0x80, 0xBF, bits⟩) rest
      else replacement :: fresh.1 ++ decodeFrom fresh.2 rest

/-- Read bytes as UTF-8 whatever they are: each longest part that could begin a
character and is not finished is read as one replacement character. -/
def decodeLossy (bytes : ByteArray) : String :=
  String.ofList (decodeFrom none bytes.toList)

end Text
end TaskGen
