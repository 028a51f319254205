import AsmLens.Text.Basic

/-!
# UTF-8

The bytes of a text, and the text of any bytes. Bytes that are not UTF-8 read as replacement
characters, one for each longest part that could have begun a character.
-/

namespace AsmLens.Text

def toBytes (t : Text) : List UInt8 := t.flatMap String.utf8EncodeChar

def replacement : Char := '\ufffd'

/-- Where a decoder stands inside a character: the value so far, the continuation bytes still
due, and the least and greatest value of the next byte. -/
structure Partial where
  value : Nat
  due : Nat
  least : Nat
  greatest : Nat

/-- The start of a character of more than one byte. -/
def lead? (b : Nat) : Option Partial :=
  if 0xC2 ≤ b ∧ b ≤ 0xDF then some ⟨b - 0xC0, 1, 0x80, 0xBF⟩
  else if b = 0xE0 then some ⟨0, 2, 0xA0, 0xBF⟩
  else if b = 0xED then some ⟨0xD, 2, 0x80, 0x9F⟩
  else if 0xE1 ≤ b ∧ b ≤ 0xEF then some ⟨b - 0xE0, 2, 0x80, 0xBF⟩
  else if b = 0xF0 then some ⟨0, 3, 0x90, 0xBF⟩
  else if 0xF1 ≤ b ∧ b ≤ 0xF3 then some ⟨b - 0xF0, 3, 0x80, 0xBF⟩
  else if b = 0xF4 then some ⟨4, 3, 0x80, 0x8F⟩
  else none

/-- What a byte at the start of a character gives: characters, and a character begun. -/
def first (b : Nat) : Text × Option Partial :=
  if b < 0x80 then ([Char.ofNat b], none)
  else match lead? b with
    | some p => ([], some p)
    | none => ([replacement], none)

/-- The text of bytes, read inside a character that has begun, if there is one. -/
def ofBytesFrom : Option Partial → List UInt8 → Text
  | none, [] => []
  | some _, [] => [replacement]
  | none, b :: bs =>
    let (out, next) := first b.toNat
    out ++ ofBytesFrom next bs
  | some p, b :: bs =>
    let n := b.toNat
    if p.least ≤ n ∧ n ≤ p.greatest then
      let value := p.value * 64 + (n - 0x80)
      if p.due = 1 then Char.ofNat value :: ofBytesFrom none bs
      else ofBytesFrom (some ⟨value, p.due - 1, 0x80, 0xBF⟩) bs
    else
      let (out, next) := first n
      replacement :: out ++ ofBytesFrom next bs

def ofBytes (bytes : List UInt8) : Text := ofBytesFrom none bytes

end AsmLens.Text
