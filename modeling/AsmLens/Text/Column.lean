import AsmLens.Text.Basic

/-!
# Columns in characters, UTF-16 units and UTF-8 bytes

An editor counts columns in UTF-16 units, offsets count UTF-8 bytes, and everything in between
counts characters. The conversions clamp: a column past the end of the line is the end of the
line, and a column inside a surrogate pair is the boundary after it.
-/

namespace AsmLens.Text

/-- The number of UTF-16 units of a character. -/
def units (c : Char) : Nat := if c.toNat < 0x10000 then 1 else 2

/-- The number of UTF-16 units of a text. Columns have 32 bits, so texts of fewer than 2 ^ 32 units
are meant; for these nothing is cut off. -/
def width : Text → Nat
  | [] => 0
  | c :: cs => units c + width cs

def byteLength : Text → Nat
  | [] => 0
  | c :: cs => c.utf8Size + byteLength cs

/-- The character column of a UTF-16 column: the number of characters that start before it. -/
def columnOfUnits : Text → Nat → Nat
  | [], _ => 0
  | c :: cs, u => if u = 0 then 0 else columnOfUnits cs (u - units c) + 1

/-- The UTF-16 column of a character column: the width of the characters before it. -/
def unitsOfColumn (t : Text) (column : Nat) : Nat := width (t.take column)

/-- The text cut at a byte offset, if the offset is a boundary between characters. -/
def cutBytes? : Text → Nat → Option (Text × Text)
  | t, 0 => some ([], t)
  | [], _ + 1 => none
  | c :: cs, n + 1 =>
    if c.utf8Size ≤ n + 1 then (cutBytes? cs (n + 1 - c.utf8Size)).map fun (a, b) => (c :: a, b)
    else none

/-- The characters between two byte offsets, if both are boundaries and in order. -/
def sliceBytes? (t : Text) (start stop : Nat) : Option Text :=
  if start ≤ stop then do
    let (_, rest) ← cutBytes? t start
    let (slice, _) ← cutBytes? rest (stop - start)
    return slice
  else none

end AsmLens.Text
