import AsmLens.Bound
import AsmLens.Text.Decimal

/-!
# Numeric literals

A literal is a run of digits: hexadecimal behind `$`, binary behind `%`, octal behind a zero, and
decimal otherwise. In front of it may stand `#`, which marks an immediate operand, and `<` or `>`,
which select the low or the high byte. Values are below two to the sixty-third.
-/

namespace AsmLens.Numeral

/-- Literals from this value on are not numbers. -/
def bound : Nat := Bound.signedLong

/-- The part of a value that a literal selects. -/
inductive Part where
  | whole
  | low
  | high
  deriving DecidableEq

def Part.of : Part → Nat → Nat
  | .whole, n => n
  | .low, n => n % 256
  | .high, n => n / 256

def digits (t : Text) : Nat × Text :=
  match t with
  | '$' :: rest => (16, rest)
  | '%' :: rest => (2, rest)
  | '0' :: c :: rest => (8, c :: rest)
  | _ => (10, t)

/-- The value of a literal without marks in front. -/
def literal? (t : Text) : Option Nat :=
  let (base, ds) := digits t
  match Text.readDigits? base ds with
  | some n => if n < bound then some n else none
  | none => none

/-- The byte selector at the start of a text, and what follows it. -/
def part (t : Text) : Part × Text :=
  match t with
  | '<' :: rest => (.low, Text.trimStart rest)
  | '>' :: rest => (.high, Text.trimStart rest)
  | _ => (.whole, t)

/-- The text behind the mark of an immediate operand. -/
def unmarked (t : Text) : Text :=
  match t with
  | '#' :: rest => Text.trimStart rest
  | _ => t

/-- The value of a numeric literal with its marks. -/
def value? (t : Text) : Option Nat :=
  let (p, rest) := part (unmarked (Text.trim t))
  (literal? rest).map p.of

/-- Values up to this one are shown in binary as well. -/
def binaryLimit : Nat := 0xFFFF

/-- A value in decimal and hexadecimal, and in binary when it fits in two bytes. Negative values
are shown in decimal only. -/
def describe : Int → Text
  | .negSucc n => Text.ofInt (.negSucc n)
  | .ofNat n =>
    Text.ofNat n ++ " | $".toList ++ Text.ofNatHex n ++
      (if n ≤ binaryLimit then " | %".toList ++ Text.ofNatBinary n else [])

end AsmLens.Numeral
