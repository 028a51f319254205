import AsmLens.Bound
import AsmLens.Text.Basic

/-!
# Numbers as text

Digits in a base up to thirty-six, the decimal form of a number, and the reading of a 32-bit
field. A field is an optional plus sign and at least one ASCII digit, and its value is below
two to the thirty-second.
-/

namespace AsmLens.Text

/-- The value of an ASCII digit or letter, as in bases above ten. -/
def digitValue? (c : Char) : Option Nat :=
  if '0' ≤ c ∧ c ≤ '9' then some (c.toNat - 48)
  else if 'a' ≤ c ∧ c ≤ 'z' then some (c.toNat - 87)
  else if 'A' ≤ c ∧ c ≤ 'Z' then some (c.toNat - 55)
  else none

def pushDigit (base : Nat) (n : Nat) (c : Char) : Option Nat :=
  match digitValue? c with
  | some d => if d < base then some (n * base + d) else none
  | none => none

/-- The value of a non-empty sequence of digits of the base. -/
def readDigits? (base : Nat) (t : Text) : Option Nat :=
  if t.isEmpty then none else t.foldlM (pushDigit base) 0

/-- A 32-bit number with an optional plus sign in front. -/
def readWord? (t : Text) : Option Nat :=
  let digits := match t with
    | '+' :: rest => rest
    | _ => t
  match readDigits? 10 digits with
  | some n => if n < Bound.word then some n else none
  | none => none

/-- The decimal digits of a number, without leading zeros. -/
def ofNat (n : Nat) : Text := Nat.toDigits 10 n

/-- The decimal digits of an integer, with a minus sign when it is negative. -/
def ofInt : Int → Text
  | .ofNat n => ofNat n
  | .negSucc n => '-' :: ofNat (n + 1)

/-- The digits of a number in base sixteen, letters in upper case. -/
def ofNatHex (n : Nat) : Text := upper (Nat.toDigits 16 n)

def ofNatBinary (n : Nat) : Text := Nat.toDigits 2 n

end AsmLens.Text
