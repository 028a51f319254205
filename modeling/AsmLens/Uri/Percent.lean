import AsmLens.Text.Decimal
import AsmLens.Text.Utf8

/-!
# Percent encoding

A character that may not stand in a part of a URI is written as its UTF-8 bytes, each as a
percent sign and two upper-case hexadecimal digits. Every part of a URI has its own set of
such characters; all the sets hold the controls and everything outside ASCII.
-/

namespace AsmLens.Percent

/-- Controls and characters outside ASCII. -/
def control (c : Char) : Bool := c.toNat < 0x20 || 0x7F ≤ c.toNat

def fragment (c : Char) : Bool := control c || [' ', '"', '<', '>', '\x60'].contains c

def query (c : Char) : Bool := control c || [' ', '"', '#', '<', '>'].contains c

/-- What is encoded in the query of a scheme that names a host. -/
def hostedQuery (c : Char) : Bool := query c || c == '\x27'

def path (c : Char) : Bool := fragment c || ['#', '?', '\x7b', '\x7d'].contains c

def user (c : Char) : Bool :=
  path c || ['/', ':', ';', '=', '@', '[', '\\', ']', '^', '|'].contains c

/-- What is encoded in one segment of a path on disk. -/
def fileSegment (c : Char) : Bool := path c || ['/', '%', '\\'].contains c

def byteCode (b : UInt8) : Text :=
  let digits := Text.ofNatHex b.toNat
  '%' :: (if digits.length = 1 then '0' :: digits else digits)

def encode (set : Char → Bool) (t : Text) : Text :=
  t.flatMap fun c => if set c then (Text.toBytes [c]).flatMap byteCode else [c]

/-- The bytes of a text. A percent sign without two digits behind it stands for itself. -/
def decode : Text → List UInt8
  | [] => []
  | '%' :: a :: b :: rest =>
    match Text.readDigits? 16 [a, b] with
    | some n => UInt8.ofNat n :: decode rest
    | none => Text.toBytes ['%'] ++ decode (a :: b :: rest)
  | c :: rest => Text.toBytes [c] ++ decode rest

end AsmLens.Percent
