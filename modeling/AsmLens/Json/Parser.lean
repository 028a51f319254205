import AsmLens.Bound
import AsmLens.Json.Basic
import AsmLens.Text.Decimal

/-!
# Reading JSON

A reader for one JSON document. White space is the four characters of the grammar, a string may
not hold a control character, an escaped surrogate must come as a pair, and values are nested
less than 128 deep. Integers outside the 64-bit ranges and minus zero read as floats.
-/

namespace AsmLens.Json

def isBlank (c : Char) : Bool := c == ' ' || c == '\n' || c == '\t' || c == '\r'

def skipBlank (t : Text) : Text := t.dropWhile isBlank

/-- The value of four hexadecimal digits at the start of a text, and the rest. -/
def hexQuad? : Text → Option (Nat × Text)
  | a :: b :: c :: d :: rest => (Text.readDigits? 16 [a, b, c, d]).map fun n => (n, rest)
  | _ => none

/-- The character for a code point, which must not be a surrogate. -/
def scalar? (n : Nat) : Option Char := if n.isValidChar then some (Char.ofNat n) else none

/-- The character of an escape behind its backslash and `u`, and the rest. -/
def unicodeEscape? (t : Text) : Option (Char × Text) :=
  match hexQuad? t with
  | none => none
  | some (n, rest) =>
    if n < 0xD800 ∨ 0xDFFF < n then (scalar? n).map fun c => (c, rest)
    else if 0xDBFF < n then none
    else match rest with
      | '\\' :: 'u' :: low =>
        match hexQuad? low with
        | some (m, rest) =>
          if 0xDC00 ≤ m ∧ m ≤ 0xDFFF then
            (scalar? (0x10000 + (n - 0xD800) * 0x400 + (m - 0xDC00))).map fun c => (c, rest)
          else none
        | none => none
      | _ => none

def simpleEscape? : Char → Option Char
  | '"' => some '"'
  | '\\' => some '\\'
  | '/' => some '/'
  | 'b' => some '\x08'
  | 'f' => some '\x0c'
  | 'n' => some '\n'
  | 'r' => some '\r'
  | 't' => some '\t'
  | _ => none

/-- The string whose opening quote has been read, and the text behind its closing quote. -/
def stringBody? : Nat → Text → Option (Text × Text)
  | 0, _ => none
  | _, [] => none
  | fuel + 1, c :: cs =>
    if c = '"' then some ([], cs)
    else if c = '\\' then
      match cs with
      | 'u' :: rest =>
        match unicodeEscape? rest with
        | some (d, rest) => (stringBody? fuel rest).map fun (s, r) => (d :: s, r)
        | none => none
      | e :: rest =>
        match simpleEscape? e with
        | some d => (stringBody? fuel rest).map fun (s, r) => (d :: s, r)
        | none => none
      | [] => none
    else if c.toNat < 0x20 then none
    else (stringBody? fuel cs).map fun (s, r) => (c :: s, r)

/-- Whether a text is a run of digits without a needless zero in front. -/
def isIntegerPart (digits : Text) : Bool :=
  match digits with
  | [] => false
  | '0' :: _ :: _ => false
  | _ => true

/-- The fraction at the start of a text, if there is one, and the rest. -/
def fraction? (t : Text) : Option (Text × Text) :=
  match t with
  | '.' :: rest =>
    let (digits, rest) := rest.span Char.isDigit
    if digits.isEmpty then none else some ('.' :: digits, rest)
  | _ => some ([], t)

/-- The exponent at the start of a text, if there is one, and the rest. -/
def exponent? (t : Text) : Option (Text × Text) :=
  match t with
  | c :: rest =>
    if c = 'e' ∨ c = 'E' then
      let (sign, rest) := match rest with
        | '+' :: r => (['+'], r)
        | '-' :: r => (['-'], r)
        | r => ([], r)
      let (digits, rest) := rest.span Char.isDigit
      if digits.isEmpty then none else some (c :: sign ++ digits, rest)
    else some ([], t)
  | [] => some ([], [])

/-- The value of a number literal: sign, integer digits, and fraction with exponent. -/
def ofLiteral (negative : Bool) (digits tail : Text) : Json :=
  let literal := (if negative then ['-'] else []) ++ digits ++ tail
  match Text.readDigits? 10 digits with
  | none => .float literal
  | some n =>
    if !tail.isEmpty then .float literal
    else if negative then
      if n = 0 ∨ Bound.signedLong < n then .float literal else .int (-n)
    else if n < Bound.long then .int n else .float literal

def number? (t : Text) : Option (Json × Text) :=
  let (negative, body) := match t with
    | '-' :: r => (true, r)
    | r => (false, r)
  let (digits, rest) := body.span Char.isDigit
  if !isIntegerPart digits then none
  else
    match fraction? rest with
    | none => none
    | some (frac, rest) =>
      match exponent? rest with
      | none => none
      | some (exp, rest) => some (ofLiteral negative digits (frac ++ exp), rest)

mutual

/-- The value at the start of a text that has no leading white space, and the rest. -/
def value? : Nat → Nat → Text → Option (Json × Text)
  | 0, _, _ => none
  | fuel + 1, depth, t =>
    match t with
    | '"' :: rest => (stringBody? (rest.length + 1) rest).map fun (s, r) => (.str s, r)
    | '[' :: rest =>
      if depth = 0 then none
      else match skipBlank rest with
        | ']' :: rest => some (.arr [], rest)
        | rest => (items? fuel (depth - 1) rest).map fun (xs, r) => (.arr xs, r)
    | '\x7b' :: rest =>
      if depth = 0 then none
      else match skipBlank rest with
        | '\x7d' :: rest => some (.obj [], rest)
        | rest => (members? fuel (depth - 1) rest).map fun (ms, r) => (.obj ms, r)
    | _ =>
      match Text.after? "null".toList t, Text.after? "true".toList t,
          Text.after? "false".toList t with
      | some rest, _, _ => some (.null, rest)
      | _, some rest, _ => some (.bool true, rest)
      | _, _, some rest => some (.bool false, rest)
      | _, _, _ => number? t

/-- The items of an array up to its closing bracket, of which there is at least one. -/
def items? : Nat → Nat → Text → Option (List Json × Text)
  | 0, _, _ => none
  | fuel + 1, depth, t =>
    match value? fuel depth (skipBlank t) with
    | none => none
    | some (x, rest) =>
      match skipBlank rest with
      | ',' :: rest => (items? fuel depth rest).map fun (xs, r) => (x :: xs, r)
      | ']' :: rest => some ([x], rest)
      | _ => none

/-- The members of an object up to its closing brace, of which there is at least one. -/
def members? : Nat → Nat → Text → Option (List (Text × Json) × Text)
  | 0, _, _ => none
  | fuel + 1, depth, t =>
    match skipBlank t with
    | '"' :: rest =>
      match stringBody? (rest.length + 1) rest with
      | none => none
      | some (key, rest) =>
        match skipBlank rest with
        | ':' :: rest =>
          match value? fuel depth (skipBlank rest) with
          | none => none
          | some (x, rest) =>
            match skipBlank rest with
            | ',' :: rest => (members? fuel depth rest).map fun (ms, r) => ((key, x) :: ms, r)
            | '\x7d' :: rest => some ([(key, x)], rest)
            | _ => none
        | _ => none
    | _ => none

end

def maxDepth : Nat := 127

def parse? (t : Text) : Option Json :=
  match value? (2 * t.length + 2) maxDepth (skipBlank t) with
  | some (j, rest) => if (skipBlank rest).isEmpty then some j else none
  | none => none

end AsmLens.Json
