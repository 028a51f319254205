import AsmLens.Bound
import AsmLens.Json.Basic
import AsmLens.Text.Decimal

/-!
# Numbers, dates and truth values of a settings file

A value that is neither a string nor a collection is one word: an integer of 64 bits in one of
four bases, a float, a truth value, a date, a time, or both of them. Each is read into the JSON
value that stands for it. Floats that are not finite have no JSON form and read as null, and a
date is an object with one member.
-/

namespace AsmLens.Toml

/-- The digits of a run in which single underscores may stand between two digits. -/
def plainDigits? (isDigit : Char → Bool) : Text → Option Text
  | [] => none
  | [c] => if isDigit c then some [c] else none
  | c :: '_' :: rest => if isDigit c then (plainDigits? isDigit rest).map (c :: ·) else none
  | c :: rest => if isDigit c then (plainDigits? isDigit rest).map (c :: ·) else none

/-- A word without the sign in front of it, and whether that is a minus. -/
def splitSign : Text → Bool × Text
  | '+' :: rest => (false, rest)
  | '-' :: rest => (true, rest)
  | t => (false, t)

/-- The digits of a decimal integer: none is zero in front of others. -/
def decimalDigits? (t : Text) : Option Text :=
  match plainDigits? Char.isDigit t with
  | some ('0' :: _ :: _) => none
  | other => other

def decimal? (t : Text) : Option Json := do
  let (negative, body) := splitSign t
  let n ← Text.readDigits? 10 (← decimalDigits? body)
  if negative then (if n ≤ Bound.signedLong then some (.int (-n)) else none)
  else if n < Bound.signedLong then some (.int n)
  else none

/-- An integer in a base that its first two characters name. -/
def based? : Text → Option Json
  | '0' :: mark :: rest => do
    let base ← match mark with
      | 'x' => some 16
      | 'o' => some 8
      | 'b' => some 2
      | _ => none
    let digits ← plainDigits? (fun c => c != '_') rest
    let n ← Text.readDigits? base digits
    if n < Bound.signedLong then some (.int n) else none
  | _ => none

/-- Whether a number of the form `digits * 10 ^ exponent` is too large for a float. The bound
lies half a unit above the greatest float. -/
def overflows (digits : Nat) (exponent : Int) : Bool :=
  let limit := Nat.pow 2 1024 - Nat.pow 2 970
  if digits = 0 then false
  else if exponent < 0 then
    if 5000 < -exponent then (Nat.toDigits 10 digits).length > 310 + (-exponent).toNat
    else limit * Nat.pow 10 (-exponent).toNat ≤ digits
  else 310 < exponent || limit ≤ digits * Nat.pow 10 exponent.toNat

/-- The exponent of a float, zero where there is none. -/
def exponent? : Option Text → Option Int
  | none => some 0
  | some t => do
    let (negative, body) := splitSign t
    let n ← Text.readDigits? 10 (← plainDigits? Char.isDigit body)
    return if negative then -(n : Int) else n

/-- The digits behind the point of a float, none where there is no point. -/
def fraction? : Option Text → Option Text
  | none => some []
  | some t => plainDigits? Char.isDigit t

/-- A text cut at the first character that satisfies `p`, and what follows it. -/
def cutAt (p : Char → Bool) (t : Text) : Text × Option Text :=
  match t.span (fun c => !p c) with
  | (front, _ :: rest) => (front, some rest)
  | (front, []) => (front, none)

/-- A float written in digits. One that is too large is refused, unless it is negative. -/
def digitFloat? (t : Text) : Option Json := do
  let (negative, body) := splitSign t
  let (mantissa, exp) := cutAt (fun c => c == 'e' || c == 'E') body
  let (whole, frac) := cutAt (· == '.') mantissa
  if exp.isNone && frac.isNone then none
  else
    let whole ← decimalDigits? whole
    let frac ← fraction? frac
    let exp ← exponent? exp
    let n ← Text.readDigits? 10 (whole ++ frac)
    if overflows n (exp - frac.length) then (if negative then some .null else none)
    else some (.float ((if negative then ['-'] else []) ++ whole ++
      (if frac.isEmpty then [] else '.' :: frac) ++
      (if exp = 0 then [] else 'e' :: Text.ofInt exp)))

/-- A float that is not a number or not finite. -/
def specialFloat? (t : Text) : Option Json :=
  let (_, body) := splitSign t
  if body == "inf".toList || body == "nan".toList then some .null else none

/-! ## Dates and times -/

/-- A number of exactly `width` digits within bounds. -/
def field? (width least greatest : Nat) (t : Text) : Option Nat :=
  if t.length = width then
    match Text.readDigits? 10 t with
    | some n => if least ≤ n ∧ n ≤ greatest then some n else none
    | none => none
  else none

def isLeap (year : Nat) : Bool := year % 4 == 0 && (year % 100 != 0 || year % 400 == 0)

def daysIn (year month : Nat) : Nat :=
  if month = 2 then (if isLeap year then 29 else 28)
  else if month = 4 ∨ month = 6 ∨ month = 9 ∨ month = 11 then 30
  else 31

def isDate (t : Text) : Bool :=
  match Text.split '-' t with
  | [y, m, d] =>
    match field? 4 0 9999 y, field? 2 1 12 m with
    | some year, some month => (field? 2 1 (daysIn year month) d).isSome
    | _, _ => false
  | _ => false

def isSeconds (t : Text) : Bool :=
  match cutAt (· == '.') t with
  | (whole, none) => (field? 2 0 60 whole).isSome
  | (whole, some frac) => (field? 2 0 60 whole).isSome && !frac.isEmpty && frac.all Char.isDigit

def isTime (t : Text) : Bool :=
  match Text.split ':' t with
  | [h, m, s] => (field? 2 0 23 h).isSome && (field? 2 0 59 m).isSome && isSeconds s
  | _ => false

/-- Whether a word is a time of day with the distance from universal time behind it. -/
def isOffsetTime (t : Text) : Bool :=
  match t.getLast? with
  | some 'Z' | some 'z' => isTime t.dropLast
  | _ =>
    match cutAt (fun c => c == '+' || c == '-') t with
    | (time, some offset) =>
      isTime time && (match Text.split ':' offset with
        | [h, m] => (field? 2 0 23 h).isSome && (field? 2 0 59 m).isSome
        | _ => false)
    | _ => false

/-- A date or time as the object that stands for it. -/
def stamp (t : Text) : Json := Json.record [("$__toml_private_datetime", .str t)]

/-- A date, a time, or a date with a time behind the letter T. -/
def stamp? (t : Text) : Option Json :=
  match cutAt (fun c => c == 'T' || c == 't') t with
  | (date, some time) =>
    if isDate date && (isTime time || isOffsetTime time) then some (stamp t) else none
  | (_, none) => if isDate t || isTime t then some (stamp t) else none

def scalar? (t : Text) : Option Json :=
  if t == "true".toList then some (.bool true)
  else if t == "false".toList then some (.bool false)
  else stamp? t <|> specialFloat? t <|> digitFloat? t <|> based? t <|> decimal? t

def isWordChar (c : Char) : Bool := c.isAlphanum || ['+', '-', '_', '.', ':'].contains c

/-- Whether a time follows a date behind one blank. -/
def startsTime : Text → Bool
  | ' ' :: a :: b :: ':' :: _ => a.isDigit && b.isDigit
  | _ => false

/-- The word at the start of a text and the rest. A time behind a date and a blank belongs to
the word, with the letter T in the place of the blank. -/
def word (t : Text) : Text × Text :=
  let (first, rest) := t.span isWordChar
  if isDate first && startsTime rest then
    let (second, rest) := (rest.drop 1).span isWordChar
    (first ++ 'T' :: second, rest)
  else (first, rest)

end AsmLens.Toml
