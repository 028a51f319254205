import AsmLens.Uri.Percent

/-!
# Hosts

The host of a URI is a domain name, an address of four bytes, or an address of eight pairs of
bytes in brackets. Each has one written form: domains in lower case with every label in ASCII,
addresses in decimal or in hexadecimal with the longest run of zero groups left out.
-/

namespace AsmLens.Host

/-- Characters that no host may hold. -/
def forbidden (c : Char) : Bool :=
  [Char.ofNat 0, '\t', '\n', '\r', ' ', '#', '/', ':', '<', '>', '?', '@', '[', '\\', ']', '^',
    '|'].contains c

/-- Characters that no domain may hold. -/
def forbiddenInDomain (c : Char) : Bool :=
  forbidden c || c.toNat < 0x20 || c == '%' || c.toNat = 0x7F

/-! ## Labels outside ASCII -/

/-- The digit of a value below thirty-six: letters first, then figures. -/
def labelDigit (d : Nat) : Char := Char.ofNat (if d < 26 then 97 + d else 22 + d)

def threshold (k bias : Nat) : Nat :=
  if k ≤ bias then 1 else if bias + 26 ≤ k then 26 else k - bias

/-- A number in digits of growing weight, least first. Every digit at least halves the number,
so its bit length is fuel enough. -/
def labelNumber (bias : Nat) : Nat → Nat → Nat → Text
  | 0, _, _ => []
  | fuel + 1, k, q =>
    let t := threshold k bias
    if q < t then [labelDigit q]
    else labelDigit (t + (q - t) % (36 - t)) ::
      labelNumber bias fuel (k + 36) ((q - t) / (36 - t))

/-- Division by thirty-five until the number is at most 455, with thirty-six for each. -/
def rebase : Nat → Nat → Nat → Nat × Nat
  | 0, delta, k => (delta, k)
  | fuel + 1, delta, k => if 455 < delta then rebase fuel (delta / 35) (k + 36) else (delta, k)

def adapt (delta points : Nat) (isFirst : Bool) : Nat :=
  let d := if isFirst then delta / 700 else delta / 2
  let (r, k) := rebase (d + 1) (d + d / points) 0
  k + 36 * r / (r + 38)

/-- The state of a label that is being written: the digits so far, the distance since the last
one, the bias, and the number of characters done. -/
structure LabelState where
  out : Text
  delta : Nat
  bias : Nat
  done : Nat

/-- One character of the label, while the characters with code point `m` are written. -/
def LabelState.step (basic m : Nat) (s : LabelState) (c : Char) : LabelState :=
  if c.toNat < m then { s with delta := s.delta + 1 }
  else if c.toNat = m then
    { out := s.out ++ labelNumber s.bias (s.delta + 1) 36 s.delta, delta := 0,
      bias := adapt s.delta (s.done + 1) (s.done == basic), done := s.done + 1 }
  else s

/-- The digits for the characters outside ASCII, by increasing code point. -/
def labelTail (label : Text) (basic : Nat) : List Nat → Nat → LabelState → Text
  | [], _, s => s.out
  | m :: rest, n, s =>
    let s := { s with delta := s.delta + (m - n) * (s.done + 1) }
    let s := label.foldl (LabelState.step basic m) s
    labelTail label basic rest (m + 1) { s with delta := s.delta + 1 }

def asciiLabel (label : Text) : Text :=
  let basic := label.filter (fun c => c.toNat < 0x80)
  if basic.length = label.length then label
  else
    let points := ((label.filter (fun c => 0x80 ≤ c.toNat)).map Char.toNat).mergeSort.eraseDups
    "xn--".toList ++ (if basic.isEmpty then [] else basic ++ ['-']) ++
      labelTail label basic.length points 128 ⟨[], 0, 72, basic.length⟩

/-! ## Addresses -/

/-- One number of an address of four bytes: decimal, octal after 0, hexadecimal after 0x. -/
def addressPart? : Text → Option Nat
  | '0' :: x :: rest =>
    if x = 'x' ∨ x = 'X' then (if rest.isEmpty then some 0 else Text.readDigits? 16 rest)
    else Text.readDigits? 8 (x :: rest)
  | t => Text.readDigits? 10 t

def addressParts (t : Text) : List Text :=
  let parts := Text.split '.' t
  if parts.length > 1 ∧ parts.getLast? = some [] then parts.dropLast else parts

/-- A host whose last part is a number is an address. -/
def isNumeric (t : Text) : Bool :=
  match (addressParts t).getLast? with
  | some last => !last.isEmpty && (last.all Char.isDigit ||
      (match last with
        | '0' :: x :: rest => (x == 'x' || x == 'X') && rest.all (fun c => c.isDigit ||
            ('a' ≤ c && c ≤ 'f') || ('A' ≤ c && c ≤ 'F'))
        | _ => false))
  | none => false

/-- The value of an address: all numbers but the last are bytes, and the last fills the rest. -/
def addressValue? (parts : List Nat) : Option Nat :=
  if parts.length > 4 then none
  else
    match parts.getLast? with
    | some last =>
      let leading := parts.dropLast
      if leading.all (· < 256) && last < Nat.pow 256 (4 - leading.length) then
        some (leading.zipIdx.foldl (fun n (p, i) => n + p * Nat.pow 256 (3 - i)) last)
      else none
    | none => none

def address? (t : Text) : Option Text := do
  let parts ← (addressParts t).mapM addressPart?
  let n ← addressValue? parts
  return Text.join ['.'] ([3, 2, 1, 0].map fun i => Text.ofNat (n / Nat.pow 256 i % 256))

def group? (t : Text) : Option Nat := if t.length ≤ 4 then Text.readDigits? 16 t else none

/-- The last part of an address in brackets may be four decimal bytes. -/
def embedded? (t : Text) : Option (List Nat) := do
  let parts := Text.split '.' t
  if parts.length ≠ 4 then none
  else
    let bytes ← parts.mapM fun p =>
      if p.length > 1 ∧ p.head? = some '0' then none else Text.readDigits? 10 p
    match bytes with
    | [a, b, c, d] => if bytes.all (· < 256) then some [a * 256 + b, c * 256 + d] else none
    | _ => none

/-- The groups of one side of an address in brackets. -/
def groups? (t : Text) : Option (List Nat) :=
  if t.isEmpty then some []
  else
    let parts := Text.split ':' t
    match parts.getLast? with
    | some last =>
      if last.any (· == '.') then do
        return (← parts.dropLast.mapM group?) ++ (← embedded? last)
      else parts.mapM group?
    | none => none

/-- The text cut at the first pair of colons. -/
def cutColons? : Text → Option (Text × Text)
  | ':' :: ':' :: rest => some ([], rest)
  | c :: rest => (cutColons? rest).map fun (a, b) => (c :: a, b)
  | [] => none

/-- The eight groups of an address in brackets. -/
def wideAddress? (t : Text) : Option (List Nat) :=
  match cutColons? t with
  | some (a, b) => do
    let left ← if a.any (· == '.') then none else groups? a
    let right ← groups? b
    let known := left.length + right.length
    if known ≤ 7 then some (left ++ List.replicate (8 - known) 0 ++ right) else none
  | none => do
    let all ← groups? t
    if all.length = 8 then some all else none

/-- The longest run of zero groups from which at least two are left out: start and length. -/
def zeroRun (groups : List Nat) : Nat × Nat :=
  (List.range 8).foldl (fun (start, len) i =>
    let run := ((groups.drop i).takeWhile (· == 0)).length
    if len < run then (i, run) else (start, len)) (0, 1)

def writeWide (groups : List Nat) : Text :=
  let hex (g : Nat) := Text.lower (Text.ofNatHex g)
  let side (gs : List Nat) := Text.join [':'] (gs.map hex)
  let (start, len) := zeroRun groups
  if len < 2 then ['['] ++ side groups ++ [']']
  else ['['] ++ side (groups.take start) ++ "::".toList ++ side (groups.drop (start + len)) ++ [']']

def bracketed? : Text → Option Text
  | '[' :: rest =>
    match Text.before? [']'] rest with
    | some inner => (wideAddress? inner).map writeWide
    | none => none
  | _ => none

/-- The host of a scheme that requires one. -/
def domain? (t : Text) : Option Text :=
  if t.head? = some '[' then bracketed? t
  else
    let name := Text.lower (Text.ofBytes (Percent.decode t))
    let ascii := Text.join ['.'] ((Text.split '.' name).map asciiLabel)
    if ascii.isEmpty || ascii.any forbiddenInDomain then none
    else if isNumeric ascii then address? ascii
    else some ascii

/-- The host of any other scheme, where case is kept. -/
def plain? (t : Text) : Option Text :=
  if t.head? = some '[' then bracketed? t
  else if t.any forbidden then none
  else some (Percent.encode Percent.control t)

end AsmLens.Host
