import AsmLens.Toml.Quoted
import AsmLens.Toml.Scalar
import AsmLens.Toml.Table

/-!
# Reading a settings file

A settings file is a TOML document. It is read into the JSON object that holds the same settings,
so that a file and a message of the editor are applied in the same way. A document with a fault
anywhere has no value.
-/

namespace AsmLens.Toml

/-- Collections may be nested less than this deep, and keys may have this many names. -/
def depthLimit : Nat := 80

def skipBlanks (t : Text) : Text := t.dropWhile isBlank

/-- The text behind a comment at its start. Without one it is the text itself. -/
def skipComment : Text → Text
  | '#' :: rest => rest.dropWhile isPlain
  | t => t

/-- The text behind the end of a line, with a comment in front of it or without. -/
def lineEnd? (t : Text) : Option Text :=
  match skipComment (skipBlanks t) with
  | [] => some []
  | rest => newline? rest

def isBareChar (c : Char) : Bool := c.isAlphanum || c == '_' || c == '-'

def name? (t : Text) : Option (Text × Text) :=
  match t with
  | '"' :: rest => basic? rest
  | '\x27' :: rest => literal? rest
  | _ =>
    match t.span isBareChar with
    | ([], _) => none
    | found => some found

def names? : Nat → Text → Option (List Text × Text)
  | 0, _ => none
  | fuel + 1, t => do
    let (name, rest) ← name? (skipBlanks t)
    match skipBlanks rest with
    | '.' :: rest => (names? fuel rest).map fun (more, rest) => (name :: more, rest)
    | rest => some ([name], rest)

/-- A key: the names in front of the last one, the last one, and the rest of the text. -/
def key? (t : Text) : Option (List Text × Text × Text) := do
  let (names, rest) ← names? (t.length + 1) t
  match names.getLast? with
  | some last => if names.length ≤ depthLimit then some (names.dropLast, last, rest) else none
  | none => none

def skipLines : Nat → Text → Option Text
  | 0, _ => none
  | fuel + 1, t =>
    match skipBlanks t with
    | '#' :: rest => do
      let rest ← newline? (rest.dropWhile isPlain)
      skipLines fuel rest
    | rest =>
      match newline? rest with
      | some rest => skipLines fuel rest
      | none => some rest

mutual

/-- The value at the start of a text, and the rest. -/
def value? : Nat → Nat → Text → Option (Json × Text)
  | 0, _, _ => none
  | fuel + 1, depth, t =>
    match t with
    | '[' :: rest =>
      if depth + 1 < depthLimit then
        (items? fuel (depth + 1) rest).map fun (xs, rest) => (.arr xs, rest)
      else none
    | '\x7b' :: rest =>
      if depth + 1 < depthLimit then
        match skipBlanks rest with
        | '\x7d' :: rest => some (.obj [], rest)
        | rest => (pairs? fuel (depth + 1) [] rest).map fun (t, rest) => (t.toJson, rest)
      else none
    | '"' :: _ => (string? t).map fun (s, rest) => (.str s, rest)
    | '\x27' :: _ => (string? t).map fun (s, rest) => (.str s, rest)
    | _ =>
      let (w, rest) := word t
      (scalar? w).map fun v => (v, rest)

/-- The items of an array up to its closing bracket. -/
def items? : Nat → Nat → Text → Option (List Json × Text)
  | 0, _, _ => none
  | fuel + 1, depth, t => do
    match ← skipLines (t.length + 1) t with
    | ']' :: rest => some ([], rest)
    | t =>
      let (x, rest) ← value? fuel depth t
      match ← skipLines (rest.length + 1) rest with
      | ',' :: rest => (items? fuel depth rest).map fun (xs, rest) => (x :: xs, rest)
      | ']' :: rest => some ([x], rest)
      | _ => none

/-- The keys and values of a table between braces, up to its closing brace. -/
def pairs? : Nat → Nat → Entries → Text → Option (Entries × Text)
  | 0, _, _, _ => none
  | fuel + 1, depth, done, t => do
    let (path, key, rest) ← key? t
    match rest with
    | '=' :: rest =>
      let (v, rest) ← value? fuel depth (skipBlanks rest)
      let done ← done.insert? path key v
      match skipBlanks rest with
      | ',' :: rest => pairs? fuel depth done rest
      | '\x7d' :: rest => some (done, rest)
      | _ => none
    | _ => none

end

/-- A header at the start of a text, and the text behind its line. -/
def header? (t : Text) : Option (Header × Text) :=
  match t with
  | '[' :: '[' :: rest => do
    let (path, key, rest) ← key? rest
    match rest with
    | ']' :: ']' :: rest => (lineEnd? rest).map fun rest => (⟨path, key, true⟩, rest)
    | _ => none
  | '[' :: rest => do
    let (path, key, rest) ← key? rest
    match rest with
    | ']' :: rest => (lineEnd? rest).map fun rest => (⟨path, key, false⟩, rest)
    | _ => none
  | _ => none

/-- The document behind a line with a key and a value, and the text behind that line. -/
def pair? (d : Draft) (t : Text) : Option (Draft × Text) := do
  let (path, key, rest) ← key? t
  match rest with
  | '=' :: rest =>
    let (v, rest) ← value? (2 * rest.length + 2) 0 (skipBlanks rest)
    let d ← d.insert? path key v
    (lineEnd? rest).map fun rest => (d, rest)
  | _ => none

def lines? : Nat → Draft → Text → Option Draft
  | 0, _, _ => none
  | fuel + 1, d, t =>
    match skipBlanks t with
    | [] => some d
    | '[' :: rest => do
      let (h, rest) ← header? ('[' :: rest)
      lines? fuel (← d.start? h) rest
    | c :: rest =>
      if c = '\n' ∨ c = '\r' ∨ c = '#' then (lineEnd? (c :: rest)).bind (lines? fuel d)
      else do
        let (d, rest) ← pair? d (c :: rest)
        lines? fuel d rest

/-- The text without a byte order mark at its start. -/
def dropMark : Text → Text
  | '\ufeff' :: rest => rest
  | t => t

def parse? (t : Text) : Option Json := do
  let t := dropMark t
  let d ← lines? (t.length + 1) {} t
  return (← d.finish?).toJson

end AsmLens.Toml
