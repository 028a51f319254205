import AsmLens.Text.Decimal

/-!
# Strings of a settings file

The four forms of a string: between single or double quotes, on one line or on several. Double
quotes allow escapes. A string on several lines leaves out a line break right behind its opening
quotes, may end in up to two quotes of its own, and has line feeds for its line breaks.

Every reader takes the text behind the opening quotes and gives the string and the text behind
the closing ones.
-/

namespace AsmLens.Toml

def isBlank (c : Char) : Bool := c == ' ' || c == '\t'

/-- Characters that may stand in a comment or a string: tabs, and what is not a control. -/
def isPlain (c : Char) : Bool := c == '\t' || (0x20 ≤ c.toNat && c.toNat ≠ 0x7F)

/-- A result with one more character in front of its string. -/
def pushFront (c : Char) (r : Text × Text) : Text × Text := (c :: r.1, r.2)

def escape? : Char → Option Char
  | 'b' => some '\x08'
  | 't' => some '\t'
  | 'n' => some '\n'
  | 'f' => some '\x0c'
  | 'r' => some '\r'
  | '"' => some '"'
  | '\\' => some '\\'
  | _ => none

/-- The character whose code point is given by hexadecimal digits. -/
def codePoint? (digits : Text) : Option Char :=
  match Text.readDigits? 16 digits with
  | some n => if n.isValidChar then some (Char.ofNat n) else none
  | none => none

def basic? : Text → Option (Text × Text)
  | [] => none
  | '"' :: rest => some ([], rest)
  | '\\' :: 'u' :: a :: b :: c :: d :: rest =>
    match codePoint? [a, b, c, d] with
    | some x => (basic? rest).map (pushFront x)
    | none => none
  | '\\' :: 'U' :: a :: b :: c :: d :: e :: f :: g :: h :: rest =>
    match codePoint? [a, b, c, d, e, f, g, h] with
    | some x => (basic? rest).map (pushFront x)
    | none => none
  | '\\' :: e :: rest =>
    match escape? e with
    | some x => (basic? rest).map (pushFront x)
    | none => none
  | c :: rest => if isPlain c && c != '\\' then (basic? rest).map (pushFront c) else none

def literal? : Text → Option (Text × Text)
  | [] => none
  | c :: rest =>
    if c = '\x27' then some ([], rest)
    else if isPlain c then (literal? rest).map (pushFront c)
    else none

/-- The quotes that close a string on several lines, with up to two more in front of them. -/
def closing? (quote : Char) (t : Text) : Option (Text × Text) :=
  let (run, rest) := t.span (· == quote)
  if 3 ≤ run.length ∧ run.length ≤ 5 then some (run.drop 3, rest) else none

/-- How many quotes stand at the start of a text. -/
def quoteRun (quote : Char) (t : Text) : Nat := (t.takeWhile (· == quote)).length

/-- What a reader of a string on several lines does with the blanks it meets. -/
inductive BlankMode where
  /-- Blanks belong to the string. -/
  | keep
  /-- A backslash has been read, and a line break must follow. -/
  | untilBreak
  /-- A backslash and a line break have been read, and blanks and line breaks are left out. -/
  | skip
  deriving DecidableEq

def longBasic? : BlankMode → Text → Option (Text × Text)
  | _, [] => none
  | .untilBreak, '\n' :: rest => longBasic? .skip rest
  | .untilBreak, '\r' :: '\n' :: rest => longBasic? .skip rest
  | .untilBreak, c :: rest => if isBlank c then longBasic? .untilBreak rest else none
  | mode, '\n' :: rest =>
    if mode = .skip then longBasic? .skip rest
    else (longBasic? .keep rest).map (pushFront '\n')
  | mode, '\r' :: '\n' :: rest =>
    if mode = .skip then longBasic? .skip rest
    else (longBasic? .keep rest).map (pushFront '\n')
  | _, '\\' :: 'u' :: a :: b :: c :: d :: rest =>
    match codePoint? [a, b, c, d] with
    | some x => (longBasic? .keep rest).map (pushFront x)
    | none => none
  | _, '\\' :: 'U' :: a :: b :: c :: d :: e :: f :: g :: h :: rest =>
    match codePoint? [a, b, c, d, e, f, g, h] with
    | some x => (longBasic? .keep rest).map (pushFront x)
    | none => none
  | _, '\\' :: '\n' :: rest => longBasic? .skip rest
  | _, '\\' :: e :: rest =>
    if isBlank e || e == '\r' then
      (if e == '\r' && rest.head? != some '\n' then none else longBasic? .untilBreak rest)
    else match escape? e with
      | some x => (longBasic? .keep rest).map (pushFront x)
      | none => none
  | mode, c :: rest =>
    if c = '"' then
      (if 3 ≤ quoteRun '"' (c :: rest) then closing? '"' (c :: rest)
        else (longBasic? .keep rest).map (pushFront c))
    else if mode = .skip && isBlank c then longBasic? .skip rest
    else if isPlain c && c != '\\' then (longBasic? .keep rest).map (pushFront c)
    else none

def longLiteral? : Text → Option (Text × Text)
  | [] => none
  | '\r' :: '\n' :: rest => (longLiteral? rest).map (pushFront '\n')
  | c :: rest =>
    if c = '\x27' then
      (if 3 ≤ quoteRun '\x27' (c :: rest) then closing? '\x27' (c :: rest)
        else (longLiteral? rest).map (pushFront c))
    else if isPlain c || c == '\n' then (longLiteral? rest).map (pushFront c)
    else none

/-- The text behind a line break at its start. -/
def newline? : Text → Option Text
  | '\n' :: rest => some rest
  | '\r' :: '\n' :: rest => some rest
  | _ => none

def dropNewline (t : Text) : Text := (newline? t).getD t

/-- A string of any form, with its quotes. -/
def string? : Text → Option (Text × Text)
  | '"' :: '"' :: '"' :: rest => longBasic? .keep (dropNewline rest)
  | '\x27' :: '\x27' :: '\x27' :: rest => longLiteral? (dropNewline rest)
  | '"' :: rest => basic? rest
  | '\x27' :: rest => literal? rest
  | _ => none

end AsmLens.Toml
