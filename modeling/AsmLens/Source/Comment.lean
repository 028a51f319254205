import AsmLens.Span

/-!
# Comments and string literals

Reported comments are blanked: their characters become spaces, so every line keeps its length
and columns keep their meaning. A comment that opens on the last line of the file and runs on
past its end takes the whole of that line with it.

Within one line, a double quote opens or closes a string literal, a backslash inside a literal
takes the next character with it, and two slashes outside a literal start a line comment.
-/

namespace AsmLens

namespace Source

/-- The line with the characters between two columns replaced by spaces. -/
def blankColumns (start stop : Nat) (t : Text) : Text :=
  t.mapIdx fun i c => if start ≤ i ∧ i < stop then ' ' else c

/-- Line `number` of a source with `count` lines, with the span's part of it blanked. -/
def blankLine (s : Span) (count number : Nat) (t : Text) : Text :=
  if number < s.startLine ∨ s.lastLine < number then t
  else if s.startLine = s.lastLine then blankColumns s.startColumn s.endColumn t
  else if number = s.lastLine then blankColumns 0 s.endColumn t
  else if number = s.startLine ∧ number + 1 < count then blankColumns s.startColumn t.length t
  else blankColumns 0 t.length t

def blankSpan (lines : List Text) (s : Span) : List Text :=
  lines.mapIdx (blankLine s lines.length)

def blank (lines : List Text) (spans : List Span) : List Text := spans.foldl blankSpan lines

/-- The column of the first line comment in a text that starts at `column`, inside a string
literal if `quoted`. -/
def commentFrom (quoted : Bool) (column : Nat) : Text → Option Nat
  | [] => none
  | c :: cs =>
    if c = '"' then commentFrom (!quoted) (column + 1) cs
    else if quoted ∧ c = '\\' then
      match cs with
      | [] => none
      | _ :: rest => commentFrom quoted (column + 2) rest
    else if ¬ quoted ∧ c = '/' ∧ cs.head? = some '/' then some column
    else commentFrom quoted (column + 1) cs

def commentStart? (line : Text) : Option Nat := commentFrom false 0 line

/-- Whether a string literal is open, and whether a backslash in it waits for its character. -/
structure LiteralScan where
  isOpen : Bool := false
  escaped : Bool := false
  deriving DecidableEq

/-- A backslash escapes the next character inside a literal only, and an escaped quote does not
close it. -/
def LiteralScan.step (s : LiteralScan) (c : Char) : LiteralScan :=
  if c = '\\' ∧ s.isOpen ∧ ¬ s.escaped then { s with escaped := true }
  else if c = '"' ∧ ¬ s.escaped then ⟨!s.isOpen, false⟩
  else { s with escaped := false }

def endsQuoted (t : Text) : Bool := (t.foldl LiteralScan.step {}).isOpen

end Source

end AsmLens
