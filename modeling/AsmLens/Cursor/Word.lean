import AsmLens.Text.Basic

/-!
# The word under the cursor

A word is what stands between white space around a column. An identifier is narrower: letters,
digits, underscores, dots and the marks of numbers. Loose dots do not belong to it: a leading dot
stays only in front of a letter, and trailing dots never stay.
-/

namespace AsmLens.Cursor

structure Word where
  text : Text
  start : Nat
  stop : Nat
  deriving DecidableEq

/-- The column itself, or the end of the line if the column lies past it. -/
def clamp (line : Text) (column : Nat) : Nat := min column line.length

/-- The start of the run of characters satisfying `p` that ends at a column of the line. -/
def runStart (p : Char → Bool) (line : Text) (column : Nat) : Nat :=
  column - ((line.take column).reverse.takeWhile p).length

/-- The end of the run of characters satisfying `p` that starts at a column of the line. -/
def runStop (p : Char → Bool) (line : Text) (column : Nat) : Nat :=
  column + ((line.drop column).takeWhile p).length

def isInk (c : Char) : Bool := !Text.isSpace c

def wordAt? (line : Text) (column : Nat) : Option Word :=
  let column := clamp line column
  let start := runStart isInk line column
  let stop := runStop isInk line column
  if start = stop then none else some ⟨Text.slice start stop line, start, stop⟩

def isIdentifierChar (c : Char) : Bool :=
  Text.isAlphanumeric c || c == '_' || c == '.' || c == '$' || c == '%' || c == '#'

/-- The number of leading dots, within the first `count` characters, that no letter follows. The
letter may stand behind these characters. -/
def looseDots : Nat → Text → Nat
  | count + 1, c :: cs =>
    if c = '.' ∧ ¬ cs.head?.any Text.isAlphabetic then looseDots count cs + 1 else 0
  | _, _ => 0

def identifierAt? (line : Text) (column : Nat) : Option Word :=
  let column := clamp line column
  let first := runStart isIdentifierChar line column
  let last := runStop isIdentifierChar line column
  let start := first + looseDots (last - first) (line.drop first)
  let t := Text.dropEndWhile (· == '.') (Text.slice start last line)
  if t.isEmpty then none else some ⟨t, start, start + t.length⟩

end AsmLens.Cursor
