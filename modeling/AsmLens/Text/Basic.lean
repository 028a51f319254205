import AsmLens.Text.Ranges

/-!
# Text

Source text, names, messages and report lines are lists of characters, so that a column is a
position in a list and counts characters. The character classes follow the Unicode properties;
changes of case touch the ASCII letters only.
-/

namespace AsmLens

/-- A text is the list of its characters. -/
abbrev Text := List Char

namespace Text

/-- Characters with the property White_Space. -/
def isSpace (c : Char) : Bool := covered spaceRanges c.toNat

/-- Characters with the property Alphabetic. -/
def isAlphabetic (c : Char) : Bool := covered alphabeticRanges c.toNat

/-- Letters and numbers of any script. -/
def isAlphanumeric (c : Char) : Bool := isAlphabetic c || covered numericRanges c.toNat

/-- Characters that may stand in a name: letters, marks, decimal digits and connectors. -/
def isWord (c : Char) : Bool := isAlphabetic c || covered wordMarkRanges c.toNat

def lower (t : Text) : Text := t.map Char.toLower

def upper (t : Text) : Text := t.map Char.toUpper

def sameLetters (a b : Text) : Bool := lower a == lower b

def trimStart (t : Text) : Text := t.dropWhile isSpace

/-- The text without the characters at its end that satisfy `p`. -/
def dropEndWhile (p : Char → Bool) (t : Text) : Text := (t.reverse.dropWhile p).reverse

def trimEnd (t : Text) : Text := dropEndWhile isSpace t

def trim (t : Text) : Text := trimEnd (trimStart t)

/-- The parts between the characters that satisfy `p`. There is always at least one part, and
empty parts are kept. -/
def splitBy (p : Char → Bool) : Text → List Text
  | [] => [[]]
  | c :: cs =>
    if p c then [] :: splitBy p cs
    else match splitBy p cs with
      | [] => [[c]]
      | w :: ws => (c :: w) :: ws

def split (sep : Char) (t : Text) : List Text := splitBy (· == sep) t

/-- The maximal runs of characters that are not white space. -/
def words (t : Text) : List Text := (splitBy isSpace t).filter (fun w => !w.isEmpty)

/-- The parts with a separator between neighbours. -/
def join (sep : Text) (parts : List Text) : Text := List.intercalate sep parts

/-- What follows `head` in a text that starts with it. -/
def after? : Text → Text → Option Text
  | [], t => some t
  | _ :: _, [] => none
  | h :: hs, c :: cs => if h = c then after? hs cs else none

/-- What stands before `tail` in a text that ends with it. -/
def before? (tail t : Text) : Option Text := (after? tail.reverse t.reverse).map List.reverse

/-- Whether `needle` occurs in the text. The empty text occurs everywhere. -/
def contains (needle : Text) : Text → Bool
  | [] => needle.isEmpty
  | c :: cs => needle.isPrefixOf (c :: cs) || contains needle cs

/-- The text in front of the first `c` and the text behind it. -/
def cut? (c : Char) : Text → Option (Text × Text)
  | [] => none
  | d :: ds => if d = c then some ([], ds) else (cut? c ds).map fun (a, b) => (d :: a, b)

/-- Whether a text comes before another or is the same, by the code points of its characters. -/
def noLater : Text → Text → Bool
  | [], _ => true
  | _ :: _, [] => false
  | a :: as, b :: bs => a.toNat < b.toNat || (a == b && noLater as bs)

/-- The characters from column `start` up to column `stop`. -/
def slice (start stop : Nat) (t : Text) : Text := (t.take stop).drop start

/-- The characters before the first one that satisfies `p`, and the rest. -/
def spanNot (p : Char → Bool) (t : Text) : Text × Text := t.span (fun c => !p c)

end Text

end AsmLens
