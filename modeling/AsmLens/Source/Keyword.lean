import AsmLens.Text.Basic

/-!
# Keywords and names

A keyword is matched letter by letter under simple case folding: besides the two cases of an
ASCII letter, the long s folds to `s` and the Kelvin sign to `k`. A name is a run of word
characters, and an at-sign in front of it declares it globally.
-/

namespace AsmLens.Source

/-- Whether a character folds to a lower-case letter or other keyword character. -/
def foldsTo (letter c : Char) : Bool :=
  c.toLower == letter || (letter == 's' && c == 'ſ') || (letter == 'k' && c == '\u212a')

def afterKeyword? : Text → Text → Option Text
  | [], t => some t
  | _ :: _, [] => none
  | k :: ks, c :: cs => if foldsTo k c then afterKeyword? ks cs else none

/-- What follows the white space at the start of a text, of which there is some. -/
def afterSpace? : Text → Option Text
  | [] => none
  | c :: cs => if Text.isSpace c then some (Text.trimStart cs) else none

def afterKeywordSpace? (keyword t : Text) : Option Text :=
  (afterKeyword? keyword t).bind afterSpace?

/-- Whether a text starts with an at-sign, and the text behind it. -/
def takeAt : Text → Bool × Text
  | '@' :: rest => (true, rest)
  | t => (false, t)

/-- The run of word characters at the start of a text, and the rest. -/
def takeName (t : Text) : Text × Text := t.span Text.isWord

end AsmLens.Source
