import AsmLens.Text.Basic

/-!
# The lines of a source

A line ends at a line feed, and one carriage return in front of the line feed belongs to the
line end. The text behind the last line feed is a line too, so every text has at least one line.
-/

namespace AsmLens.Source

def dropReturn (t : Text) : Text := (Text.before? ['\r'] t).getD t

def lines (text : Text) : List Text := (Text.split '\n' text).map dropReturn

/-- The line with a number, counted from zero. -/
def line? (text : Text) (number : Nat) : Option Text := (lines text)[number]?

end AsmLens.Source
