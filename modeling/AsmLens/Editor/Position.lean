import AsmLens.Span
import AsmLens.Text.Column

/-!
# Positions as an editor counts them

An editor addresses a position by its line and a column in UTF-16 units. A span is mapped to an
editor range with the text of its lines; where a line is not known its column is taken as it is.
-/

namespace AsmLens

/-- A line and a column in UTF-16 units, both from zero. An editor sends each in 32 bits, so
documents with fewer than 2 ^ 32 lines, and lines of fewer than 2 ^ 32 units, are meant. -/
structure Position where
  line : Nat
  character : Nat
  deriving DecidableEq, Inhabited

structure EditorRange where
  start : Position
  stop : Position
  deriving DecidableEq, Inhabited

namespace EditorRange

/-- The empty range at the start of a document. -/
def origin : EditorRange := ⟨⟨0, 0⟩, ⟨0, 0⟩⟩

def onLine (line start stop : Nat) : EditorRange := ⟨⟨line, start⟩, ⟨line, stop⟩⟩

end EditorRange

namespace Span

/-- The UTF-16 column of a character column on a line. -/
def editorColumn (lineText : Nat → Option Text) (line column : Nat) : Nat :=
  match lineText line with
  | some t => Text.unitsOfColumn t column
  | none => column

def toRange (lineText : Nat → Option Text) (s : Span) : EditorRange where
  start := ⟨s.startLine, editorColumn lineText s.startLine s.startColumn⟩
  stop := ⟨s.endLine, editorColumn lineText s.endLine s.endColumn⟩

end Span

end AsmLens
