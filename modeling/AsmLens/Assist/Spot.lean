import AsmLens.Cursor.Context
import AsmLens.Snapshot.Basic
import AsmLens.Source.Lines

/-!
# The spot an editor asks about

An editor asks for help at a position in the text of a buffer. There is something to say only
when the position has a line and lies outside comments and strings.
-/

namespace AsmLens

/-- A place in a line at which help can be given. -/
structure Spot where
  /-- The number of the line. -/
  row : Nat
  /-- The text of the line. -/
  line : Text
  /-- The column in characters. -/
  cursor : Nat
  context : Cursor.Context

namespace Spot

def at? (text : Text) (p : Position) : Option Spot := do
  let line ← Source.line? text p.line
  let cursor := Text.columnOfUnits line p.character
  let context ← Cursor.contextAt? line cursor
  return ⟨p.line, line, cursor, context⟩

def identifier? (s : Spot) : Option Text := (Cursor.identifierAt? s.line s.cursor).map (·.text)

def left (s : Spot) : Text := s.line.take s.cursor

/-- The part of the line that the token in front of the cursor covers. -/
def tokenRange (s : Spot) : EditorRange :=
  .onLine s.row (Text.unitsOfColumn s.line s.context.tokenStart)
    (Text.unitsOfColumn s.line s.cursor)

end Spot

end AsmLens
