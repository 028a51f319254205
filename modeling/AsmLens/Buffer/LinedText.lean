import AsmLens.Editor.Position
import AsmLens.Text.Column

/-!
# Texts with a table of their lines

An editor addresses a text by lines and UTF-16 columns; a place in the text is an offset in UTF-8
bytes. The offsets at which the lines start are kept in a table beside the text, and offsets and
positions are looked up in it. Whenever the text changes, the table is computed anew.

A line ends before its line feed and before all carriage returns in front of that.
-/

namespace AsmLens

/-- An edit: new text for a range, or for the whole text. -/
structure Edit where
  range : Option EditorRange
  text : Text

structure LinedText where
  text : Text
  starts : List Nat
  deriving DecidableEq

namespace LinedText

/-- The offsets behind the line feeds of a text that starts at the given offset. -/
def startsAfter (offset : Nat) : Text → List Nat
  | [] => []
  | c :: cs =>
    let next := offset + c.utf8Size
    if c = '\n' then next :: startsAfter next cs else startsAfter next cs

def lineStarts (t : Text) : List Nat := 0 :: startsAfter 0 t

def ofText (t : Text) : LinedText := ⟨t, lineStarts t⟩

instance : Coe Text LinedText := ⟨ofText⟩

def lineCount (t : LinedText) : Nat := t.starts.length

/-- A line without its terminator. It reaches up to the start of the next one. -/
def lineText? (t : LinedText) (line : Nat) : Option Text := do
  let start ← t.starts[line]?
  let stop := t.starts[line + 1]?.getD (Text.byteLength t.text)
  let whole ← Text.sliceBytes? t.text start stop
  return Text.dropEndWhile (· == '\r') (Text.dropEndWhile (· == '\n') whole)

/-- The offset of a position. A column past the end of its line is the end of it. -/
def offsetOf? (t : LinedText) (p : Position) : Option Nat := do
  let start ← t.starts[p.line]?
  let line ← t.lineText? p.line
  return start + Text.byteLength (line.take (Text.columnOfUnits line p.character))

/-- The position of an offset. An offset past the end is the end, and an offset inside a
character has no position. -/
def positionOf? (t : LinedText) (offset : Nat) : Option Position := do
  let offset := min offset (Text.byteLength t.text)
  let starts := t.starts.filter (· ≤ offset)
  let before ← Text.sliceBytes? t.text (starts.getLastD 0) offset
  return ⟨starts.length - 1, Text.width before⟩

/-- The text with the characters between two offsets replaced. -/
def splice? (t : Text) (start stop : Nat) (new : Text) : Option Text := do
  let (before, rest) ← Text.cutBytes? t start
  let (_, after) ← Text.cutBytes? rest (stop - start)
  return before ++ new ++ after

/-- The text after one edit. An edit with an unknown line, or whose start lies behind its end,
changes nothing. -/
def editedText (t : LinedText) (e : Edit) : Text :=
  match e.range with
  | none => e.text
  | some range =>
    match t.offsetOf? range.start, t.offsetOf? range.stop with
    | some start, some stop =>
      if start ≤ stop then (splice? t.text start stop e.text).getD t.text else t.text
    | _, _ => t.text

def applyEdit (t : LinedText) (e : Edit) : LinedText := ofText (t.editedText e)

end LinedText

end AsmLens
