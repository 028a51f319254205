import AsmLens.Buffer.LinedText
import AsmLens.Uri.Disk

/-!
# Buffers

A buffer is the unsaved text of one document, with the table of its lines.
-/

namespace AsmLens

structure Buffer where
  uri : Uri
  content : LinedText
  version : Int
deriving DecidableEq

namespace Buffer

def text (b : Buffer) : Text := b.content.text

def lineText? (b : Buffer) (line : Nat) : Option Text := b.content.lineText? line

/-- The number of lines. There is always one. -/
def lineCount (b : Buffer) : Nat := b.content.lineCount

def path? (b : Buffer) : Option Text := b.uri.toFilePath?

def offsetOf? (b : Buffer) (p : Position) : Option Nat := b.content.offsetOf? p

def positionOf? (b : Buffer) (offset : Nat) : Option Position := b.content.positionOf? offset

def setText (b : Buffer) (t : Text) (version : Int) : Buffer :=
  { b with content := t, version := version }

/-- The buffer after edits, each in the text that the ones before it left. -/
def edit (b : Buffer) (edits : List Edit) (version : Int) : Buffer :=
  { b with content := edits.foldl LinedText.applyEdit b.content, version := version }

end Buffer

end AsmLens
