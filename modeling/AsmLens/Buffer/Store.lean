import AsmLens.Buffer.Basic

/-!
# Open buffers

The buffers that an editor has open, at most one for each URI.
-/

namespace AsmLens

structure Buffers where
  all : List Buffer := []

namespace Buffers

def get? (s : Buffers) (uri : Uri) : Option Buffer := s.all.find? (·.uri == uri)

def close (s : Buffers) (uri : Uri) : Buffers := ⟨s.all.filter (·.uri != uri)⟩

def put (s : Buffers) (b : Buffer) : Buffers := ⟨b :: (s.close b.uri).all⟩

/-- The store after a buffer has been opened or replaced. -/
def setText (s : Buffers) (uri : Uri) (text : Text) (version : Int) : Buffers :=
  s.put ⟨uri, text, version⟩

/-- The store after edits of an open buffer. There is none when the buffer is not open. -/
def edit? (s : Buffers) (uri : Uri) (edits : List Edit) (version : Int) : Option Buffers :=
  (s.get? uri).map fun b => s.put (b.edit edits version)

def text? (s : Buffers) (uri : Uri) : Option Text := (s.get? uri).map (·.text)

def version? (s : Buffers) (uri : Uri) : Option Int := (s.get? uri).map (·.version)

/-- The open URIs, ordered by their text. -/
def uris (s : Buffers) : List Uri :=
  (s.all.map (·.uri)).mergeSort fun a b => Text.noLater a.toText b.toText

end Buffers

end AsmLens
