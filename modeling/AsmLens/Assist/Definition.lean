import AsmLens.Assist.Spot
import AsmLens.Instruction.Table

/-!
# Definitions

The place where the name under the cursor is declared. Instructions, directives and built-in
names have none.
-/

namespace AsmLens

structure Location where
  uri : Uri
  range : EditorRange
  deriving DecidableEq

namespace Definition

def bareName (word : Text) : Text :=
  Text.dropEndWhile (· == ':') (word.dropWhile (fun c => c == '#' || c == '@'))

/-- Whether a name can be one that a program declares. -/
def isCandidate (name : Text) : Bool :=
  !name.isEmpty && name.head? != some '.' && !Instruction.isInstruction name

/-- The declaration that a name means at a line. -/
def symbol? (snapshot : Snapshot) (row : Nat) (name : Text) : Option Symbol :=
  (snapshot.resolve name row).find? (fun s => !s.isBuiltin)

def locate? (snapshot : Snapshot) (s : Symbol) : Option Location :=
  (snapshot.uriOf? s.file).map fun uri => ⟨uri, s.span.toRange (snapshot.lineText? s.file)⟩

def atSpot? (snapshot : Snapshot) (spot : Spot) : Option Location := do
  let word ← spot.identifier?
  let name := bareName word
  if isCandidate name then (symbol? snapshot spot.row name).bind (locate? snapshot) else none

def provide? (snapshot : Snapshot) (text : Text) (p : Position) : Option Location :=
  (Spot.at? text p).bind (atSpot? snapshot)

end Definition

end AsmLens
