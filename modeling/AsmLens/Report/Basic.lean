import AsmLens.Span

/-!
# Assembly reports

After a run the assembler reports what it knows: the entries of its libraries, its directives,
the files it read, marks on the source, and the faults it found. Each section keeps the order
of the report. A mark or a fault whose position could not be read has no span.
-/

namespace AsmLens

inductive EntryKind where
  | constant
  | function
  | other
  deriving DecidableEq

/-- A constant or function that a library of the assembler provides. -/
structure LibraryEntry where
  library : Text
  kind : EntryKind
  name : Text
  arity : Option Nat
  deriving DecidableEq

/-- An assembler or preprocessor directive, with an example of its use. -/
structure DirectiveEntry where
  name : Text
  usage : Text
  summary : Text
  deriving DecidableEq

structure SourceFile where
  index : Nat
  path : Text
  isSystem : Bool
  isMain : Bool
  deriving DecidableEq

inductive MarkKind where
  | label
  | directive
  | preprocessor
  | comment
  | other (name : Text)
  deriving DecidableEq

structure Mark where
  kind : MarkKind
  span : Option Span
  deriving DecidableEq

inductive Severity where
  | error
  | warning
  | other (name : Text)
  deriving DecidableEq

structure Fault where
  severity : Severity
  span : Option Span
  message : Text
  deriving DecidableEq

/-- Everything one run reported. -/
structure Report where
  libraries : List LibraryEntry := []
  directives : List DirectiveEntry := []
  preprocessor : List DirectiveEntry := []
  files : List SourceFile := []
  marks : List Mark := []
  faults : List Fault := []
  deriving DecidableEq, Inhabited

/-- Kinds of mark that can introduce a declaration. -/
def MarkKind.declares : MarkKind → Bool
  | .label | .directive | .preprocessor => true
  | .comment | .other _ => false

namespace SourceFile

/-- A file with this text in its path comes with the assembler. -/
def systemMarker : Text := "autoinclude.asm".toList

/-- A file with this text in its name holds the unsaved text of the buffer. -/
def bufferMarker : Text := ".kickass-analyzer.source".toList

/-- The part of a path behind its last slash or backslash. -/
def lastComponent (path : Text) : Text :=
  (path.reverse.takeWhile fun c => c != '/' && c != '\\').reverse

/-- The record of a file. An empty marker matches no file. -/
def ofPath (marker : Text) (index : Nat) (path : Text) : SourceFile where
  index := index
  path := path
  isSystem := Text.contains systemMarker path
  isMain := !marker.isEmpty && Text.contains marker (lastComponent path)

end SourceFile

namespace Report

def file? (r : Report) (index : Nat) : Option SourceFile :=
  r.files.find? (·.index == index)

def mainFile? (r : Report) : Option SourceFile := r.files.find? (·.isMain)

/-- Whether an index belongs to a file of the assembler's own. -/
def isSystem (r : Report) (index : Nat) : Bool :=
  match r.file? index with
  | some f => f.isSystem
  | none => false

/-- The spans of the comments of one file, in the order of the report. -/
def commentSpans (r : Report) (index : Nat) : List Span :=
  r.marks.filterMap fun m =>
    match m.kind, m.span with
    | .comment, some s => if s.file = index then some s else none
    | _, _ => none

end Report

end AsmLens
