import AsmLens.Assembler.Basic
import AsmLens.Catalogue.Build
import AsmLens.Editor.Position
import AsmLens.Report.Reader
import AsmLens.Sha256
import AsmLens.Uri.Disk

/-!
# Snapshots

A snapshot is what one run of the assembler says about one buffer: the report, the files it
names with the scope of each of their lines, and the catalogue of their symbols. A run without a
report gives an empty snapshot with the line to show in its place.

The main file of the report stands for the buffer, so its lines are those of the buffer and its
URI is the one of the buffer. All other files are looked up by their paths, and a file that
cannot be found is left out.
-/

namespace AsmLens

/-- The identity of a buffer's project: a digest of its URI. -/
abbrev ProjectId := Text

def ProjectId.ofUri (uri : Uri) : ProjectId := Sha256.hex uri.toText

/-- The result of one run for one buffer. -/
structure Snapshot where
  uri : Uri
  generation : Nat
  report : Report := {}
  files : List Scope.Listing := []
  catalogue : Catalogue := .empty
  failure : Option Text := none

namespace Snapshot

def id (s : Snapshot) : ProjectId := ProjectId.ofUri s.uri

/-- The files of a report that can be surveyed, each with its text and its comments. -/
def sheets (report : Report) (buffer : Text) (findFile : Text → Option Text) :
    List Scope.Sheet :=
  report.files.filterMap fun f =>
    if f.isSystem then none
    else (if f.isMain then some buffer else findFile f.path).map fun text =>
      ⟨f.index, text, report.commentSpans f.index⟩

def ofReport (uri : Uri) (generation : Nat) (buffer : Text) (report : Report)
    (findFile : Text → Option Text) : Snapshot :=
  let (files, forest) := Scope.surveyAll {} (sheets report buffer findFile)
  { uri, generation, report, files, catalogue := Catalogue.build report files forest }

def build (uri : Uri) (generation : Nat) (buffer reportText : Text)
    (findFile : Text → Option Text) : Snapshot :=
  ofReport uri generation buffer (Report.read SourceFile.bufferMarker reportText) findFile

def ofOutput (uri : Uri) (generation : Nat) (buffer : Text) (output : AssemblyOutput)
    (findFile : Text → Option Text) : Snapshot :=
  match output.report with
  | some reportText => build uri generation buffer reportText findFile
  | none => { uri, generation, failure := output.failure? }

/-- The index of the file that stands for the buffer. -/
def mainIndex? (s : Snapshot) : Option Nat := s.report.mainFile?.map (·.index)

def file? (s : Snapshot) (index : Nat) : Option Scope.Listing :=
  s.files.find? (·.file == index)

def mainFile? (s : Snapshot) : Option Scope.Listing := s.mainIndex?.bind s.file?

/-- The scope at a line of the buffer, the global one where nothing is known. -/
def scopeAt (s : Snapshot) (line : Nat) : Nat :=
  match s.mainFile? with
  | some l => l.scopeAt line
  | none => 0

def lineText? (s : Snapshot) (index line : Nat) : Option Text :=
  (s.file? index).bind fun l => (l.row? line).map (·.raw)

def uriOf? (s : Snapshot) (index : Nat) : Option Uri :=
  (s.report.file? index).bind fun f =>
    if f.isMain then some s.uri else Uri.ofFilePath? f.path

/-- The name of the file that an index stands for, as it is shown. -/
def fileName? (s : Snapshot) (index : Nat) : Option Text :=
  (s.report.file? index).bind fun f =>
    if f.isMain then s.uri.toFilePath?.bind Disk.fileName? else Disk.fileName? f.path

/-- The symbols that a name stands for at a line of the buffer, innermost first. A name with
points is a path through named scopes. -/
def resolve (s : Snapshot) (name : Text) (line : Nat) : List Symbol :=
  let scope := s.scopeAt line
  if name.any (· == '.') then (s.catalogue.resolvePath? name scope).toList
  else s.catalogue.resolveAll name scope

end Snapshot

end AsmLens
