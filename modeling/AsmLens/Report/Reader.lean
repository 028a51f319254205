import AsmLens.Report.Basic
import AsmLens.Text.Decimal

/-!
# Reading a report

A report is a sequence of lines. A line in square brackets opens a section; every other line is
a record of the section it stands in, with fields between semicolons. Reading never fails: lines
before the first known header, blank lines and records without their key field are passed over,
and a missing field is empty.

The lines are first read into one sequence of records, and the sections of the report are the
records of each kind in that order.
-/

namespace AsmLens

/-- A position field: up to five numbers between commas, counted from one, of which missing ones
are zero. A number that cannot be read leaves the whole field without a span. -/
def Span.read? (field : Text) : Option Span :=
  let t := Text.trim field
  if t.isEmpty then none
  else
    match ((Text.split ',' t).take 5).mapM fun part => Text.readWord? (Text.trim part) with
    | none => none
    | some values =>
      some {
        startLine := values.getD 0 0 - 1
        startColumn := values.getD 1 0 - 1
        endLine := values.getD 2 0 - 1
        endColumn := values.getD 3 0 - 1
        file := values.getD 4 0 }

/-- The kind of a library entry, by its name in any case. -/
def EntryKind.read (field : Text) : EntryKind :=
  let name := Text.lower (Text.trim field)
  if name = "constant".toList then .constant
  else if name = "function".toList then .function
  else .other

/-- The kind of a mark, by its name in any case. -/
def MarkKind.read (field : Text) : MarkKind :=
  let name := Text.trim field
  let key := Text.lower name
  if key = "label".toList then .label
  else if key = "directive".toList then .directive
  else if key = "ppdirective".toList then .preprocessor
  else if key = "comment".toList then .comment
  else .other name

/-- The severity of a fault, by its name in any case. -/
def Severity.read (field : Text) : Severity :=
  let name := Text.trim field
  let key := Text.lower name
  if key = "error".toList then .error
  else if key = "warning".toList then .warning
  else .other name

namespace Report

abbrev Fields := List Text

/-- One field without surrounding white space, empty when it is missing. -/
def Fields.trimmed (fields : Fields) (i : Nat) : Text := Text.trim (fields.getD i [])

/-- All fields from one on, as the text they were split from. -/
def Fields.remainder (fields : Fields) (i : Nat) : Text :=
  Text.trim (Text.join [';'] (fields.drop i))

def readLibrary? (fields : Fields) : Option LibraryEntry :=
  let name := Fields.trimmed fields 2
  if name.isEmpty then none
  else some {
    library := Fields.trimmed fields 0
    kind := EntryKind.read (fields.getD 1 [])
    name := name
    arity := Text.readWord? (Fields.trimmed fields 3) }

def readDirective? (fields : Fields) : Option DirectiveEntry :=
  let name := Fields.trimmed fields 0
  if name.isEmpty then none
  else some {
    name := name
    usage := Fields.trimmed fields 1
    summary := Fields.remainder fields 2 }

def readFile? (marker : Text) (fields : Fields) : Option SourceFile :=
  (Text.readWord? (Fields.trimmed fields 0)).map fun index =>
    SourceFile.ofPath marker index (Fields.remainder fields 1)

def readMark? (fields : Fields) : Option Mark :=
  let kind := Fields.trimmed fields 0
  if kind.isEmpty then none
  else some ⟨MarkKind.read kind, Span.read? (fields.getD 1 [])⟩

/-- Every line is a fault. -/
def readFault (fields : Fields) : Fault :=
  ⟨Severity.read (fields.getD 0 []), Span.read? (fields.getD 1 []), Fields.remainder fields 2⟩

inductive Section where
  | ignored
  | libraries
  | directives
  | preprocessor
  | files
  | marks
  | faults
  deriving DecidableEq

/-- The section that a line in square brackets opens. Unknown names open an ignored section. -/
def Section.ofHeader? (line : Text) : Option Section :=
  match (Text.after? ['['] line).bind (Text.before? [']']) with
  | none => none
  | some inner =>
    let name := Text.lower (Text.trim inner)
    if name = "libraries".toList then some .libraries
    else if name = "directives".toList then some .directives
    else if name = "ppdirectives".toList then some .preprocessor
    else if name = "files".toList then some .files
    else if name = "syntax".toList then some .marks
    else if name = "errors".toList then some .faults
    else some .ignored

inductive Record where
  | library (entry : LibraryEntry)
  | directive (entry : DirectiveEntry)
  | preprocessor (entry : DirectiveEntry)
  | file (file : SourceFile)
  | mark (mark : Mark)
  | fault (fault : Fault)
  deriving DecidableEq

def Record.read? (marker : Text) (s : Section) (fields : Fields) : Option Record :=
  match s with
  | .ignored => none
  | .libraries => (readLibrary? fields).map .library
  | .directives => (readDirective? fields).map .directive
  | .preprocessor => (readDirective? fields).map .preprocessor
  | .files => (readFile? marker fields).map .file
  | .marks => (readMark? fields).map .mark
  | .faults => some (.fault (readFault fields))

/-- The lines of a report that carry something: trimmed and not blank. -/
def contentLines (text : Text) : List Text :=
  ((Text.split '\n' text).map Text.trim).filter fun line => !line.isEmpty

/-- The records on a sequence of lines, read from within a section. -/
def records (marker : Text) : Section → List Text → List Record
  | _, [] => []
  | s, line :: rest =>
    match Section.ofHeader? line with
    | some next => records marker next rest
    | none =>
      (Record.read? marker s (Text.split ';' line)).toList ++ records marker s rest

def ofRecords (rs : List Record) : Report where
  libraries := rs.filterMap fun | .library e => some e | _ => none
  directives := rs.filterMap fun | .directive e => some e | _ => none
  preprocessor := rs.filterMap fun | .preprocessor e => some e | _ => none
  files := rs.filterMap fun | .file f => some f | _ => none
  marks := rs.filterMap fun | .mark m => some m | _ => none
  faults := rs.filterMap fun | .fault f => some f | _ => none

/-- The report written in a text. `marker` tells the file that holds the buffer. -/
def read (marker text : Text) : Report :=
  ofRecords (records marker .ignored (contentLines text))

end Report

end AsmLens
