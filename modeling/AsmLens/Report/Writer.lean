import AsmLens.Report.Basic
import AsmLens.Text.Decimal

/-!
# Writing a report

The written form has every section header once, in a fixed order, and one line for each record.
Positions count from one, and a missing span is written as a question mark, which no reader
takes for a number.
-/

namespace AsmLens

def Span.write : Option Span → Text
  | none => ['?']
  | some s =>
    Text.join [','] [Text.ofNat (s.startLine + 1), Text.ofNat (s.startColumn + 1),
      Text.ofNat (s.endLine + 1), Text.ofNat (s.endColumn + 1), Text.ofNat s.file]

def EntryKind.write : EntryKind → Text
  | .constant => "constant".toList
  | .function => "function".toList
  | .other => "other".toList

def MarkKind.write : MarkKind → Text
  | .label => "label".toList
  | .directive => "directive".toList
  | .preprocessor => "ppDirective".toList
  | .comment => "comment".toList
  | .other name => name

def Severity.write : Severity → Text
  | .error => "Error".toList
  | .warning => "Warning".toList
  | .other name => name

namespace Report

/-- A record line: fields with semicolons between them. -/
def line (fields : List Text) : Text := Text.join [';'] fields

def libraryLine (e : LibraryEntry) : Text :=
  line ([e.library, e.kind.write, e.name] ++ (e.arity.map Text.ofNat).toList)

def directiveLine (e : DirectiveEntry) : Text := line [e.name, e.usage, e.summary]

def fileLine (f : SourceFile) : Text := line [Text.ofNat f.index, f.path]

def markLine (m : Mark) : Text := line [m.kind.write, Span.write m.span]

def faultLine (f : Fault) : Text := line [f.severity.write, Span.write f.span, f.message]

def writtenLines (r : Report) : List Text :=
  ["[Libraries]".toList] ++ r.libraries.map libraryLine ++
  ["[Directives]".toList] ++ r.directives.map directiveLine ++
  ["[PPDirectives]".toList] ++ r.preprocessor.map directiveLine ++
  ["[Files]".toList] ++ r.files.map fileLine ++
  ["[Syntax]".toList] ++ r.marks.map markLine ++
  ["[Errors]".toList] ++ r.faults.map faultLine

/-- The written form of a report: its lines, each with a line end. -/
def write (r : Report) : Text := (writtenLines r).flatMap fun l => l ++ ['\n']

end Report

end AsmLens
