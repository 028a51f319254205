import AsmLens.Editor.Encode
import AsmLens.Snapshot.Basic

/-!
# Messages to the editor

A session tells the editor what was found wrong in a buffer, and shows or logs a line of text.
The diagnostics of a snapshot are the faults that lie in the buffer or have no place, in the
order of the report, and then the line that stands for a missing report.
-/

namespace AsmLens

inductive DiagnosticLevel where
  | error
  | warning
  | information
  deriving DecidableEq

/-- One thing that is wrong in a buffer. -/
structure Diagnostic where
  range : EditorRange
  level : DiagnosticLevel
  message : Text
  deriving DecidableEq

def Severity.level : Severity → DiagnosticLevel
  | .error => .error
  | .warning => .warning
  | .other _ => .information

namespace Snapshot

/-- The diagnostic of a fault, if it belongs to the buffer. -/
def diagnosticOf? (s : Snapshot) (f : Fault) : Option Diagnostic :=
  match f.span with
  | none => some ⟨.origin, f.severity.level, f.message⟩
  | some span =>
    if s.mainIndex? = some span.file then
      some ⟨span.toRange (s.lineText? span.file), f.severity.level, f.message⟩
    else none

def diagnostics (s : Snapshot) : List Diagnostic :=
  s.report.faults.filterMap s.diagnosticOf? ++
    (s.failure.map fun line => ⟨EditorRange.origin, DiagnosticLevel.error, line⟩).toList

end Snapshot

inductive Notice where
  /-- The diagnostics of a buffer, for one version of it or for none. -/
  | diagnostics (uri : Uri) (items : List Diagnostic) (version : Option Int)
  /-- A warning to show. -/
  | warning (text : Text)
  /-- A line for the log. -/
  | log (text : Text)

namespace Notice

def levelCode : DiagnosticLevel → Nat
  | .error => 1
  | .warning => 2
  | .information => 3

def diagnosticJson (d : Diagnostic) : Json :=
  Json.record [("range", d.range.toJson), ("severity", .nat (levelCode d.level)),
    ("source", Json.string "kickass"), ("message", .str d.message)]

def lineJson (type : Nat) (text : Text) : Json :=
  Json.record [("type", .nat type), ("message", .str text)]

def method : Notice → String
  | .diagnostics _ _ _ => "textDocument/publishDiagnostics"
  | .warning _ => "window/showMessage"
  | .log _ => "window/logMessage"

def params : Notice → Json
  | .diagnostics uri items version =>
    Json.present [("uri", some (.str uri.toText)),
      ("diagnostics", some (Json.ofList diagnosticJson items)), ("version", version.map Json.int)]
  | .warning text => lineJson 2 text
  | .log text => lineJson 3 text

def uri? : Notice → Option Uri
  | .diagnostics uri _ _ => some uri
  | .warning _ | .log _ => none

/-- A line with the name of the server in front. -/
def signed (text : Text) : Text := "kickass-analyzer: ".toList ++ text

end Notice

end AsmLens
