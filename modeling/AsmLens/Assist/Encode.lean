import AsmLens.Assist.Completion
import AsmLens.Assist.Definition
import AsmLens.Assist.Hover
import AsmLens.Assist.Signature
import AsmLens.Editor.Encode

/-!
# Help as JSON

The form in which completions, hovers, signatures and locations are sent to the editor. Members
that are absent are left out.
-/

namespace AsmLens

def Json.markdown (t : Text) : Json :=
  Json.record [("kind", Json.string "markdown"), ("value", .str t)]

def CompletionKind.code : CompletionKind → Nat
  | .method => 2
  | .function => 3
  | .var => 6
  | .nameSpace => 9
  | .keyword => 14
  | .reference => 18
  | .constant => 21
  | .typeParameter => 25

def CompletionItem.toJson (i : CompletionItem) : Json :=
  Json.present [
    ("label", some (.str i.label)),
    ("kind", some (.nat i.kind.code)),
    ("detail", i.detail.map Json.str),
    ("documentation", i.documentation.map Json.markdown),
    ("sortText", i.sortText.map Json.str),
    ("filterText", i.filterText.map Json.str),
    ("textEdit", i.replaces.map fun range =>
      Json.record [("range", range.toJson), ("newText", .str i.label)])]

def Hover.toJson (contents : Text) : Json := Json.record [("contents", Json.markdown contents)]

def ParameterHint.toJson (p : ParameterHint) : Json :=
  Json.present [
    ("label", some (.arr [.nat p.start, .nat p.stop])),
    ("documentation", p.note.map Json.str)]

/-- A signature on the wire, as the only one of its call. -/
def SignatureHint.toJson (s : SignatureHint) : Json :=
  Json.record [
    ("signatures", .arr [Json.present [
      ("label", some (.str s.label)),
      ("documentation", s.documentation.map Json.markdown),
      ("parameters", some (Json.ofList ParameterHint.toJson s.parameters))]]),
    ("activeSignature", .nat 0),
    ("activeParameter", .nat s.active)]

def Location.toJson (l : Location) : Json :=
  Json.record [("uri", .str l.uri.toText), ("range", l.range.toJson)]

end AsmLens
