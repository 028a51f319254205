import AsmLens.Catalogue.Outline
import AsmLens.Json.Basic

/-!
# Editor values as JSON

The form in which positions, ranges and outlines are sent to the editor. Members that are absent
are left out.
-/

namespace AsmLens

def Position.toJson (p : Position) : Json :=
  Json.record [("line", .nat p.line), ("character", .nat p.character)]

def EditorRange.toJson (r : EditorRange) : Json :=
  Json.record [("start", r.start.toJson), ("end", r.stop.toJson)]

def Category.outlineCode : Category → Nat
  | .namedLabel => 20
  | .label => 14
  | .constant => 14
  | .var => 13
  | .function => 12
  | .macroDef => 6
  | .pseudoCommand => 25
  | .nameSpace => 3
  | .parameter => 26
  | .flag => 17

namespace OutlineNode

mutual

def toJson (lineText : Nat → Option Text) : OutlineNode → Json
  | .node s children =>
    let range := (s.span.toRange lineText).toJson
    Json.present [
      ("name", some (.str s.name)),
      ("detail", some (.str s.signature)),
      ("kind", some (.nat s.category.outlineCode)),
      ("range", some range),
      ("selectionRange", some range),
      ("children", if children.isEmpty then none else some (.arr (listJson lineText children)))]

def listJson (lineText : Nat → Option Text) : List OutlineNode → List Json
  | [] => []
  | n :: rest => toJson lineText n :: listJson lineText rest

end

end OutlineNode

def Outline.toJson (c : Catalogue) (l : Scope.Listing) : Json :=
  .arr (OutlineNode.listJson (fun n => (l.row? n).map (·.raw)) (Outline.ofFile c l.file))

end AsmLens
