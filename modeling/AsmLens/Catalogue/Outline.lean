import AsmLens.Catalogue.Basic
import AsmLens.Editor.Position
import AsmLens.Scope.Survey

/-!
# The outline of a file

The outline arranges the symbols declared in a file, parameters apart, along the scopes that they
open. A symbol stands under the symbol that owns the nearest scope around it, and at the top if no
scope around it is owned. If several symbols could own a scope, the first one does.
-/

namespace AsmLens

/-- A symbol with the symbols inside it. -/
inductive OutlineNode where
  | node (symbol : Symbol) (children : List OutlineNode)

namespace Outline

/-- The kind of scope that a category of symbol can own. -/
def ownedKind? : Category → Option Scope.Kind
  | .namedLabel => some .label
  | .nameSpace => some .nameSpace
  | .function => some .function
  | .macroDef => some .macroBody
  | .pseudoCommand => some .pseudoCommand
  | _ => none

def ownedScope? (f : Scope.Forest) (s : Symbol) : Option Nat :=
  (ownedKind? s.category).bind fun k =>
    f.openedBy s.file s.lexicalScope s.name k s.span.startLine

def members (c : Catalogue) (file : Nat) : List Symbol :=
  (c.inFile file).filter fun s => s.category != .parameter

/-- The index of the first symbol that owns a scope. -/
def owner? (f : Scope.Forest) (symbols : List Symbol) (scope : Nat) : Option Nat :=
  symbols.findIdx? fun s => ownedScope? f s == some scope

/-- The index of the symbol under which the symbol at index `i` stands. -/
def container? (f : Scope.Forest) (symbols : List Symbol) (i : Nat) (s : Symbol) : Option Nat :=
  (f.ancestors s.lexicalScope).findSome? fun scope =>
    (owner? f symbols scope).filter (· != i)

def under (f : Scope.Forest) (symbols : List Symbol) (container : Option Nat) :
    List (Symbol × Nat) :=
  symbols.zipIdx.filter fun (s, i) => container? f symbols i s == container

/-- The tree below a symbol, down to a depth. -/
def tree (f : Scope.Forest) (symbols : List Symbol) : Nat → Symbol × Nat → OutlineNode
  | 0, (s, _) => .node s []
  | depth + 1, (s, i) => .node s ((under f symbols (some i)).map (tree f symbols depth))

/-- The outline of a file. No chain of symbols inside each other is longer than their number. -/
def ofFile (c : Catalogue) (file : Nat) : List OutlineNode :=
  let symbols := members c file
  (under c.forest symbols none).map (tree c.forest symbols symbols.length)

end Outline

end AsmLens
