import AsmLens.Text.Basic

/-!
# The scope forest

Scopes are numbered in the order in which they were opened. Scope zero is the global scope and
has no node; scope `n + 1` is node `n` of the forest. A node names the scope it was
opened in, which is always an earlier one, so that walking from a scope to the scope around it
ends at the global scope.
-/

namespace AsmLens.Scope

inductive Kind where
  | label
  | nameSpace
  | function
  | macroBody
  | pseudoCommand
  deriving DecidableEq

/-- A scope other than the global one, with the file and line of the brace that opened it. -/
structure Node where
  parent : Nat
  name : Text
  kind : Kind
  line : Nat
  file : Nat
  deriving DecidableEq

structure Forest where
  nodes : List Node := []
  deriving DecidableEq, Inhabited

namespace Forest

/-- The number of scopes, the global one included. -/
def size (f : Forest) : Nat := f.nodes.length + 1

/-- The node of a scope. The global scope has none. -/
def node? (f : Forest) : Nat → Option Node
  | 0 => none
  | n + 1 => f.nodes[n]?

def parent? (f : Forest) (id : Nat) : Option Nat := (f.node? id).map (·.parent)

/-- The node as it is attached to a forest. A scope around it that the forest does not have is
taken for the global one. -/
def attached (f : Forest) (n : Node) : Node :=
  { n with parent := if n.parent < f.size then n.parent else 0 }

/-- The forest with one more scope, whose number is the old size. -/
def add (f : Forest) (n : Node) : Forest := ⟨f.nodes ++ [f.attached n]⟩

def numbered (f : Forest) : List (Node × Nat) := f.nodes.zipIdx 1

/-- What a path through named scopes reads of a scope. -/
structure Entry where
  id : Nat
  parent : Nat
  name : Text
  deriving DecidableEq

/-- All scopes in the order of their numbers. The global one comes first and stands in itself. -/
def entries (f : Forest) : List Entry :=
  ⟨0, 0, "Global".toList⟩ :: f.numbered.map fun (n, id) => ⟨id, n.parent, n.name⟩

/-- A scope, the scope around it, and so on up to the global scope. An unknown scope stands
directly under the global one. -/
def ancestors (f : Forest) (id : Nat) : List Nat :=
  match f.node? id with
  | none => if id = 0 then [0] else [id, 0]
  | some n => if n.parent < id then id :: f.ancestors n.parent else [id, 0]
termination_by id

def depth (f : Forest) (id : Nat) : Nat := (f.ancestors id).length - 1

/-- Whether code in scope `origin` sees what is declared in scope `declared`. -/
def sees (f : Forest) (declared origin : Nat) : Bool :=
  declared == 0 || (f.ancestors origin).contains declared

def find? (f : Forest) (name : Text) (kind : Kind) : Option Nat :=
  (f.numbered.find? fun (n, _) => n.kind == kind && n.name == name).map (·.2)

/-- The first of the nodes whose line is least. -/
def earliest : List (Node × Nat) → Option (Node × Nat)
  | [] => none
  | e :: rest =>
    match earliest rest with
    | none => some e
    | some best => if e.1.line ≤ best.1.line then some e else some best

/-- The scope that a declaration opens: among the scopes of the file with the name and kind that
stand directly in `parent`, the first one opened on the line of the declaration or below it. -/
def openedBy (f : Forest) (file parent : Nat) (name : Text) (kind : Kind) (line : Nat) :
    Option Nat :=
  (earliest (f.numbered.filter fun (n, _) =>
    n.file == file && n.kind == kind && n.parent == parent && n.name == name &&
      line ≤ n.line)).map (·.2)

end Forest

end AsmLens.Scope
