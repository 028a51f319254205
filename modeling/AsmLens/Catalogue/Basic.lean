import AsmLens.Scope.Forest
import AsmLens.Symbol.Basic

/-!
# The symbol catalogue

A catalogue holds the symbols of a project together with the scope forest they stand in. A name
is resolved from a scope outwards: declarations in inner scopes come first, and of those in one
scope the declared ones come before the built-in ones, in the order of declaration. An index made
with the catalogue says where the symbols of each name stand.
-/

namespace AsmLens

/-- For each name of a list, the positions at which it stands there. -/
abbrev NameIndex := List (Text × List Nat)

namespace NameIndex

/-- Adds a position to those of a name. A new name gets an entry of its own. -/
def enter (name : Text) (position : Nat) : NameIndex → NameIndex
  | [] => [(name, [position])]
  | (other, positions) :: rest =>
    if other == name then (other, positions ++ [position]) :: rest
    else (other, positions) :: enter name position rest

def ofNames (names : List Text) : NameIndex :=
  names.zipIdx.foldl (fun index (name, position) => index.enter name position) []

def positions? (index : NameIndex) (name : Text) : Option (List Nat) := index.lookup name

end NameIndex

/-- The symbols of a project and the scopes they stand in, with the index of their names. -/
structure Catalogue where
  symbols : List Symbol := []
  forest : Scope.Forest := {}
  byName : NameIndex := .ofNames (symbols.map (·.name))
  byName_eq : byName = .ofNames (symbols.map (·.name)) := by rfl
  deriving DecidableEq

namespace Catalogue

def empty : Catalogue := {}

instance : Inhabited Catalogue := ⟨empty⟩

/-- The symbols with a name, in the order of declaration. -/
def named (c : Catalogue) (name : Text) : List Symbol :=
  ((c.byName.positions? name).getD []).filterMap (c.symbols[·]?)

def containsName (c : Catalogue) (name : Text) : Bool := (c.byName.positions? name).isSome

def isVisible (c : Catalogue) (scope : Nat) (s : Symbol) : Bool :=
  s.isGlobal || s.isBuiltin || c.forest.sees s.scope scope

def visibleFrom (c : Catalogue) (scope : Nat) : List Symbol := c.symbols.filter (c.isVisible scope)

/-- Whether `s` may stand in front of `t` among the candidates for a name: it is declared deeper,
or as deep and not built in unless `t` is. -/
def precedes (c : Catalogue) (s t : Symbol) : Bool :=
  let ds := c.forest.depth s.scope
  let dt := c.forest.depth t.scope
  dt < ds || (ds == dt && (!s.isBuiltin || t.isBuiltin))

/-- Every declaration of a name that can be seen from a scope, innermost first. -/
def resolveAll (c : Catalogue) (name : Text) (scope : Nat) : List Symbol :=
  ((c.named name).filter (c.isVisible scope)).mergeSort c.precedes

def resolve? (c : Catalogue) (name : Text) (scope : Nat) : Option Symbol :=
  (c.resolveAll name scope).head?

/-- The scopes with a name that stand in one of the candidates. -/
def inside (f : Scope.Forest) (candidates : List Nat) (name : Text) : List Nat :=
  (f.entries.filter fun e => candidates.contains e.parent && e.name == name).map (·.id)

/-- The scopes with a name, the global one apart. -/
def scopesNamed (f : Scope.Forest) (name : Text) : List Nat :=
  (f.entries.filter fun e => e.id != 0 && e.name == name).map (·.id)

/-- The scopes that a chain of names leads to. The first name may stand anywhere. -/
def scopesAt (f : Scope.Forest) : List Text → List Nat
  | [] => []
  | first :: rest => rest.foldl (inside f) (scopesNamed f first)

/-- The declaration that a dotted path means: the names in front lead to a scope, and the last
one is declared there. A single name is resolved from `scope`. -/
def resolvePath? (c : Catalogue) (path : Text) (scope : Nat) : Option Symbol :=
  let parts := Text.split '.' path
  let name := parts.getLastD []
  match parts.dropLast with
  | [] => c.resolve? name scope
  | qualifiers =>
    let scopes := scopesAt c.forest qualifiers
    (c.named name).find? fun s => scopes.contains s.lexicalScope

def ofCategories (c : Catalogue) (categories : List Category) : List Symbol :=
  c.symbols.filter fun s => categories.contains s.category

def inFile (c : Catalogue) (file : Nat) : List Symbol :=
  c.symbols.filter fun s => !s.isBuiltin && s.file == file

/-- The preprocessor symbols. -/
def flags (c : Catalogue) : List Symbol := c.ofCategories [.flag]

end Catalogue

end AsmLens
