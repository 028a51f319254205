import AsmLens.Text.Basic

/-!
# JSON values

Editors speak JSON, and settings come as JSON values. Numbers are kept apart by how they are
used: an integer that fits in 64 bits, signed or unsigned, is an integer, and any other number
is a float, of which only the literal is kept. An object keeps its members in order; of members
with one key the last one counts.
-/

namespace AsmLens

inductive Json where
  | null
  | bool (b : Bool)
  | int (n : Int)
  | float (literal : Text)
  | str (s : Text)
  | arr (items : List Json)
  | obj (members : List (Text × Json))

namespace Json

def get? (key : Text) : Json → Option Json
  | .obj members => (members.reverse.find? (·.1 == key)).map (·.2)
  | _ => none

/-- The member of an object with a key. -/
def at? (j : Json) (key : String) : Option Json := j.get? key.toList

def string (s : String) : Json := .str s.toList

def nat (n : Nat) : Json := .int n

/-- A value, or null in its place. -/
def ofOption {α : Type} (encode : α → Json) : Option α → Json
  | some a => encode a
  | none => .null

def ofList {α : Type} (encode : α → Json) (items : List α) : Json := .arr (items.map encode)

def record (members : List (String × Json)) : Json :=
  .obj (members.map fun (k, v) => (k.toList, v))

/-- An object with those of the members that are present. -/
def present (members : List (String × Option Json)) : Json :=
  .obj (members.filterMap fun (k, v) => v.map fun v => (k.toList, v))

end Json

end AsmLens
