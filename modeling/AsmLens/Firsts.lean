/-!
# The first item of each key
-/

namespace AsmLens

/-- The items whose key is neither in `seen` nor the key of an earlier item. -/
def firstsFrom {α κ : Type} [BEq κ] (key : α → κ) : List κ → List α → List α
  | _, [] => []
  | seen, a :: rest =>
    if seen.contains (key a) then firstsFrom key seen rest
    else a :: firstsFrom key (key a :: seen) rest

/-- The first item of each key, in order. -/
def firsts {α κ : Type} [BEq κ] (key : α → κ) (items : List α) : List α :=
  firstsFrom key [] items

end AsmLens
