import AsmLens.Catalogue.Basic
import Mathlib.Data.List.Basic

/-!
# The index of names mirrors the symbols

The index of a catalogue is filled once, symbol by symbol. Each step adds one position to the
entry of one name and leaves the other entries alone, so in the end a name has an entry exactly if
some symbol has it, and the entry lists its symbols in their order. Looking a name up is therefore
the same as going through all symbols.
-/

namespace AsmLens

namespace NameIndex

lemma positions?_nil (name : Text) : positions? [] name = none := rfl

lemma positions?_cons (entry : Text × List Nat) (index : NameIndex) (name : Text) :
    positions? (entry :: index) name =
      if entry.1 = name then some entry.2 else positions? index name := by
  obtain ⟨other, positions⟩ := entry
  rw [positions?, List.lookup_cons, positions?]
  by_cases h : other = name
  · simp [h]
  · have hname : (name == other) = false := by simpa using Ne.symm h
    simp [h, hname]

/-- One step adds a position to one name and keeps what the index says of the others. -/
theorem positions?_enter (index : NameIndex) (name other : Text) (k : Nat) :
    (index.enter name k).positions? other =
      if name = other then some ((index.positions? other).getD [] ++ [k])
      else index.positions? other := by
  induction index with
  | nil => simp [enter, positions?_cons, positions?_nil]
  | cons entry rest ih =>
    obtain ⟨first, positions⟩ := entry
    rw [enter]
    by_cases hfirst : first = name
    · subst hfirst
      by_cases hother : first = other
      · simp [positions?_cons, hother]
      · simp [positions?_cons, hother]
    · rw [if_neg (by simpa using hfirst), positions?_cons, ih, positions?_cons]
      by_cases hother : first = other
      · have hname : name ≠ other := fun h => hfirst (hother.trans h.symm)
        simp [hother, hname]
      · simp [hother]

/-- Where a name stands in a list, when its first position is `k`. -/
def places (name : Text) (names : List Text) (k : Nat) : List Nat :=
  ((names.zipIdx k).filter (·.1 == name)).map (·.2)

lemma places_eq_nil {name : Text} {names : List Text} (h : name ∉ names) (k : Nat) :
    places name names k = [] := by
  rw [places, List.map_eq_nil_iff, List.filter_eq_nil_iff]
  rintro ⟨other, i⟩ hmem
  have hother : other ∈ names := List.fst_mem_of_mem_zipIdx hmem
  simpa using ne_of_mem_of_not_mem hother h

lemma places_cons (name first : Text) (names : List Text) (k : Nat) :
    places name (first :: names) k =
      (if first = name then [k] else []) ++ places name names (k + 1) := by
  by_cases h : first = name <;> simp [places, h]

/-- A run over names adds the places of each name to what the index says of it. -/
theorem positions?_foldl_enter (names : List Text) (k : Nat) (index : NameIndex) (name : Text) :
    ((names.zipIdx k).foldl (fun index (name, i) => index.enter name i) index).positions? name =
      if name ∈ names then some ((index.positions? name).getD [] ++ places name names k)
      else index.positions? name := by
  induction names generalizing k index with
  | nil => simp
  | cons first rest ih =>
    rw [List.zipIdx_cons, List.foldl_cons, ih, positions?_enter, places_cons]
    by_cases hfirst : first = name
    · subst hfirst
      by_cases hrest : first ∈ rest
      · simp [hrest]
      · simp [hrest, places_eq_nil hrest]
    · by_cases hrest : name ∈ rest
      · simp [hfirst, hrest]
      · simp [hfirst, Ne.symm hfirst, hrest]

/-- The index of a list has an entry for each of its names, with the places where it stands. -/
theorem positions?_ofNames (names : List Text) (name : Text) :
    (ofNames names).positions? name =
      if name ∈ names then some (places name names 0) else none := by
  rw [ofNames, positions?_foldl_enter, positions?_nil, Option.getD_none, List.nil_append]

end NameIndex

namespace Catalogue

/-- The index adds nothing to what the symbols and the scopes say. -/
theorem eq_of_symbols_eq {c c' : Catalogue} (hsymbols : c.symbols = c'.symbols)
    (hforest : c.forest = c'.forest) : c = c' := by
  obtain ⟨symbols, forest, byName, rfl⟩ := c
  obtain ⟨symbols', forest', byName', rfl⟩ := c'
  cases hsymbols
  cases hforest
  rfl

/-- What stands at the places of a name are the symbols with this name, in their order. -/
lemma filterMap_places (symbols : List Symbol) (name : Text) :
    (NameIndex.places name (symbols.map (·.name)) 0).filterMap (symbols[·]?) =
      symbols.filter (·.name == name) := by
  have hat : ∀ e ∈ symbols.zipIdx.filter (·.1.name == name), symbols[e.2]? = some e.1 :=
    fun e he => List.mem_zipIdx_iff_getElem?.mp (List.mem_of_mem_filter he)
  calc (NameIndex.places name (symbols.map (·.name)) 0).filterMap (symbols[·]?)
      = (symbols.zipIdx.filter (·.1.name == name)).filterMap (symbols[·.2]?) := by
        rw [NameIndex.places, List.zipIdx_map, List.filter_map, List.map_map, List.filterMap_map]
        rfl
    _ = (symbols.zipIdx.filter (·.1.name == name)).map (·.1) := by
        rw [List.filterMap_congr hat, List.filterMap_eq_map']
    _ = (symbols.zipIdx.map (·.1)).filter (·.name == name) := by
        rw [List.filter_map]
        rfl
    _ = symbols.filter (·.name == name) := by
        rw [List.zipIdx_map_fst]

/-- The index finds the symbols with a name, all of them and in the order of declaration. -/
theorem named_eq (c : Catalogue) (name : Text) :
    c.named name = c.symbols.filter (·.name == name) := by
  rw [named, c.byName_eq, NameIndex.positions?_ofNames]
  split
  · exact filterMap_places c.symbols name
  · rename_i habsent
    symm
    rw [Option.getD_none, List.filterMap_nil, List.filter_eq_nil_iff]
    intro s hs hname
    exact habsent (List.mem_map.mpr ⟨s, hs, beq_iff_eq.mp hname⟩)

theorem containsName_iff (c : Catalogue) (name : Text) :
    c.containsName name = true ↔ ∃ s ∈ c.symbols, s.name = name := by
  rw [containsName, c.byName_eq, NameIndex.positions?_ofNames]
  split
  next hname => simpa using List.mem_map.mp hname
  next habsent => simpa using fun s hs h => habsent (List.mem_map.mpr ⟨s, hs, h⟩)

lemma mem_of_mem_named {c : Catalogue} {name : Text} {s : Symbol} (h : s ∈ c.named name) :
    s ∈ c.symbols := by
  rw [named_eq] at h
  exact List.mem_of_mem_filter h

end Catalogue

end AsmLens
