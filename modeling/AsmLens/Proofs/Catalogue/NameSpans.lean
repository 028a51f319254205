import AsmLens.Proofs.Catalogue.Declared
import AsmLens.Proofs.Scope.Rows
import AsmLens.Proofs.Symbol.Declaration
import Mathlib.Data.List.DropRight

/-!
# Spans denote names

A declaration is read on a line without comments, but its span is used on the raw line. The two
agree there, because a name has no white space in it, so none of its characters can come from a
blanked comment. A parameter has no place of its own and points at the name of the callable that takes it.
-/

namespace AsmLens

namespace Text

/-- The word stands in a text at a column. -/
def StandsAt (t : Text) (column : Nat) (word : Text) : Prop :=
  ∃ front back, t = front ++ word ++ back ∧ front.length = column

theorem StandsAt.slice_eq {t word : Text} {column : Nat} (h : t.StandsAt column word) :
    slice column (column + word.length) t = word := by
  obtain ⟨front, back, rfl, rfl⟩ := h
  rw [slice, ← List.length_append, List.take_left', List.drop_left']
  all_goals rfl

theorem StandsAt.le_length {t word : Text} {column : Nat} (h : t.StandsAt column word) :
    column + word.length ≤ t.length := by
  obtain ⟨front, back, rfl, rfl⟩ := h
  simp only [List.length_append]
  omega

/-- A word stands where its characters stand. -/
theorem standsAt_of_getElem? {t word : Text} {column : Nat} (hcolumn : column ≤ t.length)
    (h : ∀ i (hi : i < word.length), t[column + i]? = some word[i]) : t.StandsAt column word := by
  have hfirst : word <+: t.drop column := by
    rw [List.prefix_iff_getElem?]
    intro i hi
    rw [List.getElem?_drop]
    exact h i hi
  obtain ⟨back, hback⟩ := hfirst
  refine ⟨t.take column, back, ?_, List.length_take_of_le hcolumn⟩
  rw [List.append_assoc, hback, List.take_append_drop]

theorem StandsAt.getElem? {t word : Text} {column : Nat} (h : t.StandsAt column word) {i : Nat}
    (hi : i < word.length) : t[column + i]? = some word[i] := by
  obtain ⟨front, back, rfl, rfl⟩ := h
  rw [List.append_assoc, List.getElem?_append_right (Nat.le_add_right _ _),
    Nat.add_sub_cancel_left, List.getElem?_append_left hi, List.getElem?_eq_getElem hi]

/-- A word without white space stands in the raw line where it stands without comments. -/
theorem StandsAt.of_bare {raw bare word : Text} {column : Nat} (h : bare.StandsAt column word)
    (hlength : bare.length = raw.length)
    (hraw : ∀ (i : Nat) (c : Char), bare[i]? = some c → c ≠ ' ' → raw[i]? = some c)
    (hword : ' ' ∉ word) : raw.StandsAt column word := by
  have hle := h.le_length
  refine standsAt_of_getElem? (by omega) fun i hi => ?_
  refine hraw (column + i) _ (h.getElem? hi) ?_
  intro hspace
  exact hword (hspace ▸ List.getElem_mem hi)

end Text

namespace Catalogue

/-- A declaration read at a column has its name on the line at the column it gives. -/
theorem standsAt_markedText {row : Scope.Row} {column : Nat} {d : Declaration}
    (h : Declaration.read? (markedText row column) = some d) :
    row.bare.StandsAt (column + d.column) d.name := by
  have hspelled := Declaration.read?_spelled h
  obtain ⟨front, back, hmarked, hfront⟩ := hspelled.place
  obtain ⟨trail, htrail⟩ : markedText row column <+: row.bare.drop column :=
    List.rdropWhile_prefix Text.isSpace _
  have hlength : column ≤ row.bare.length := by
    by_contra hbeyond
    have hnil : row.bare.drop column = [] := List.drop_eq_nil_of_le (by omega)
    rw [hnil, hmarked] at htrail
    simp [hspelled.nonempty] at htrail
  refine ⟨row.bare.take column ++ front, back ++ trail, ?_, ?_⟩
  · calc row.bare = row.bare.take column ++ row.bare.drop column :=
        (List.take_append_drop column row.bare).symm
      _ = row.bare.take column ++ (front ++ d.name ++ back ++ trail) := by rw [← htrail, hmarked]
      _ = row.bare.take column ++ front ++ d.name ++ (back ++ trail) := by
        simp only [List.append_assoc]
  · rw [List.length_append, List.length_take_of_le hlength, hfront]

/-- The symbol has its name where its span says, on a raw line of the surveyed file. -/
structure WrittenIn (listings : List Scope.Listing) (s : Symbol) : Prop where
  line : ∃ l row, listings.find? (·.file == s.file) = some l ∧
    l.row? s.span.startLine = some row ∧ row.raw.StandsAt s.span.startColumn s.name
  span : s.span = Span.onLine s.file s.span.startLine s.span.startColumn
    (s.span.startColumn + s.name.length)
  word : ∀ c ∈ s.name, Text.isWord c = true

/-- What is written in a surveyed file is written in the source of the file. -/
theorem WrittenIn.on_sheet {forest : Scope.Forest} {sheets : List Scope.Sheet} {s : Symbol}
    (h : WrittenIn (Scope.surveyAll forest sheets).1 s) :
    ∃ sheet raw, sheets.find? (·.file == s.file) = some sheet ∧
      Source.line? sheet.text s.span.startLine = some raw ∧
      s.span.file = s.file ∧ s.span.endLine = s.span.startLine ∧
      Text.slice s.span.startColumn s.span.endColumn raw = s.name ∧ '@' ∉ s.name ∧
      s.span.startColumn ≤ s.span.endColumn ∧ s.span.endColumn ≤ raw.length := by
  obtain ⟨l, row, hfile, hrow, hstands⟩ := h.line
  obtain ⟨sheet, g, hsheet, rfl⟩ := Scope.find?_surveyAll hfile
  have hstop : s.span.endColumn = s.span.startColumn + s.name.length :=
    congrArg Span.endColumn h.span
  refine ⟨sheet, row.raw, hsheet, (Scope.row?_survey hrow).1, congrArg Span.file h.span,
    congrArg Span.endLine h.span, ?_, ?_, ?_, ?_⟩
  · rw [hstop]
    exact hstands.slice_eq
  · intro hat
    have hword := h.word _ hat
    revert hword
    decide
  · omega
  · rw [hstop]
    exact hstands.le_length

theorem ownSymbol_writtenIn {forest : Scope.Forest} {sheets : List Scope.Sheet}
    {l : Scope.Listing} {span : Span} {row : Scope.Row} {d : Declaration} (isMain : Bool)
    (doc : Option Doc)
    (hfile : (Scope.surveyAll forest sheets).1.find? (·.file == span.file) = some l)
    (hrow : l.row? span.startLine = some row)
    (hread : Declaration.read? (markedText row span.startColumn) = some d) :
    WrittenIn (Scope.surveyAll forest sheets).1
      (ownSymbol isMain span.file span.startLine span.startColumn row.scope d doc) := by
  have hword := (Declaration.read?_spelled hread).word
  refine ⟨⟨l, row, hfile, hrow, ?_⟩, rfl, hword⟩
  obtain ⟨sheet, g, _, rfl⟩ := Scope.find?_surveyAll hfile
  obtain ⟨hraw, hbare⟩ := Scope.row?_survey hrow
  obtain ⟨hlength, hkept⟩ := Source.blank_line hraw hbare
  refine (standsAt_markedText hread).of_bare hlength hkept ?_
  intro hspace
  have := hword _ hspace
  revert this
  decide

/-- The symbol whose name a symbol's span denotes: the symbol itself or, for a parameter, the macro,
function or pseudocommand that takes it and in whose body it lives. -/
def Denotes (c : Catalogue) (s o : Symbol) : Prop :=
  match s.kind with
  | .parameter p =>
    o ∈ c.symbols ∧ o.isBuiltin = false ∧
      o.category ∈ [Category.macroDef, .function, .pseudoCommand] ∧ p ∈ o.parameters ∧
      s.name = p.name ∧
      body? c.forest o.file o.span.startLine o.lexicalScope o.name o.kind = some s.scope ∧
      s.file = o.file ∧ s.span = o.span
  | _ => s = o

theorem Denotes.place {c : Catalogue} {s o : Symbol} (h : Denotes c s o) :
    s.file = o.file ∧ s.span = o.span := by
  unfold Denotes at h
  split at h
  · exact h.2.2.2.2.2.2
  · cases h
    exact ⟨rfl, rfl⟩

theorem denotes_self {c : Catalogue} {s : Symbol} (h : s.category ≠ .parameter) :
    Denotes c s s := by
  unfold Denotes
  split
  · rename_i p hkind
    exact absurd (by rw [Symbol.category, hkind]; rfl) h
  · rfl

theorem Denotes.eq_of_ne {c : Catalogue} {s o : Symbol} (h : Denotes c s o)
    (hkind : s.category ≠ .parameter) : s = o := by
  unfold Denotes at h
  split at h
  · rename_i p hp
    exact absurd (by rw [Symbol.category, hp]; rfl) hkind
  · exact h

theorem Denotes.category_ne {c : Catalogue} {s o : Symbol} (h : Denotes c s o) :
    o.category ≠ .parameter := by
  intro ho
  unfold Denotes at h
  split at h
  · have hcallable := h.2.2.1
    rw [ho] at hcallable
    revert hcallable
    decide
  · rename_i hkind
    cases h
    cases hs : s.kind with
    | parameter p => exact hkind p hs
    | _ => simp [Symbol.category, hs, SymbolKind.category] at ho

theorem category_documented (kind : SymbolKind) (doc : Option Doc) :
    (documented kind doc).category = kind.category := by
  cases doc with
  | none => rfl
  | some doc => cases kind <;> rfl

theorem callable_of_body? {f : Scope.Forest} {file line scope body : Nat} {name : Text}
    {kind : SymbolKind} (h : body? f file line scope name kind = some body) :
    kind.category ∈ [Category.macroDef, .function, .pseudoCommand] := by
  obtain ⟨k, hk, _⟩ := Option.bind_eq_some_iff.mp h
  unfold bodyKind? at hk
  split at hk
  · simp [SymbolKind.category]
  · simp [SymbolKind.category]
  · simp [SymbolKind.category]
  · cases hk

/-- Every declared symbol denotes a declared name, which stands where the span says. -/
theorem declared_denotes {r : Report} {sheets : List Scope.Sheet} {s : Symbol}
    (h : s ∈ declared r (Scope.surveyAll {} sheets).1 (Scope.surveyAll {} sheets).2) :
    ∃ o, Denotes (build r (Scope.surveyAll {} sheets).1 (Scope.surveyAll {} sheets).2) s o ∧
      WrittenIn (Scope.surveyAll {} sheets).1 o := by
  obtain ⟨l, span, row, d, doc, hfile, hrow, hread, hs, hown⟩ := exists_declaration h
  refine ⟨_, ?_, ownSymbol_writtenIn (isMainFile r span.file) doc hfile hrow hread⟩
  rw [symbolsOf_eq] at hs
  rcases List.mem_append.mp hs with hparameter | hself
  · split at hparameter
    · rename_i body hbody
      obtain ⟨p, hp, rfl⟩ := List.mem_map.mp hparameter
      exact ⟨List.mem_append_left _ hown, rfl, callable_of_body? hbody, hp, rfl, hbody, rfl, rfl⟩
    · cases hparameter
  · cases List.mem_singleton.mp hself
    refine denotes_self ?_
    have hkind := (Declaration.read?_spelled hread).kind
    rw [← category_documented d.kind doc] at hkind
    exact hkind

theorem declared_of_not_builtin {r : Report} {listings : List Scope.Listing} {f : Scope.Forest}
    {s : Symbol} (h : s ∈ (build r listings f).symbols) (hs : s.isBuiltin = false) :
    s ∈ declared r listings f := by
  rcases List.mem_append.mp h with hdeclared | hprovided
  · exact hdeclared
  · obtain ⟨e, _, he⟩ := List.mem_filterMap.mp hprovided
    obtain ⟨kind, _, rfl⟩ := Option.map_eq_some_iff.mp he
    cases hs

theorem declared_of_parameter {r : Report} {listings : List Scope.Listing} {f : Scope.Forest}
    {s : Symbol} (h : s ∈ (build r listings f).symbols) (hs : s.category = .parameter) :
    s ∈ declared r listings f := by
  rcases List.mem_append.mp h with hdeclared | hprovided
  · exact hdeclared
  · obtain ⟨e, _, he⟩ := List.mem_filterMap.mp hprovided
    obtain ⟨kind, hkind, rfl⟩ := Option.map_eq_some_iff.mp he
    unfold libraryKind? at hkind
    split at hkind <;> cases hkind <;> cases hs

end Catalogue

end AsmLens
