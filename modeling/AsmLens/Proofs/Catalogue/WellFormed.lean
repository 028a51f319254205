import AsmLens.Proofs.Catalogue.Bodies
import AsmLens.Proofs.Catalogue.Paths

/-!
# Well-formed catalogues

Every symbol of a catalogue goes back to a mark on the source or to an entry of a library. What is
declared at a mark stands in the scope of its line, or in the body that the line opens if it is a
parameter. An at-sign in front of the name lifts the declaration into the global scope after its
place is known, so it is visible from everywhere and still knows where it stands. Everything else
is visible from the scopes inside the one it is declared in.
-/

namespace AsmLens.Catalogue

variable {r : Report} {listings : List Scope.Listing} {f : Scope.Forest} {s : Symbol} {m : Mark}
  {span : Span} {row : Scope.Row}

/-! ## Marks that count -/

/-- Whether a mark can declare symbols: it is of a kind that introduces declarations, and it points
into a surveyed file that is not one of the assembler's own. -/
def counts (r : Report) (listings : List Scope.Listing) (m : Mark) : Bool :=
  m.kind.declares && m.span.any fun span =>
    !r.isSystem span.file && listings.any (·.file == span.file)

theorem counts_of_target? {l : Scope.Listing} (h : target? r listings m = some (l, span)) :
    counts r listings m = true := by
  obtain ⟨hkind, hspan, hsystem, hfile⟩ := target?_eq_some_iff.mp h
  have hindex := List.find?_some hfile
  have hsurveyed : listings.any (·.file == span.file) = true :=
    List.any_eq_true.mpr ⟨l, List.mem_of_find?_eq_some hfile, hindex⟩
  simp [counts, hkind, hspan, hsystem, hsurveyed]

/-- Comments, marks of other kinds, marks without a place, and marks in system files or in files
that were not surveyed declare nothing. -/
theorem build_filter_counts (r : Report) (listings : List Scope.Listing) (f : Scope.Forest) :
    build { r with marks := r.marks.filter (counts r listings) } listings f =
      build r listings f := by
  have hmarks : (r.marks.filter (counts r listings)).filterMap (target? r listings) =
      r.marks.filterMap (target? r listings) := by
    rw [List.filterMap_filter]
    refine List.filterMap_congr fun m _ => ?_
    cases htarget : target? r listings m with
    | none => exact ite_self none
    | some target => exact if_pos (counts_of_target? htarget)
  have htargets : targets { r with marks := r.marks.filter (counts r listings) } listings =
      targets r listings := congrArg (firsts _) hmarks
  refine eq_of_symbols_eq ?_ rfl
  rw [build_symbols, build_symbols, declared, htargets]
  rfl

/-! ## The mark of a symbol -/

/-- The symbol is declared where the mark starts, on a row of a surveyed file that is not one of the
assembler's own. -/
structure DeclaredBy (r : Report) (listings : List Scope.Listing) (f : Scope.Forest) (s : Symbol)
    (m : Mark) (span : Span) (row : Scope.Row) : Prop where
  mark : m ∈ r.marks ∧ m.span = some span
  kind : m.kind ∈ [MarkKind.label, .directive, .preprocessor]
  file : s.file = span.file
  foreign : r.isSystem span.file = false
  symbol : ∃ l, listings.find? (·.file == span.file) = some l ∧
    l.row? span.startLine = some row ∧ s ∈ declaredAt f (isMainFile r span.file) l span

/-- The symbol is declared with an at-sign: in the text that its mark points at, the sign stands
directly in front of the name. A parameter is not declared by itself. -/
def DeclaredWithAt (r : Report) (listings : List Scope.Listing) (f : Scope.Forest) (s : Symbol) :
    Prop :=
  s.category ≠ .parameter ∧ ∃ m span row, DeclaredBy r listings f s m span row ∧
    ∃ front back, markedText row span.startColumn = front ++ '@' :: s.name ++ back ∧
      span.startColumn + front.length + 1 = s.span.startColumn

theorem mem_of_declares {k : MarkKind} (h : k.declares = true) :
    k ∈ [MarkKind.label, .directive, .preprocessor] := by
  cases k with
  | comment => cases h
  | other name => cases h
  | _ => simp

theorem parameterSymbols_spec {isMain : Bool} {body : Nat} {ps : List Parameter}
    (h : s ∈ parameterSymbols span isMain body ps) :
    s.category = .parameter ∧ s.scope = body ∧ s.lexicalScope = body ∧ s.file = span.file ∧
      s.isMain = isMain := by
  obtain ⟨p, _, rfl⟩ := List.mem_map.mp h
  exact ⟨rfl, rfl, rfl, rfl, rfl⟩

theorem body?_lt_size {file line scope body : Nat} {name : Text} {kind : SymbolKind}
    (h : body? f file line scope name kind = some body) : body < f.size := by
  obtain ⟨k, _, hopened⟩ := Option.bind_eq_some_iff.mp h
  obtain ⟨n, hn, _⟩ := Scope.Forest.node?_of_openedBy hopened
  exact Scope.Forest.node?_lt_size hn

/-- A symbol of a declaration is the symbol of the declaration itself or a parameter in a body. -/
theorem mem_symbolsOf_cases {isMain : Bool} {file line column scope : Nat} {d : Declaration}
    {doc : Option Doc} (h : s ∈ symbolsOf f isMain file line column scope d doc) :
    s = ownSymbol isMain file line column scope d doc ∨
      ∃ body ps, body < f.size ∧
        s ∈ parameterSymbols (nameSpan file line column d) isMain body ps := by
  rw [symbolsOf_eq] at h
  rcases List.mem_append.mp h with hparameter | hown
  · split at hparameter
    · rename_i body hbody
      exact Or.inr ⟨body, _, body?_lt_size hbody, hparameter⟩
    · cases hparameter
  · exact Or.inl (List.mem_singleton.mp hown)

theorem file_isMain_of_mem_symbolsOf {isMain : Bool} {file line column scope : Nat}
    {d : Declaration} {doc : Option Doc} (h : s ∈ symbolsOf f isMain file line column scope d doc) :
    s.file = file ∧ s.isMain = isMain := by
  rcases mem_symbolsOf_cases h with rfl | ⟨body, ps, _, hparameter⟩
  · exact ⟨rfl, rfl⟩
  · exact (parameterSymbols_spec hparameter).2.2.2

theorem exists_declaredBy (h : s ∈ declared r listings f) :
    ∃ m span row, DeclaredBy r listings f s m span row := by
  obtain ⟨⟨l, span⟩, htarget, hs⟩ := List.mem_flatMap.mp h
  obtain ⟨m, hm, htarget?⟩ := List.mem_filterMap.mp (mem_of_mem_firstsFrom htarget)
  obtain ⟨hkind, hspan, hsystem, hfile⟩ := target?_eq_some_iff.mp htarget?
  obtain ⟨row, d, hrow, _, hsymbol⟩ := exists_row_of_mem_declaredAt hs
  exact ⟨m, span, row, ⟨hm, hspan⟩, mem_of_declares hkind, (file_isMain_of_mem_symbolsOf hsymbol).1,
    hsystem, l, hfile, hrow, hs⟩

/-- What a mark declares is read on its row. -/
theorem DeclaredBy.read (h : DeclaredBy r listings f s m span row) :
    ∃ d doc, Declaration.read? (markedText row span.startColumn) = some d ∧
      s ∈ symbolsOf f (isMainFile r span.file) span.file span.startLine span.startColumn row.scope d
        doc := by
  obtain ⟨l, _, hrow, hs⟩ := h.symbol
  obtain ⟨row', d, hrow', hd, hs⟩ := exists_row_of_mem_declaredAt hs
  cases hrow.symm.trans hrow'
  exact ⟨d, _, hd, hs⟩

/-- The symbol of a declaration is global exactly when an at-sign stands in front of the name. -/
theorem DeclaredBy.isGlobal_iff (h : DeclaredBy r listings f s m span row)
    (hkind : s.category ≠ .parameter) : s.isGlobal = true ↔
      ∃ front back, markedText row span.startColumn = front ++ '@' :: s.name ++ back ∧
        span.startColumn + front.length + 1 = s.span.startColumn := by
  obtain ⟨d, doc, hd, hs⟩ := h.read
  rcases mem_symbolsOf_cases hs with rfl | ⟨body, ps, _, hparameter⟩
  · have hcolumn : ∀ n, span.startColumn + n + 1 = span.startColumn + d.column ↔
        n + 1 = d.column := by omega
    simp only [ownSymbol, nameSpan, Span.onLine, hcolumn]
    exact Declaration.read?_hoisted_iff hd
  · exact absurd (parameterSymbols_spec hparameter).1 hkind

theorem DeclaredBy.isGlobal_iff_declaredWithAt (h : DeclaredBy r listings f s m span row) :
    s.isGlobal = true ↔ DeclaredWithAt r listings f s := by
  constructor
  · intro hglobal
    have hkind : s.category ≠ .parameter := by
      obtain ⟨d, doc, hd, hs⟩ := h.read
      rcases mem_symbolsOf_cases hs with rfl | ⟨body, ps, _, hparameter⟩
      · have hkind := (Declaration.read?_spelled hd).kind
        rwa [← category_documented d.kind doc] at hkind
      · rw [(parameterSymbols_local hparameter).1] at hglobal
        cases hglobal
    exact ⟨hkind, m, span, row, h, (h.isGlobal_iff hkind).mp hglobal⟩
  · -- two marks can point at one name, but the symbols they declare are told apart by the sign
    rintro ⟨hkind, m', span', row', h', hat⟩
    exact (h'.isGlobal_iff hkind).mpr hat

/-! ## Well-formed symbols -/

/-- What holds of every symbol of a catalogue, with the report and the files it was built from. -/
structure WellFormed (r : Report) (listings : List Scope.Listing) (f : Scope.Forest) (s : Symbol) :
    Prop where
  /-- Both scopes of a symbol are scopes of the forest. -/
  scopes : s.scope < f.size ∧ s.lexicalScope < f.size
  /-- The name of a declaration is a word. -/
  name : s.isBuiltin = false → s.category ≠ .parameter →
    s.name ≠ [] ∧ (∀ c ∈ s.name, Text.isWord c = true) ∧ '@' ∉ s.name
  /-- A declaration stands in the scope of its line. -/
  place : s.isBuiltin = false → s.category ≠ .parameter → ∃ l row,
    listings.find? (·.file == s.file) = some l ∧ l.row? s.span.startLine = some row ∧
      s.lexicalScope = row.scope
  /-- Global are the built-in symbols and what is declared with an at-sign. -/
  isGlobal : s.isGlobal = true ↔ s.isBuiltin = true ∨ DeclaredWithAt r listings f s
  /-- Global symbols are hoisted, all others belong to the scope they stand in. -/
  hoisted : s.scope = if s.isGlobal then 0 else s.lexicalScope
  /-- Main are the declared symbols of a file whose first record holds the buffer. -/
  isMain : s.isMain = true ↔
    s.isBuiltin = false ∧ ∃ file, r.file? s.file = some file ∧ file.isMain = true
  /-- What is not built in goes back to a mark. -/
  source : s.isBuiltin = false → ∃ m span row, DeclaredBy r listings f s m span row

theorem isMainFile_iff {file : Nat} :
    isMainFile r file = true ↔ ∃ g, r.file? file = some g ∧ g.isMain = true := by
  unfold isMainFile
  cases r.file? file with
  | none => simp
  | some g => simp

theorem provided_wellFormed (h : s ∈ provided r) : WellFormed r listings f s := by
  obtain ⟨e, _, he⟩ := List.mem_filterMap.mp h
  obtain ⟨kind, _, rfl⟩ := Option.map_eq_some_iff.mp he
  have hzero : 0 < f.size := Nat.succ_pos _
  refine ⟨⟨hzero, hzero⟩, nofun, nofun, iff_of_true rfl (Or.inl rfl), rfl, ?_, nofun⟩
  exact iff_of_false Bool.false_ne_true nofun

theorem DeclaredBy.wellFormed (h : DeclaredBy r listings f s m span row)
    (hscopes : ∀ l ∈ listings, ∀ line, l.scopeAt line < f.size) : WellFormed r listings f s := by
  obtain ⟨l, hfile, hrow, _⟩ := h.symbol
  obtain ⟨d, doc, hd, hs⟩ := h.read
  obtain ⟨hindex, hmain⟩ := file_isMain_of_mem_symbolsOf hs
  have hbuiltin : s.isBuiltin = false := (symbolsOf_rooted hs).1
  have hglobal : s.isGlobal = true ↔ s.isBuiltin = true ∨ DeclaredWithAt r listings f s := by
    rw [h.isGlobal_iff_declaredWithAt, hbuiltin]
    simp
  have hbuffer : s.isMain = true ↔
      s.isBuiltin = false ∧ ∃ file, r.file? s.file = some file ∧ file.isMain = true := by
    rw [hmain, hindex, isMainFile_iff]
    exact (and_iff_right hbuiltin).symm
  have hsource : s.isBuiltin = false → ∃ m span row, DeclaredBy r listings f s m span row :=
    fun _ => ⟨m, span, row, h⟩
  rcases mem_symbolsOf_cases hs with rfl | ⟨body, ps, hbody, hparameter⟩
  -- a declaration stands in the scope of its row, a parameter in the body behind the name
  · have hlt : row.scope < f.size := by
      have hline := hscopes l (List.mem_of_find?_eq_some hfile) span.startLine
      rwa [Scope.Listing.scopeAt, hrow] at hline
    have hspelled := Declaration.read?_spelled hd
    refine ⟨⟨?_, hlt⟩, fun _ _ => ⟨hspelled.nonempty, hspelled.word, at_notMem_of_read? hd⟩,
      fun _ _ => ⟨l, row, hfile, hrow, rfl⟩, hglobal, rfl, hbuffer, hsource⟩
    dsimp only [ownSymbol]
    split
    · exact Nat.succ_pos _
    · exact hlt
  · obtain ⟨hcategory, hscope, hlexical, _⟩ := parameterSymbols_spec hparameter
    have hlocal := (parameterSymbols_local hparameter).1
    refine ⟨⟨hscope ▸ hbody, hlexical ▸ hbody⟩, fun _ hne => absurd hcategory hne,
      fun _ hne => absurd hcategory hne, hglobal, ?_, hbuffer, hsource⟩
    rw [hlocal, hscope, hlexical]
    rfl

/-! ## Built-in symbols -/

/-- The constants and functions among the entries of the libraries, of each name and kind the
first. -/
def firstEntries (entries : List LibraryEntry) : List LibraryEntry :=
  (entries.zipIdx.filter fun (e, i) => e.kind != .other &&
    (entries.take i).all fun e' => (e'.name, e'.kind) != (e.name, e.kind)).map Prod.fst

theorem map_some_filterMap_librarySymbol? (entries : List LibraryEntry) :
    (entries.filterMap librarySymbol?).map some =
      (entries.filter (·.kind != .other)).map librarySymbol? := by
  rw [List.map_filterMap, ← List.filterMap_eq_map, List.filterMap_filter]
  refine List.filterMap_congr fun e _ => ?_
  cases hkind : e.kind <;> simp [librarySymbol?, libraryKind?, hkind]

/-- The built-in symbols are those of the first entries. -/
theorem map_some_provided (r : Report) :
    (provided r).map some = (firstEntries r.libraries).map librarySymbol? := by
  rw [provided, map_some_filterMap_librarySymbol?, firsts, firstsFrom_eq_filter, List.filter_map,
    List.filter_filter, firstEntries]
  rfl

theorem isBuiltin_of_mem_provided (h : s ∈ provided r) : s.isBuiltin = true := by
  obtain ⟨e, _, he⟩ := List.mem_filterMap.mp h
  obtain ⟨kind, _, rfl⟩ := Option.map_eq_some_iff.mp he
  rfl

theorem filter_build_builtin (r : Report) (listings : List Scope.Listing) (f : Scope.Forest) :
    (build r listings f).symbols.filter (!·.isBuiltin) = declared r listings f ∧
      (build r listings f).symbols.filter (·.isBuiltin) = provided r := by
  have hdeclared : ∀ s ∈ declared r listings f, s.isBuiltin = false := fun s hs =>
    (declared_rooted hs).1
  have hprovided : ∀ s ∈ provided r, s.isBuiltin = true := fun s hs => isBuiltin_of_mem_provided hs
  constructor
  · rw [build_symbols, List.filter_append, List.filter_eq_self.mpr, List.filter_eq_nil_iff.mpr,
      List.append_nil]
    · intro s hs
      simp [hprovided s hs]
    · intro s hs
      simp [hdeclared s hs]
  · rw [build_symbols, List.filter_append, List.filter_eq_nil_iff.mpr,
      List.filter_eq_self.mpr hprovided, List.nil_append]
    intro s hs
    simp [hdeclared s hs]

/-! ## Catalogues -/

/-- A built catalogue is well formed, whatever the report says and whatever files are surveyed.
Each of its symbols is; marks that cannot declare anything leave no trace; the built-in symbols
stand behind all others and are those of the first entries of the libraries. So what is declared
with an at-sign is visible from every scope, and what is declared without it is visible exactly from
the scopes on whose walk outwards it stands. -/
theorem build_wellFormed (r : Report) (sheets : List Scope.Sheet) :
    let listings := (Scope.surveyAll {} sheets).1
    let c := build r listings (Scope.surveyAll {} sheets).2
    (∀ s ∈ c.symbols, WellFormed r listings c.forest s) ∧
    build { r with marks := r.marks.filter (counts r listings) } listings c.forest = c ∧
    (c.symbols = c.symbols.filter (!·.isBuiltin) ++ c.symbols.filter (·.isBuiltin) ∧
      (c.symbols.filter (·.isBuiltin)).map some = (firstEntries r.libraries).map librarySymbol?) ∧
    (∀ s ∈ c.symbols, s.isGlobal = true → ∀ scope, c.isVisible scope s = true) ∧
    ∀ s ∈ c.symbols, s.isGlobal = false → ∀ scope,
      (c.isVisible scope s = true ↔ s.lexicalScope ∈ c.forest.ancestors scope) := by
  intro listings c
  have hwell : ∀ s ∈ c.symbols, WellFormed r listings c.forest s := by
    intro s hs
    rcases List.mem_append.mp hs with hdeclared | hprovided
    · obtain ⟨m, span, row, h⟩ := exists_declaredBy hdeclared
      exact h.wellFormed fun l hl =>
        Scope.scopeAt_lt_size_surveyAll Scope.Forest.ordered_empty hl
    · exact provided_wellFormed hprovided
  obtain ⟨hdeclared, hprovided⟩ := filter_build_builtin r listings (Scope.surveyAll {} sheets).2
  refine ⟨hwell, build_filter_counts r listings _, ⟨?_, ?_⟩, ?_, ?_⟩
  · rw [hdeclared, hprovided]
    rfl
  · rw [hprovided]
    exact map_some_provided r
  · intro s _ hglobal scope
    rw [isVisible, hglobal, Bool.true_or, Bool.true_or]
  · intro s hs hlocal scope
    have hscope := (hwell s hs).hoisted
    rw [hlocal, if_neg Bool.false_ne_true] at hscope
    rw [(build_rooted r listings _).isVisible_iff hs, hscope]

/-- A namespace with two labels, of which the first is written with an at-sign, and a macro. -/
def hoistedSheets : List Scope.Sheet :=
  [⟨1, ".namespace n \x7b\n@a:\nb:\n\x7d\n.macro m(p) \x7b\n\x7d".toList, []⟩]

/-- Every declaration is marked, one of them again by a mark that does not count. The libraries name
one constant twice. -/
def hoistedReport : Report where
  libraries := [⟨"math".toList, .constant, "PI".toList, none⟩,
    ⟨"math".toList, .other, "x".toList, none⟩, ⟨"more".toList, .constant, "PI".toList, none⟩,
    ⟨"math".toList, .function, "PI".toList, some 1⟩]
  files := [⟨1, "main.asm".toList, false, true⟩]
  marks := [⟨.directive, some ⟨0, 0, 0, 10, 1⟩⟩, ⟨.label, some ⟨1, 0, 1, 3, 1⟩⟩,
    ⟨.label, some ⟨2, 0, 2, 2, 1⟩⟩, ⟨.directive, some ⟨4, 0, 4, 6, 1⟩⟩,
    ⟨.other "mnemonic".toList, some ⟨2, 0, 2, 2, 1⟩⟩]

theorem build_wellFormed_hoisted :
    let listings := (Scope.surveyAll {} hoistedSheets).1
    let c := build hoistedReport listings (Scope.surveyAll {} hoistedSheets).2
    (c.symbols.map fun s => (s.name, s.scope, s.lexicalScope, s.isGlobal, s.isBuiltin)) =
      [("n".toList, 0, 0, false, false), ("a".toList, 0, 1, true, false),
        ("b".toList, 1, 1, false, false), ("p".toList, 2, 2, false, false),
        ("m".toList, 0, 0, false, false), ("PI".toList, 0, 0, true, true),
        ("PI".toList, 0, 0, true, true)] ∧
    (∀ s ∈ c.symbols, WellFormed hoistedReport listings c.forest s) ∧
    (∀ s ∈ c.symbols, s.name = "a".toList → ∀ scope, c.isVisible scope s = true) ∧
    ∀ s ∈ c.symbols, s.name = "b".toList → ∀ scope,
      (c.isVisible scope s = true ↔ 1 ∈ c.forest.ancestors scope) := by
  intro listings c
  obtain ⟨hwell, _, _, hglobal, hlocal⟩ := build_wellFormed hoistedReport hoistedSheets
  have hsigned : ∀ s ∈ c.symbols, s.name = "a".toList → s.isGlobal = true := by decide +kernel
  have hunsigned : ∀ s ∈ c.symbols, s.name = "b".toList →
      s.isGlobal = false ∧ s.lexicalScope = 1 := by decide +kernel
  refine ⟨by decide +kernel, hwell, fun s hs hname => hglobal s hs (hsigned s hs hname), ?_⟩
  intro s hs hname scope
  obtain ⟨hunhoisted, hscope⟩ := hunsigned s hs hname
  rw [← hscope]
  exact hlocal s hs hunhoisted scope

end AsmLens.Catalogue
