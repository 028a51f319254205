import AsmLens.Catalogue.Build
import AsmLens.Proofs.Symbol.Prose

/-!
# Where declared symbols come from

A declared symbol belongs to a declaration read on a row of a surveyed file. It is the symbol of the
declaration itself or the symbol of one of its parameters. These lemmas say so once, for every
property of catalogues that follows the symbols back to the source.
-/

namespace AsmLens

section Firsts

variable {α β κ : Type} [BEq κ]

theorem mem_of_mem_firstsFrom {key : α → κ} {seen : List κ} {items : List α} {a : α}
    (h : a ∈ firstsFrom key seen items) : a ∈ items := by
  induction items generalizing seen with
  | nil => cases h
  | cons b rest ih =>
    rw [firstsFrom] at h
    split at h
    · exact List.mem_cons_of_mem b (ih h)
    · rcases List.mem_cons.mp h with rfl | h
      · exact List.mem_cons_self
      · exact List.mem_cons_of_mem b (ih h)

/-- Every key is kept with one item. -/
theorem exists_mem_firstsFrom [LawfulBEq κ] {key : α → κ} {seen : List κ} {items : List α} {a : α}
    (h : a ∈ items) (hnew : key a ∉ seen) : ∃ b ∈ firstsFrom key seen items, key b = key a := by
  induction items generalizing seen with
  | nil => cases h
  | cons b rest ih =>
    rw [firstsFrom]
    by_cases hkey : key b = key a
    · rw [if_neg (by rwa [List.contains_iff_mem, hkey])]
      exact ⟨b, List.mem_cons_self, hkey⟩
    · have hrest : a ∈ rest := by
        rcases List.mem_cons.mp h with rfl | hmem
        · exact absurd rfl hkey
        · exact hmem
      split
      · exact ih hrest hnew
      · have hnew' : key a ∉ key b :: seen := by
          intro hmem
          rcases List.mem_cons.mp hmem with heq | hseen
          · exact hkey heq.symm
          · exact hnew hseen
        obtain ⟨c, hc, hca⟩ := ih hrest hnew'
        exact ⟨c, List.mem_cons_of_mem b hc, hca⟩

/-- No key is kept twice, and none that was seen before. -/
theorem nodup_firstsFrom [LawfulBEq κ] (key : α → κ) (seen : List κ) (items : List α) :
    ((firstsFrom key seen items).map key).Nodup ∧
      ∀ k ∈ (firstsFrom key seen items).map key, k ∉ seen := by
  induction items generalizing seen with
  | nil => exact ⟨List.nodup_nil, by simp [firstsFrom]⟩
  | cons a rest ih =>
    rw [firstsFrom]
    split
    · exact ih seen
    · rename_i hnew
      rw [List.contains_iff_mem] at hnew
      obtain ⟨hnodup, hfresh⟩ := ih (key a :: seen)
      rw [List.map_cons]
      refine ⟨List.nodup_cons.mpr ⟨?_, hnodup⟩, ?_⟩
      · intro hmem
        exact hfresh (key a) hmem List.mem_cons_self
      · intro k hk hseen
        rcases List.mem_cons.mp hk with rfl | hk
        · exact hnew hseen
        · exact hfresh k hk (List.mem_cons_of_mem _ hseen)

theorem mem_map_firsts_iff [LawfulBEq κ] {key : α → κ} {items : List α} {k : κ} :
    k ∈ (firsts key items).map key ↔ k ∈ items.map key := by
  rw [List.mem_map, List.mem_map]
  constructor
  · rintro ⟨a, ha, hk⟩
    exact ⟨a, mem_of_mem_firstsFrom ha, hk⟩
  · rintro ⟨a, ha, rfl⟩
    exact exists_mem_firstsFrom ha List.not_mem_nil

/-- Which keys are kept depends on which items there are and not on their order or number. -/
theorem map_firsts_perm [LawfulBEq κ] (key : α → κ) {items items' : List α}
    (h : ∀ a, a ∈ items ↔ a ∈ items') :
    ((firsts key items).map key).Perm ((firsts key items').map key) := by
  have hnodup : ∀ xs : List α, ((firsts key xs).map key).Nodup := fun xs =>
    (nodup_firstsFrom key [] xs).1
  rw [List.perm_ext_iff_of_nodup (hnodup items) (hnodup items')]
  intro k
  rw [mem_map_firsts_iff, mem_map_firsts_iff, List.mem_map, List.mem_map]
  simp only [h]

/-- Whether the key of an item at an index is neither in `seen` nor the key of an earlier item. -/
def isFirst (key : α → κ) (seen : List κ) (items : List α) (p : α × Nat) : Bool :=
  !seen.contains (key p.1) && (items.take p.2).all (key · != key p.1)

/-- Behind the first item its key counts as seen. -/
theorem isFirst_cons_succ [LawfulBEq κ] (key : α → κ) (seen : List κ) (b : α) (rest : List α)
    (p : α × Nat) :
    isFirst key seen (b :: rest) (p.1, p.2 + 1) = isFirst key (key b :: seen) rest p := by
  rw [Bool.eq_iff_iff]
  simp only [isFirst, List.take_succ_cons, List.all_cons, Bool.and_eq_true, Bool.not_eq_true',
    List.contains_eq_mem, decide_eq_false_iff_not, bne_iff_ne, List.mem_cons, not_or]
  constructor
  · rintro ⟨hseen, hne, hall⟩
    exact ⟨⟨hne.symm, hseen⟩, hall⟩
  · rintro ⟨⟨hne, hseen⟩, hall⟩
    exact ⟨hseen, Ne.symm hne, hall⟩

theorem firstsFrom_eq_filter [LawfulBEq κ] (key : α → κ) (seen : List κ) (items : List α) :
    firstsFrom key seen items = (items.zipIdx.filter (isFirst key seen items)).map Prod.fst := by
  induction items generalizing seen with
  | nil => rfl
  | cons b rest ih =>
    have hrest : ((rest.zipIdx.map (Prod.map id (· + 1))).filter
        (isFirst key seen (b :: rest))).map Prod.fst = firstsFrom key (key b :: seen) rest := by
      rw [List.filter_map, List.map_map, ih]
      exact congrArg (List.map Prod.fst)
        (List.filter_congr fun p _ => isFirst_cons_succ key seen b rest p)
    rw [firstsFrom, List.zipIdx_cons', List.filter_cons]
    by_cases hb : seen.contains (key b) = true
    · have hfirst : ¬ isFirst key seen (b :: rest) (b, 0) = true := by
        rw [isFirst, hb]
        exact Bool.false_ne_true
      have hseen : ∀ k, (key b :: seen).contains k = seen.contains k := by
        intro k
        by_cases hk : k = key b
        · rw [hk, hb, List.contains_cons, beq_self_eq_true, Bool.true_or]
        · rw [List.contains_cons, beq_false_of_ne hk, Bool.false_or]
      have hsame : isFirst key (key b :: seen) rest = isFirst key seen rest := by
        funext p
        rw [isFirst, isFirst, hseen]
      rw [if_pos hb, if_neg hfirst, hrest, ih, ih, hsame]
    · have hfirst : isFirst key seen (b :: rest) (b, 0) = true := by simpa [isFirst] using hb
      rw [if_neg hb, if_pos hfirst, List.map_cons, hrest]

theorem firstsFrom_map (key : β → κ) (g : α → β) (seen : List κ) (items : List α) :
    firstsFrom key seen (items.map g) = (firstsFrom (key ∘ g) seen items).map g := by
  induction items generalizing seen with
  | nil => rfl
  | cons a rest ih =>
    rw [List.map_cons, firstsFrom, firstsFrom, ih, ih]
    simp only [Function.comp_apply]
    split <;> rfl

end Firsts

namespace Catalogue

/-- The kind of a declaration with its documentation folded in. -/
def documented (kind : SymbolKind) (doc : Option Doc) : SymbolKind :=
  match doc, kind.parameters? with
  | some doc, some ps => kind.withParameters (doc.annotate ps)
  | _, _ => kind

/-- One pass over the documentation gives the documented kind and the text. -/
lemma document_eq (kind : SymbolKind) (doc : Option Doc) :
    document kind doc = (documented kind doc, doc.bind Doc.text?) := by
  cases doc with
  | none => rfl
  | some doc =>
    rw [document, Doc.render_eq]
    cases kind <;> rfl

/-- The stretch of a declaration's name, for a declaration read at a position. -/
def nameSpan (file line column : Nat) (d : Declaration) : Span :=
  Span.onLine file line (column + d.column) (column + d.column + d.name.length)

/-- The symbol of a declaration itself. -/
def ownSymbol (isMain : Bool) (file line column scope : Nat) (d : Declaration)
    (doc : Option Doc) : Symbol where
  name := d.name
  kind := documented d.kind doc
  scope := if d.hoisted then 0 else scope
  lexicalScope := scope
  file := file
  span := nameSpan file line column d
  doc := doc.bind Doc.text?
  isGlobal := d.hoisted
  isMain := isMain
  isBuiltin := false

theorem symbolsOf_eq (f : Scope.Forest) (isMain : Bool) (file line column scope : Nat)
    (d : Declaration) (doc : Option Doc) :
    symbolsOf f isMain file line column scope d doc =
      (match body? f file line scope d.name (documented d.kind doc) with
        | some body => parameterSymbols (nameSpan file line column d) isMain body
            ((documented d.kind doc).parameters?.getD [])
        | none => []) ++ [ownSymbol isMain file line column scope d doc] := by
  rw [symbolsOf, document_eq]
  rfl

lemma build_symbols (r : Report) (listings : List Scope.Listing) (f : Scope.Forest) :
    (build r listings f).symbols = declared r listings f ++ provided r := rfl

variable {r : Report} {listings : List Scope.Listing} {f : Scope.Forest} {s : Symbol}

theorem target?_eq_some_iff {m : Mark} {l : Scope.Listing} {span : Span} :
    target? r listings m = some (l, span) ↔ m.kind.declares = true ∧ m.span = some span ∧
      r.isSystem span.file = false ∧ listings.find? (·.file == span.file) = some l := by
  unfold target?
  split
  · rename_i span' hkind hspan
    rw [hkind, hspan]
    split
    · rename_i hsystem
      refine iff_of_false nofun ?_
      rintro ⟨_, heq, howned, _⟩
      cases heq
      exact Bool.false_ne_true (howned.symm.trans hsystem)
    · rename_i hsystem
      simp only [Option.map_eq_some_iff, Prod.mk.injEq, Option.some.injEq, true_and]
      constructor
      · rintro ⟨l', hl', rfl, rfl⟩
        exact ⟨rfl, Bool.eq_false_iff.mpr hsystem, hl'⟩
      · rintro ⟨rfl, _, hl⟩
        exact ⟨l, hl, rfl, rfl⟩
  · rename_i hother
    refine iff_of_false nofun ?_
    rintro ⟨hkind, hspan, _⟩
    exact hother span hkind hspan

/-- A target of a mark lies in the first surveyed file of its index. -/
theorem find?_of_mem_targets {l : Scope.Listing} {span : Span}
    (h : (l, span) ∈ targets r listings) :
    listings.find? (·.file == span.file) = some l := by
  obtain ⟨m, _, hm⟩ := List.mem_filterMap.mp (mem_of_mem_firstsFrom h)
  exact (target?_eq_some_iff.mp hm).2.2.2

theorem declaredAt_eq (isMain : Bool) {l : Scope.Listing} {span : Span} {row : Scope.Row}
    {d : Declaration} (hrow : l.row? span.startLine = some row)
    (hd : Declaration.read? (markedText row span.startColumn) = some d) :
    declaredAt f isMain l span =
      symbolsOf f isMain span.file span.startLine span.startColumn row.scope d
        (Doc.find? l.rows span.startLine span.startColumn) := by
  simp [declaredAt, hrow, hd]

/-- A symbol that is declared at a span belongs to a declaration read on the row of the span. -/
theorem exists_row_of_mem_declaredAt {isMain : Bool} {l : Scope.Listing} {span : Span}
    (h : s ∈ declaredAt f isMain l span) :
    ∃ row d, l.row? span.startLine = some row ∧
      Declaration.read? (markedText row span.startColumn) = some d ∧
      s ∈ symbolsOf f isMain span.file span.startLine span.startColumn row.scope d
        (Doc.find? l.rows span.startLine span.startColumn) := by
  cases hrow : l.row? span.startLine with
  | none => simp [declaredAt, hrow] at h
  | some row =>
    cases hd : Declaration.read? (markedText row span.startColumn) with
    | none => simp [declaredAt, hrow, hd] at h
    | some d =>
      rw [declaredAt_eq _ hrow hd] at h
      exact ⟨row, d, rfl, hd, h⟩

/-- A declared symbol is one of the symbols of a declaration read on a surveyed row, and the symbol
of the declaration itself is declared too. -/
theorem exists_declaration (h : s ∈ declared r listings f) :
    ∃ (l : Scope.Listing) (span : Span) (row : Scope.Row) (d : Declaration) (doc : Option Doc),
      listings.find? (·.file == span.file) = some l ∧
      l.row? span.startLine = some row ∧
      Declaration.read? (markedText row span.startColumn) = some d ∧
      s ∈ symbolsOf f (isMainFile r span.file) span.file span.startLine span.startColumn row.scope d
        doc ∧
      ownSymbol (isMainFile r span.file) span.file span.startLine span.startColumn row.scope d doc ∈
        declared r listings f := by
  obtain ⟨⟨l, span⟩, htarget, hs⟩ := List.mem_flatMap.mp h
  obtain ⟨row, d, hrow, hd, hs⟩ := exists_row_of_mem_declaredAt hs
  refine ⟨l, span, row, d, _, find?_of_mem_targets htarget, hrow, hd, hs,
    List.mem_flatMap.mpr ⟨(l, span), htarget, ?_⟩⟩
  dsimp only
  rw [declaredAt_eq _ hrow hd, symbolsOf_eq]
  exact List.mem_append_right _ (List.mem_singleton_self _)

end Catalogue

end AsmLens
