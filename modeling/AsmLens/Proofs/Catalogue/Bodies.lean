import AsmLens.Proofs.Catalogue.Comments
import AsmLens.Proofs.Catalogue.NameSpans
import AsmLens.Proofs.Catalogue.Resolution
import AsmLens.Proofs.Scope.Opened
import AsmLens.Proofs.Symbol.Opening

/-!
# Bodies

The survey reads a declaration at the front of a line, and the catalogue reads one at a mark. Where
nothing but white space stands in front of the mark they read the same declaration, so the scope
that the survey opens is the one that the catalogue looks for, and the parameters of a callable live
in its body. In the other direction, every parameter lives in the body of a callable that lists it.
-/

namespace AsmLens.Catalogue

/-- A declaration of a macro, a function, a pseudocommand or a namespace is read at a column of a
row, with nothing but white space in front of it, and the row opens a block. -/
structure DeclaresBlock (row : Scope.Row) (column : Nat) (d : Declaration) (kind : Scope.Kind) :
    Prop where
  front : ∀ c ∈ row.bare.take column, Text.isSpace c = true
  read : Declaration.read? (markedText row column) = some d
  owned : Outline.ownedKind? d.kind.category = some kind
  notLabel : kind ≠ .label
  block : Scope.OpensBlock row.bare

/-- A mark that can introduce a declaration points at a position of a file, and the file is none of
the assembler's own. -/
def MarkedAt (r : Report) (file line column : Nat) : Prop :=
  r.isSystem file = false ∧ ∃ m ∈ r.marks, m.kind.declares = true ∧ ∃ span, m.span = some span ∧
    span.file = file ∧ span.startLine = line ∧ span.startColumn = column

/-- The catalogue holds the callable that is declared at a position in a scope, and just before it,
in order, the symbols of its parameters, which stand in the scope `body`. -/
def HoldsCallable (c : Catalogue) (file line column scope : Nat) (d : Declaration) (body : Nat) :
    Prop :=
  ∃ first ps own rest, c.symbols = first ++ ps ++ own :: rest ∧
    own.name = d.name ∧ own.category = d.kind.category ∧ own.lexicalScope = scope ∧
    own.file = file ∧ own.span = nameSpan file line column d ∧
    own.parameters.map (·.name) = (d.kind.parameters?.getD []).map (·.name) ∧
    (ps.map fun p => (p.name, p.kind)) = (own.parameters.map fun p => (p.name, .parameter p)) ∧
    ∀ p ∈ ps, p.scope = body ∧ p.lexicalScope = body ∧ p.file = file

/-! ## From a mark to the symbols of its declaration -/

section Marks

variable {r : Report} {listings : List Scope.Listing} {f : Scope.Forest}

/-- Every marked position of a surveyed file has one target. -/
lemma exists_target {l : Scope.Listing} {file line column : Nat} (h : MarkedAt r file line column)
    (hlisting : listings.find? (·.file == file) = some l) :
    ∃ span, (l, span) ∈ targets r listings ∧ span.file = file ∧ span.startLine = line ∧
      span.startColumn = column := by
  obtain ⟨hsystem, m, hm, hdeclares, span, hspan, rfl, rfl, rfl⟩ := h
  have htarget : target? r listings m = some (l, span) := by
    simp [target?, hdeclares, hspan, hsystem, hlisting]
  obtain ⟨⟨l', span'⟩, hmem, hkey⟩ : ∃ t ∈ targets r listings,
      (t.2.file, t.2.startLine, t.2.startColumn) =
        (span.file, span.startLine, span.startColumn) :=
    exists_mem_firstsFrom (List.mem_filterMap.mpr ⟨m, hm, htarget⟩) List.not_mem_nil
  obtain ⟨hfile, hplace⟩ := Prod.mk.inj hkey
  obtain ⟨hline, hcolumn⟩ := Prod.mk.inj hplace
  have hfound := find?_of_mem_targets hmem
  dsimp only at hfile
  rw [hfile, hlisting] at hfound
  cases hfound
  exact ⟨span', hmem, hfile, hline, hcolumn⟩

/-- The symbols of a declaration stand together in the catalogue. -/
lemma exists_symbols_of_target {l : Scope.Listing} {span : Span} {row : Scope.Row} {d : Declaration}
    (htarget : (l, span) ∈ targets r listings) (hrow : l.row? span.startLine = some row)
    (hd : Declaration.read? (markedText row span.startColumn) = some d) :
    ∃ first rest isMain doc, (build r listings f).symbols =
      first ++ symbolsOf f isMain span.file span.startLine span.startColumn row.scope d doc ++
        rest := by
  obtain ⟨before, after, hsplit⟩ := List.append_of_mem htarget
  let declaredBy := fun t : Scope.Listing × Span => declaredAt f (isMainFile r t.2.file) t.1 t.2
  refine ⟨before.flatMap declaredBy, after.flatMap declaredBy ++ provided r,
    isMainFile r span.file, Doc.find? l.rows span.startLine span.startColumn, ?_⟩
  have hdeclared : declared r listings f =
      before.flatMap declaredBy ++ (declaredBy (l, span) ++ after.flatMap declaredBy) := by
    rw [declared, hsplit, List.flatMap_append, List.flatMap_cons]
  rw [build_symbols, hdeclared, ← declaredAt_eq (isMainFile r span.file) hrow hd]
  simp only [List.append_assoc]
  rfl

lemma parameterNames_documented (kind : SymbolKind) (doc : Option Doc) :
    ((documented kind doc).parameters?.getD []).map (·.name) =
      (kind.parameters?.getD []).map (·.name) := by
  have hname : ∀ ps : List Parameter,
      (ps.map Parameter.undocumented).map (·.name) = ps.map (·.name) := by
    intro ps
    rw [List.map_map]
    rfl
  rw [← hname, ← parameters?_undocumented, (documented_undocumented kind doc).1,
    parameters?_undocumented, hname]

/-- The symbols of a callable are its parameters, in its body, and the callable. -/
lemma holdsCallable_of_symbols {c : Catalogue} {file line column scope body : Nat}
    {d : Declaration} {first rest : List Symbol} {isMain : Bool} {doc : Option Doc}
    (hbody : body? f file line scope d.name d.kind = some body)
    (h : c.symbols = first ++ symbolsOf f isMain file line column scope d doc ++ rest) :
    HoldsCallable c file line column scope d body := by
  have hbody' : body? f file line scope d.name (documented d.kind doc) = some body := by
    rw [← hbody, body?, body?, (documented_undocumented d.kind doc).2]
  rw [symbolsOf_eq, hbody'] at h
  refine ⟨first, parameterSymbols (nameSpan file line column d) isMain body
    ((documented d.kind doc).parameters?.getD []), ownSymbol isMain file line column scope d doc,
    rest, ?_, rfl, category_documented d.kind doc, rfl, rfl, rfl,
    parameterNames_documented d.kind doc, ?_, ?_⟩
  · simpa only [List.append_assoc, List.singleton_append] using h
  · rw [parameterSymbols, List.map_map]
    rfl
  · intro p hp
    obtain ⟨q, _, rfl⟩ := List.mem_map.mp hp
    exact ⟨rfl, rfl, rfl⟩

lemma bodyKind?_of_owned {k : SymbolKind} {kind : Scope.Kind}
    (h : Outline.ownedKind? k.category = some kind) (hlabel : kind ≠ .label)
    (hnamespace : kind ≠ .nameSpace) : bodyKind? k = some kind := by
  cases k <;> cases h
  case namedLabel => exact absurd rfl hlabel
  case nameSpace => exact absurd rfl hnamespace
  all_goals rfl

end Marks

/-! ## The scope of a declaration -/

/-- The survey opens a scope for what it reads on a line that opens a block, and the search finds
it. -/
lemma openedAs_of_opening {before : List Scope.Sheet} {s : Scope.Sheet} (after : List Scope.Sheet)
    {line : Nat} {row : Scope.Row} {o : Scope.Opening} (hfirst : ∀ t ∈ before, t.file ≠ s.file)
    (hrow : (Scope.survey (Scope.surveyAll {} before).2 s.file s.text s.comments).1.row? line =
      some row) (hopening : Scope.Opening.ofLine? row.bare = some o)
    (hblock : Scope.OpensBlock row.bare) :
    ∃ id, Scope.OpenedAs (Scope.surveyAll {} before).2
      (Scope.survey (Scope.surveyAll {} before).2 s.file s.text s.comments).2
      (Scope.surveyAll {} (before ++ s :: after)).2 ⟨row.scope, o.name, o.kind, line, s.file⟩
      id := by
  have hgrown := Scope.survey_isPrefix_surveyAll Scope.Forest.ordered_empty before s after
  have hordered := (Scope.surveyAll_grows Scope.Forest.ordered_empty before).1
  refine Scope.survey_openedAs hordered hgrown ?_ hrow hopening hblock
  intro n hn hfile
  rcases Scope.exists_sheet_of_mem_nodes hn with hempty | ⟨t, ht, htfile⟩
  · cases hempty
  · exact hfirst t ht (htfile.symm.trans hfile)

/-- The survey opens a scope for every declaration of a block. -/
lemma DeclaresBlock.openedAs {before : List Scope.Sheet} {s : Scope.Sheet}
    (after : List Scope.Sheet) {line column : Nat} {row : Scope.Row} {d : Declaration}
    {kind : Scope.Kind} (hfirst : ∀ t ∈ before, t.file ≠ s.file)
    (hrow : (Scope.survey (Scope.surveyAll {} before).2 s.file s.text s.comments).1.row? line =
      some row) (h : DeclaresBlock row column d kind) :
    ∃ id, Scope.OpenedAs (Scope.surveyAll {} before).2
      (Scope.survey (Scope.surveyAll {} before).2 s.file s.text s.comments).2
      (Scope.surveyAll {} (before ++ s :: after)).2 ⟨row.scope, d.name, kind, line, s.file⟩ id :=
  openedAs_of_opening after hfirst hrow
    (Scope.Opening.ofLine?_of_read? h.front h.read h.owned h.notLabel) h.block

lemma at_notMem_of_read? {t : Text} {d : Declaration} (h : Declaration.read? t = some d) :
    '@' ∉ d.name := by
  intro hat
  have hword := (Declaration.read?_spelled h).word _ hat
  revert hword
  decide

/-! ## The scope of a parameter -/

/-- A parameter lives in the body of a callable that lists it. -/
lemma exists_body_of_parameter {r : Report} {sheets : List Scope.Sheet} {s : Symbol} {p : Parameter}
    (h : s ∈ (build r (Scope.surveyAll {} sheets).1 (Scope.surveyAll {} sheets).2).symbols)
    (hkind : s.kind = .parameter p) :
    ∃ n o, (Scope.surveyAll {} sheets).2.node? s.scope = some n ∧ n.file = s.file ∧
      o ∈ (build r (Scope.surveyAll {} sheets).1 (Scope.surveyAll {} sheets).2).symbols ∧
      p ∈ o.parameters ∧ n.name = o.name ∧ bodyKind? o.kind = some n.kind := by
  have hcategory : s.category = .parameter := by
    rw [Symbol.category, hkind]
    rfl
  obtain ⟨o, hdenotes, _⟩ := declared_denotes (declared_of_parameter h hcategory)
  rw [Denotes, hkind] at hdenotes
  obtain ⟨ho, _, _, hp, _, hbody, hfile, _⟩ := hdenotes
  obtain ⟨kind, hbodyKind, hopened⟩ := Option.bind_eq_some_iff.mp hbody
  obtain ⟨n, hn, hnfile, hnkind, _, hname, _⟩ := Scope.Forest.node?_of_openedBy hopened
  exact ⟨n, o, hn, hnfile.trans hfile.symm, ho, hp, hname, hnkind ▸ hbodyKind⟩

/-- Survey and catalogue agree on bodies. A declaration of a block at the front of a line opens one
scope with its name and kind, which is found by its marks and holds the parameters of a callable. In
the other direction, a parameter stands in the body of a callable that lists it and is visible from
there inwards only. -/
theorem build_bodies_agree (r : Report) (sheets : List Scope.Sheet) :
    let c := build r (Scope.surveyAll {} sheets).1 (Scope.surveyAll {} sheets).2
    (∀ before s after, sheets = before ++ s :: after → (∀ t ∈ before, t.file ≠ s.file) →
      let start := (Scope.surveyAll {} before).2
      let run := Scope.survey start s.file s.text s.comments
      ∀ line row column d kind, run.1.row? line = some row → DeclaresBlock row column d kind →
        '@' ∉ d.name ∧
        ∃ id, Scope.OpenedAs start run.2 c.forest ⟨row.scope, d.name, kind, line, s.file⟩ id ∧
          (kind ≠ .nameSpace → MarkedAt r s.file line column →
            HoldsCallable c s.file line column row.scope d id)) ∧
    (∀ s ∈ c.symbols, ∀ p, s.kind = .parameter p →
      (∃ n o, c.forest.node? s.scope = some n ∧ n.file = s.file ∧ o ∈ c.symbols ∧
        p ∈ o.parameters ∧ n.name = o.name ∧ bodyKind? o.kind = some n.kind) ∧
      ∀ scope, s ∈ c.visibleFrom scope ↔ s.scope ∈ c.forest.ancestors scope) := by
  intro c
  refine ⟨?_, ?_⟩
  · rintro before s after rfl hfirst start run line row column d kind hrow hdeclares
    obtain ⟨id, hopened⟩ := hdeclares.openedAs after hfirst hrow
    refine ⟨at_notMem_of_read? hdeclares.read, id, hopened, ?_⟩
    intro hcallable hmarked
    obtain ⟨span, htarget, hfile, hline, hcolumn⟩ :=
      exists_target hmarked (Scope.find?_surveyAll_first {} after hfirst)
    obtain ⟨front, rest, isMain, doc, hsymbols⟩ := exists_symbols_of_target (f := c.forest) htarget
      (hline.symm ▸ hrow) (hcolumn.symm ▸ hdeclares.read)
    rw [hfile, hline, hcolumn] at hsymbols
    refine holdsCallable_of_symbols ?_ hsymbols
    rw [body?, bodyKind?_of_owned hdeclares.owned hdeclares.notLabel hcallable]
    exact hopened.found
  · intro s hs p hkind
    refine ⟨exists_body_of_parameter hs hkind, fun scope => ?_⟩
    rw [visibleFrom, List.mem_filter, (build_rooted r _ _).isVisible_iff hs]
    exact and_iff_right hs

/-- Two macros of one name, the first of them with an at-sign. -/
def overloadedReport : Report where
  marks := [⟨.directive, some ⟨0, 1, 0, 7, 1⟩⟩, ⟨.directive, some ⟨3, 0, 3, 6, 1⟩⟩]

def overloadedSheet : Scope.Sheet :=
  ⟨1, " .macro @m(a, b) \x7b\n lda a\n\x7d\n.macro m(c) \x7b\n\x7d".toList, []⟩

theorem build_bodies_agree_overloaded :
    let run := Scope.surveyAll {} [overloadedSheet]
    let c := build overloadedReport run.1 run.2
    let d : Declaration := ⟨false, "m".toList, 7, .macroDef [{ name := "c".toList }]⟩
    DeclaresBlock ⟨3, 0, ".macro m(c) \x7b".toList, ".macro m(c) \x7b".toList⟩ 0 d .macroBody ∧
    MarkedAt overloadedReport 1 3 0 ∧
    (∃ id, c.forest.openedBy 1 0 "m".toList .macroBody 3 = some id ∧
      HoldsCallable c 1 3 0 0 d id) ∧
    c.symbols.map (fun s => (s.name, s.scope)) =
      [("a".toList, 1), ("b".toList, 1), ("m".toList, 0), ("c".toList, 2), ("m".toList, 0)] := by
  intro run c d
  have hdeclares : DeclaresBlock ⟨3, 0, ".macro m(c) \x7b".toList, ".macro m(c) \x7b".toList⟩ 0 d
      .macroBody := by
    refine ⟨?_, by decide +kernel, rfl, nofun, ".macro m(c) ".toList, [], rfl, by decide⟩
    rw [List.take_zero]
    exact nofun
  have hmarked : MarkedAt overloadedReport 1 3 0 :=
    ⟨by decide, _, List.mem_cons_of_mem _ List.mem_cons_self, rfl, _, rfl, rfl, rfl, rfl⟩
  obtain ⟨_, id, hopened, hholds⟩ := (build_bodies_agree overloadedReport [overloadedSheet]).1 []
    overloadedSheet [] rfl nofun 3 _ 0 d .macroBody (by decide +kernel) hdeclares
  exact ⟨hdeclares, hmarked, ⟨id, hopened.found, hholds nofun hmarked⟩, by decide +kernel⟩

end AsmLens.Catalogue
