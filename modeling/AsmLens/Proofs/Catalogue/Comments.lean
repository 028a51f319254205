import AsmLens.Proofs.Catalogue.Declared
import AsmLens.Proofs.Scope.Rows

/-!
# Comments say nothing about the program

The raw text of a row is read for one purpose, to find the documentation of a declaration, and the
documentation reaches a symbol in two places: its doc text, and the kind, description and option
mark of its parameters. With these taken away, a catalogue is the same whether its rows carry
their raw text or not. Together with the survey, which never looks at raw text, this makes the whole
catalogue independent of what stands in the reported comments.
-/

namespace AsmLens

def Parameter.undocumented (p : Parameter) : Parameter := { name := p.name }

def SymbolKind.undocumented : SymbolKind → SymbolKind
  | .function ps => .function (ps.map Parameter.undocumented)
  | .macroDef ps => .macroDef (ps.map Parameter.undocumented)
  | .pseudoCommand ps => .pseudoCommand (ps.map Parameter.undocumented)
  | .parameter p => .parameter p.undocumented
  | other => other

/-- The symbol without what documentation can say about it: its doc text, and of its parameters all
but their names. -/
def Symbol.undocumented (s : Symbol) : Symbol :=
  { s with kind := s.kind.undocumented, doc := none }

/-! ## Annotations -/

theorem ParameterNote.map_undocumented_apply (a : ParameterNote) (ps : List Parameter) :
    (a.apply ps).map Parameter.undocumented = ps.map Parameter.undocumented := by
  induction ps with
  | nil => rfl
  | cons p ps ih =>
    rw [apply]
    split
    · rfl
    · rw [List.map_cons, List.map_cons, ih]

theorem Doc.map_undocumented_annotate (d : Doc) (ps : List Parameter) :
    (d.annotate ps).map Parameter.undocumented = ps.map Parameter.undocumented := by
  rw [annotate]
  induction d.notes generalizing ps with
  | nil => rfl
  | cons a notes ih => rw [List.foldl_cons, ih, a.map_undocumented_apply]

namespace Catalogue

theorem map_undocumented_parameterSymbols (span : Span) (isMain : Bool) (body : Nat)
    (ps : List Parameter) :
    (parameterSymbols span isMain body ps).map Symbol.undocumented =
      parameterSymbols span isMain body (ps.map Parameter.undocumented) := by
  rw [parameterSymbols, parameterSymbols, List.map_map, List.map_map]
  rfl

theorem documented_undocumented (kind : SymbolKind) (doc : Option Doc) :
    (documented kind doc).undocumented = kind.undocumented ∧
      bodyKind? (documented kind doc) = bodyKind? kind := by
  cases doc with
  | none => exact ⟨rfl, rfl⟩
  | some doc =>
    cases kind with
    | function ps =>
      exact ⟨congrArg SymbolKind.function (doc.map_undocumented_annotate ps), rfl⟩
    | macroDef ps =>
      exact ⟨congrArg SymbolKind.macroDef (doc.map_undocumented_annotate ps), rfl⟩
    | pseudoCommand ps =>
      exact ⟨congrArg SymbolKind.pseudoCommand (doc.map_undocumented_annotate ps), rfl⟩
    | namedLabel => exact ⟨rfl, rfl⟩
    | label v => exact ⟨rfl, rfl⟩
    | constant v => exact ⟨rfl, rfl⟩
    | var v => exact ⟨rfl, rfl⟩
    | nameSpace => exact ⟨rfl, rfl⟩
    | parameter p => exact ⟨rfl, rfl⟩
    | flag => exact ⟨rfl, rfl⟩

theorem parameters?_undocumented (kind : SymbolKind) :
    kind.undocumented.parameters?.getD [] =
      (kind.parameters?.getD []).map Parameter.undocumented := by
  cases kind <;> rfl

/-- The documentation of a declaration shows in nothing but the documented parts of its symbols. -/
theorem map_undocumented_symbolsOf (f : Scope.Forest) (isMain : Bool)
    (file line column scope : Nat) (d : Declaration) (doc : Option Doc) :
    (symbolsOf f isMain file line column scope d doc).map Symbol.undocumented =
      (symbolsOf f isMain file line column scope d none).map Symbol.undocumented := by
  obtain ⟨hkind, hbodyKind⟩ := documented_undocumented d.kind doc
  have hbody : body? f file line scope d.name (documented d.kind doc) =
      body? f file line scope d.name d.kind := by
    rw [body?, body?, hbodyKind]
  have hown : (ownSymbol isMain file line column scope d doc).undocumented =
      (ownSymbol isMain file line column scope d none).undocumented := by
    simp only [Symbol.undocumented, ownSymbol, hkind]
    rfl
  have hparameters : ((documented d.kind doc).parameters?.getD []).map Parameter.undocumented =
      (d.kind.parameters?.getD []).map Parameter.undocumented := by
    rw [← parameters?_undocumented, ← parameters?_undocumented, hkind]
  rw [symbolsOf_eq, symbolsOf_eq, hbody, List.map_append, List.map_append, List.map_singleton,
    List.map_singleton, hown]
  refine congrArg (· ++ _) ?_
  rw [show documented d.kind none = d.kind from rfl]
  cases body? f file line scope d.name d.kind with
  | none => rfl
  | some body =>
    dsimp only
    rw [map_undocumented_parameterSymbols, map_undocumented_parameterSymbols, hparameters]

/-! ## Rows without their raw text -/

theorem map_undocumented_declaredAt (f : Scope.Forest) (isMain : Bool) (l : Scope.Listing)
    (s : Span) :
    (declaredAt f isMain l s).map Symbol.undocumented =
      (declaredAt f isMain l.withoutRaw s).map Symbol.undocumented := by
  simp only [declaredAt, l.row?_withoutRaw]
  cases l.row? s.startLine with
  | none => rfl
  | some row =>
    have hmarked : markedText row.withoutRaw s.startColumn = markedText row s.startColumn := rfl
    simp only [Option.map_some, hmarked]
    cases Declaration.read? (markedText row s.startColumn) with
    | none => rfl
    | some d =>
      dsimp only
      rw [map_undocumented_symbolsOf, map_undocumented_symbolsOf _ _ _ _ _ row.withoutRaw.scope]
      rfl

theorem target?_withoutRaw (r : Report) (listings : List Scope.Listing) (m : Mark) :
    target? r (listings.map Scope.Listing.withoutRaw) m =
      (target? r listings m).map fun (l, s) => (l.withoutRaw, s) := by
  unfold target?
  split
  · split
    · rfl
    · rw [List.find?_map, Option.map_map, Option.map_map]
      rfl
  · rfl

theorem targets_withoutRaw (r : Report) (listings : List Scope.Listing) :
    targets r (listings.map Scope.Listing.withoutRaw) =
      (targets r listings).map fun (l, s) => (l.withoutRaw, s) := by
  have htargets : r.marks.filterMap (target? r (listings.map Scope.Listing.withoutRaw)) =
      (r.marks.filterMap (target? r listings)).map fun (l, s) => (l.withoutRaw, s) := by
    rw [List.map_filterMap]
    exact List.filterMap_congr fun m _ => target?_withoutRaw r listings m
  rw [targets, htargets]
  exact firstsFrom_map _ _ [] _

/-- Raw text is read for documentation only. -/
theorem map_undocumented_declared (r : Report) (listings : List Scope.Listing) (f : Scope.Forest) :
    (declared r listings f).map Symbol.undocumented =
      (declared r (listings.map Scope.Listing.withoutRaw) f).map Symbol.undocumented := by
  rw [declared, declared, targets_withoutRaw, List.map_flatMap, List.map_flatMap, List.flatMap_map]
  exact List.flatMap_congr fun t _ => map_undocumented_declaredAt f _ t.1 t.2

/-! ## Sources that differ in their comments -/

/-- The sources of a report's files as sheets, with the comments that the report marks. -/
def sheetsOf (r : Report) (sources : List (Nat × Text)) : List Scope.Sheet :=
  sources.map fun (file, text) => ⟨file, text, r.commentSpans file⟩

/-- Two sources are of one file and differ inside the reported comments of the file only. -/
def SameCode (r : Report) (a b : Nat × Text) : Prop :=
  a.1 = b.1 ∧ Source.SameOutside (r.commentSpans a.1) (Source.lines a.2) (Source.lines b.2)

theorem sameCode_sheetsOf {r : Report} {sources sources' : List (Nat × Text)}
    (h : List.Forall₂ (SameCode r) sources sources') :
    List.Forall₂ Scope.Sheet.SameCode (sheetsOf r sources) (sheetsOf r sources') := by
  rw [sheetsOf, sheetsOf, List.forall₂_map_left_iff, List.forall₂_map_right_iff]
  refine h.imp ?_
  rintro ⟨file, text⟩ ⟨file', text'⟩ ⟨hfile, hsource⟩
  cases hfile
  exact ⟨rfl, rfl, hsource⟩

/-- What stands in comments does not reach the model of the program. Sources that differ inside the
reported comments only give the same scopes, put every line into the same scope, and declare the
same symbols in the same order, but for their documentation. -/
theorem build_blind_to_comments (r : Report) (sources sources' : List (Nat × Text))
    (h : List.Forall₂ (SameCode r) sources sources') :
    let survey := Scope.surveyAll {} (sheetsOf r sources)
    let survey' := Scope.surveyAll {} (sheetsOf r sources')
    survey.2 = survey'.2 ∧
    (survey.1.map fun l => (l.file, l.rows.map (·.scope))) =
      (survey'.1.map fun l => (l.file, l.rows.map (·.scope))) ∧
    (build r survey.1 survey.2).symbols.map Symbol.undocumented =
      (build r survey'.1 survey'.2).symbols.map Symbol.undocumented := by
  intro survey survey'
  obtain ⟨hlistings, hforest⟩ := Scope.surveyAll_sameCode {} (sameCode_sheetsOf h)
  refine ⟨hforest, ?_, ?_⟩
  · have hscopes := congrArg (List.map fun l => (l.file, l.rows.map (·.scope))) hlistings
    simpa only [List.map_map, Function.comp_def, Scope.Listing.scopes_withoutRaw] using hscopes
  · simp only [build_symbols, List.map_append]
    rw [map_undocumented_declared, map_undocumented_declared r survey'.1, hlistings, hforest]

/-- A block with a label behind a comment of three lines. -/
def commentedReport : Report where
  marks := [⟨.label, some ⟨0, 0, 0, 2, 1⟩⟩, ⟨.comment, some ⟨0, 5, 2, 2, 1⟩⟩,
    ⟨.label, some ⟨2, 3, 2, 5, 1⟩⟩]

/-- The comment holds a closing brace and a label. -/
def closingComment : Text := "a: \x7b /* \x7d\n \x7d x:\n*/ b:".toList

/-- The comment holds opening braces. -/
def openingComment : Text := "a: \x7b /* \x7b\n q\x7b y\n*/ b:".toList

theorem build_blind_to_comments_block :
    closingComment ≠ openingComment ∧
    List.Forall₂ (SameCode commentedReport) [(1, closingComment)] [(1, openingComment)] ∧
    let survey := Scope.surveyAll {} (sheetsOf commentedReport [(1, closingComment)])
    let survey' := Scope.surveyAll {} (sheetsOf commentedReport [(1, openingComment)])
    survey.2 = survey'.2 ∧
    (build commentedReport survey.1 survey.2).symbols.map Symbol.undocumented =
      (build commentedReport survey'.1 survey'.2).symbols.map Symbol.undocumented ∧
    (build commentedReport survey.1 survey.2).symbols.map (fun s => (s.name, s.scope)) =
      [("a".toList, 0), ("b".toList, 1)] := by
  have hlines : Source.lines closingComment =
      ["a: \x7b /* \x7d".toList, " \x7d x:".toList, "*/ b:".toList] := by decide +kernel
  have hlines' : Source.lines openingComment =
      ["a: \x7b /* \x7b".toList, " q\x7b y".toList, "*/ b:".toList] := by decide +kernel
  have hsame : List.Forall₂ (SameCode commentedReport) [(1, closingComment)]
      [(1, openingComment)] := by
    refine .cons ⟨rfl, ?_, ?_⟩ .nil
    · rw [hlines, hlines']
      decide
    · intro line column hfree
      have hout := hfree ⟨0, 5, 2, 2, 1⟩ (by decide)
      simp only [Span.Covers, Span.Before, Span.lastLine] at hout
      clear hfree
      rw [hlines, hlines']
      -- outside the comment stand five characters of the first line and all but two of the last
      have hline : line = 0 ∧ column < 5 ∨ line = 2 ∨ 3 ≤ line := by omega
      rcases hline with ⟨rfl, hcolumn⟩ | rfl | hbeyond
      · have hfirst : ∀ column < 5, Source.charAt? ["a: \x7b /* \x7d".toList] 0 column =
            Source.charAt? ["a: \x7b /* \x7b".toList] 0 column := by decide
        exact hfirst column hcolumn
      · simp only [Source.charAt?, List.getElem?_cons_succ, List.getElem?_cons_zero]
      · rw [Source.charAt?, Source.charAt?, List.getElem?_eq_none hbeyond,
          List.getElem?_eq_none hbeyond]
  have h := build_blind_to_comments commentedReport _ _ hsame
  exact ⟨by decide, hsame, h.1, h.2.2, by decide +kernel⟩

end Catalogue

end AsmLens
