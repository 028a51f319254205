import AsmLens.Proofs.Catalogue.Comments
import AsmLens.Proofs.Catalogue.NameIndex
import AsmLens.Snapshot.Basic

/-!
# Marks as a set

A report lists its marks in some order, and may list one of them more than once. Neither shows in
what is made of them. Comments blank the same positions in any order, so the files are surveyed into
the same rows and scopes. Of the marks at one position only the first counts, but what is declared
there depends on the position alone, so it does not matter which one is the first. What remains of
the order of the marks is the order of the symbols.
-/

namespace AsmLens

namespace Catalogue

/-- Two catalogues over the same scopes hold the same symbols, each as often, and give the same
answers but for their order. -/
structure SameSymbols (c c' : Catalogue) : Prop where
  forest : c.forest = c'.forest
  symbols : c.symbols.Perm c'.symbols
  resolveAll : ∀ name scope, (c.resolveAll name scope).Perm (c'.resolveAll name scope)

/-- What a name can mean in a scope is decided by the scopes and by the symbols in any order. -/
theorem resolveAll_perm {c c' : Catalogue} (hforest : c.forest = c'.forest)
    (hsymbols : c.symbols.Perm c'.symbols) (name : Text) (scope : Nat) :
    (c.resolveAll name scope).Perm (c'.resolveAll name scope) := by
  have hvisible : c.isVisible scope = c'.isVisible scope := by
    funext s
    rw [isVisible, isVisible, hforest]
  have hnamed : (c.named name).Perm (c'.named name) := by
    rw [named_eq, named_eq]
    exact hsymbols.filter _
  have hhits : ((c.named name).filter (c.isVisible scope)).Perm
      ((c'.named name).filter (c'.isVisible scope)) := by
    rw [hvisible]
    exact hnamed.filter _
  exact (List.mergeSort_perm _ _).trans (hhits.trans (List.mergeSort_perm _ _).symm)

/-! ## Symbols by position -/

/-- The position at which a target starts. -/
def position (target : Scope.Listing × Span) : Nat × Nat × Nat :=
  (target.2.file, target.2.startLine, target.2.startColumn)

/-- The symbols declared at a position. -/
def declaredAtPosition (r : Report) (listings : List Scope.Listing) (f : Scope.Forest) :
    Nat × Nat × Nat → List Symbol
  | (file, line, column) =>
    match listings.find? (·.file == file) with
    | some l => declaredAt f (isMainFile r file) l (Span.onLine file line column column)
    | none => []

/-- A target declares what stands at its position. Where it ends does not matter. -/
theorem declared_eq (r : Report) (listings : List Scope.Listing) (f : Scope.Forest) :
    declared r listings f =
      ((targets r listings).map position).flatMap (declaredAtPosition r listings f) := by
  rw [declared, List.flatMap_map]
  refine List.flatMap_congr ?_
  rintro ⟨l, s⟩ htarget
  simp only [position, declaredAtPosition, find?_of_mem_targets htarget]
  rfl

variable {r : Report} {marks : List Mark}

theorem declared_perm (h : ∀ m, m ∈ marks ↔ m ∈ r.marks) (listings : List Scope.Listing)
    (f : Scope.Forest) :
    (declared { r with marks } listings f).Perm (declared r listings f) := by
  have htargets : ∀ t, t ∈ marks.filterMap (target? r listings) ↔
      t ∈ r.marks.filterMap (target? r listings) := by
    intro t
    simp only [List.mem_filterMap, h]
  rw [declared_eq, declared_eq r]
  exact (map_firsts_perm position htargets).flatMap_right _

theorem build_sameSymbols (h : ∀ m, m ∈ marks ↔ m ∈ r.marks) (listings : List Scope.Listing)
    (f : Scope.Forest) :
    SameSymbols (build { r with marks } listings f) (build r listings f) := by
  have hsymbols : (build { r with marks } listings f).symbols.Perm
      (build r listings f).symbols := (declared_perm h listings f).append_right _
  exact ⟨rfl, hsymbols, resolveAll_perm rfl hsymbols⟩

/-! ## Surveys -/

theorem mem_commentSpans_congr (h : ∀ m, m ∈ marks ↔ m ∈ r.marks) (file : Nat) (s : Span) :
    s ∈ { r with marks : Report }.commentSpans file ↔ s ∈ r.commentSpans file := by
  simp only [Report.commentSpans, List.mem_filterMap, h]

theorem surveyAll_sheetsOf (h : ∀ m, m ∈ marks ↔ m ∈ r.marks) (sources : List (Nat × Text)) :
    Scope.surveyAll {} (sheetsOf { r with marks } sources) =
      Scope.surveyAll {} (sheetsOf r sources) := by
  refine Scope.surveyAll_sameComments {} ?_
  rw [sheetsOf, sheetsOf, List.forall₂_map_left_iff, List.forall₂_map_right_iff,
    List.forall₂_same]
  rintro ⟨file, text⟩ _
  exact ⟨rfl, rfl, mem_commentSpans_congr h file⟩

end Catalogue

namespace Snapshot

open Catalogue

/-- The texts of the files that a report names, as far as they can be found. -/
def sources (report : Report) (buffer : Text) (findFile : Text → Option Text) :
    List (Nat × Text) :=
  report.files.filterMap fun f =>
    if f.isSystem then none
    else (if f.isMain then some buffer else findFile f.path).map fun text => (f.index, text)

theorem sheets_eq (report : Report) (buffer : Text) (findFile : Text → Option Text) :
    sheets report buffer findFile = sheetsOf report (sources report buffer findFile) := by
  rw [sheetsOf, sources, List.map_filterMap]
  refine List.filterMap_congr fun f _ => ?_
  split
  · rfl
  · rw [Option.map_map]
    rfl

/-- The order and repetition of marks do not matter. Whatever sources are read, the rows and the
scopes are the same, and the catalogue holds the same symbols, each as often, of which only the
order can be another. The same holds of the snapshots for a buffer. -/
theorem marks_form_a_set (r : Report) (marks : List Mark) (h : ∀ m, m ∈ marks ↔ m ∈ r.marks) :
    (∀ sources : List (Nat × Text),
      let survey := Scope.surveyAll {} (sheetsOf r sources)
      let survey' := Scope.surveyAll {} (sheetsOf { r with marks } sources)
      survey' = survey ∧
      SameSymbols (Catalogue.build { r with marks } survey'.1 survey'.2)
        (Catalogue.build r survey.1 survey.2)) ∧
    ∀ (uri : Uri) (generation : Nat) (buffer : Text) (findFile : Text → Option Text),
      let s := ofReport uri generation buffer r findFile
      let s' := ofReport uri generation buffer { r with marks } findFile
      s'.files = s.files ∧ SameSymbols s'.catalogue s.catalogue := by
  refine ⟨?_, ?_⟩
  · intro sources survey survey'
    have hsurvey : survey' = survey := surveyAll_sheetsOf h sources
    refine ⟨hsurvey, ?_⟩
    rw [hsurvey]
    exact build_sameSymbols h survey.1 survey.2
  · intro uri generation buffer findFile
    have hsurvey : Scope.surveyAll {} (sheets { r with marks } buffer findFile) =
        Scope.surveyAll {} (sheets r buffer findFile) := by
      rw [sheets_eq, sheets_eq r]
      exact surveyAll_sheetsOf h _
    simp only [ofReport, hsurvey]
    exact ⟨trivial, build_sameSymbols h _ _⟩

/-- Two labels and two comments that overlap. The second mark of the first label ends elsewhere. -/
def markedReport : Report where
  marks := [⟨.label, some ⟨0, 0, 0, 2, 1⟩⟩, ⟨.comment, some ⟨0, 3, 1, 4, 1⟩⟩,
    ⟨.label, some ⟨0, 0, 0, 1, 1⟩⟩, ⟨.comment, some ⟨1, 0, 1, 7, 1⟩⟩,
    ⟨.label, some ⟨1, 8, 1, 10, 1⟩⟩]

/-- The same marks in another order, some of them twice. -/
def shuffledMarks : List Mark :=
  [⟨.label, some ⟨1, 8, 1, 10, 1⟩⟩, ⟨.comment, some ⟨1, 0, 1, 7, 1⟩⟩,
    ⟨.label, some ⟨0, 0, 0, 1, 1⟩⟩, ⟨.comment, some ⟨0, 3, 1, 4, 1⟩⟩,
    ⟨.label, some ⟨1, 8, 1, 10, 1⟩⟩, ⟨.label, some ⟨0, 0, 0, 2, 1⟩⟩,
    ⟨.comment, some ⟨0, 3, 1, 4, 1⟩⟩]

theorem marks_form_a_set_shuffled :
    let text := "a: /* \x7b\n\x7d */ x: b: \x7b".toList
    let survey := Scope.surveyAll {} (sheetsOf markedReport [(1, text)])
    let shuffled : Report := { markedReport with marks := shuffledMarks }
    let survey' := Scope.surveyAll {} (sheetsOf shuffled [(1, text)])
    let c := Catalogue.build markedReport survey.1 survey.2
    let c' := Catalogue.build shuffled survey'.1 survey'.2
    (∀ m, m ∈ shuffledMarks ↔ m ∈ markedReport.marks) ∧
    survey' = survey ∧ SameSymbols c' c ∧
    c.symbols.map (·.name) = ["a".toList, "b".toList] ∧
    c'.symbols.map (·.name) = ["b".toList, "a".toList] := by
  have hsame : ∀ m, m ∈ shuffledMarks ↔ m ∈ markedReport.marks := by
    intro m
    simp only [shuffledMarks, markedReport, List.mem_cons, List.not_mem_nil, or_false]
    tauto
  intro text survey shuffled survey' c c'
  have h := (marks_form_a_set markedReport shuffledMarks hsame).1 [(1, text)]
  exact ⟨hsame, h.1, h.2, by decide +kernel, by decide +kernel⟩

end Snapshot

end AsmLens
