import AsmLens.Proofs.Scope.Survey
import AsmLens.Proofs.Source.Blank

/-!
# The rows of a survey

A row shows its line of the source, raw and without comments. The raw text is only carried along:
scopes are opened and closed by what stands outside the comments, so surveys of two sources that
differ in their comments have the same rows but for the raw text, and they leave the same forest.
-/

namespace AsmLens.Scope

/-- The row without its raw text. -/
def Row.withoutRaw (r : Row) : Row := { r with raw := [] }

/-- The listing without the raw text of its rows. -/
def Listing.withoutRaw (l : Listing) : Listing := ⟨l.file, l.rows.map Row.withoutRaw⟩

theorem Listing.row?_withoutRaw (l : Listing) (line : Nat) :
    l.withoutRaw.row? line = (l.row? line).map Row.withoutRaw :=
  List.getElem?_map ..

theorem Listing.scopes_withoutRaw (l : Listing) :
    (l.withoutRaw.file, l.withoutRaw.rows.map (·.scope)) = (l.file, l.rows.map (·.scope)) := by
  simp [withoutRaw, Row.withoutRaw]

namespace Walk

theorem rows_texts (file number : Nat) (w : Walk) (lines : List (Text × Text)) :
    (rows file number w lines).1.map (fun r => (r.raw, r.bare)) = lines := by
  induction lines generalizing number w with
  | nil => rfl
  | cons line rest ih => exact congrArg (line :: ·) (ih (number + 1) (w.step file number line.2))

/-- The walk follows the lines without their comments. -/
theorem rows_withoutRaw (file number : Nat) (w : Walk) {lines lines' : List (Text × Text)}
    (h : lines.map Prod.snd = lines'.map Prod.snd) :
    (rows file number w lines).1.map Row.withoutRaw =
        (rows file number w lines').1.map Row.withoutRaw ∧
      (rows file number w lines).2 = (rows file number w lines').2 := by
  induction lines generalizing number w lines' with
  | nil =>
    have hnil : lines' = [] := List.map_eq_nil_iff.mp h.symm
    rw [hnil]
    exact ⟨rfl, rfl⟩
  | cons line rest ih =>
    cases lines' with
    | nil => cases h
    | cons line' rest' =>
      obtain ⟨hbare, hrest⟩ := List.cons.inj h
      obtain ⟨hrows, hlast⟩ := ih (number + 1) (w.step file number line.2) hrest
      rw [hbare] at hrows hlast
      refine ⟨?_, ?_⟩
      · simp only [rows, List.map_cons, Row.withoutRaw, hbare]
        exact congrArg _ hrows
      · simp only [rows, hbare]
        exact hlast

end Walk

theorem Sheet.map_snd_lines (s : Sheet) :
    s.lines.map Prod.snd = Source.blank (Source.lines s.text) s.comments :=
  List.map_snd_zip (Nat.le_of_eq (Source.length_blank _ _))

theorem Sheet.map_fst_lines (s : Sheet) : s.lines.map Prod.fst = Source.lines s.text :=
  List.map_fst_zip (Nat.le_of_eq (Source.length_blank _ _).symm)

theorem raw_survey (f : Forest) (s : Sheet) :
    (survey f s.file s.text s.comments).1.rows.map (·.raw) = Source.lines s.text := by
  have htexts := congrArg (List.map Prod.fst) (Walk.rows_texts s.file 0 (.ofForest f) s.lines)
  rw [List.map_map, s.map_fst_lines] at htexts
  exact htexts

/-- Every line starts in a scope of the forest. -/
theorem scopeAt_lt_size {f : Forest} (hf : f.Ordered) (s : Sheet) (line : Nat) :
    (survey f s.file s.text s.comments).1.scopeAt line <
      (survey f s.file s.text s.comments).2.size := by
  have hgrown := survey_grows hf s
  have hrows := (surveyed hf hgrown.1 s List.prefix_rfl).row
  unfold Listing.scopeAt
  split
  · rename_i row hrow
    exact (hrows line row hrow).2.1
  · exact Nat.succ_pos _

/-- Every line of a surveyed file starts in a scope of the project. -/
theorem scopeAt_lt_size_surveyAll {f : Forest} (hf : f.Ordered) {sheets : List Sheet} {l : Listing}
    (h : l ∈ (surveyAll f sheets).1) (line : Nat) :
    l.scopeAt line < (surveyAll f sheets).2.size := by
  induction sheets generalizing f with
  | nil => cases h
  | cons s sheets ih =>
    have hone := (survey_grows hf s).1
    rw [surveyAll_cons] at h ⊢
    rcases List.mem_cons.mp h with rfl | hrest
    · exact Nat.lt_of_lt_of_le (scopeAt_lt_size hf s line)
        (Forest.size_le_of_isPrefix (surveyAll_grows hone sheets).2)
    · exact ih hone hrest

/-- A row of a survey shows its line of the source. -/
theorem row?_survey {f : Forest} {s : Sheet} {line : Nat} {row : Row}
    (h : (survey f s.file s.text s.comments).1.row? line = some row) :
    Source.line? s.text line = some row.raw ∧
      (Source.blank (Source.lines s.text) s.comments)[line]? = some row.bare := by
  have htexts := congrArg (·[line]?) (Walk.rows_texts s.file 0 (.ofForest f) s.lines)
  rw [survey_eq, Listing.row?] at h
  simp only [List.getElem?_map, h, Option.map_some] at htexts
  exact List.getElem?_zip_eq_some.mp htexts.symm

/-- The first listing with an index is the survey of the first sheet with it. -/
theorem find?_surveyAll {f : Forest} {sheets : List Sheet} {file : Nat} {l : Listing}
    (h : (surveyAll f sheets).1.find? (·.file == file) = some l) :
    ∃ s g, sheets.find? (·.file == file) = some s ∧
      l = (survey g s.file s.text s.comments).1 := by
  induction sheets generalizing f with
  | nil => cases h
  | cons s sheets ih =>
    have hfile : (survey f s.file s.text s.comments).1.file = s.file := rfl
    rw [surveyAll_cons, List.find?_cons, hfile] at h
    rw [List.find?_cons]
    cases hs : s.file == file with
    | true =>
      rw [hs] at h
      exact ⟨s, f, rfl, (Option.some.inj h).symm⟩
    | false =>
      rw [hs] at h
      exact ih h

lemma map_file_surveyAll (f : Forest) (sheets : List Sheet) :
    (surveyAll f sheets).1.map (·.file) = sheets.map (·.file) := by
  induction sheets generalizing f with
  | nil => rfl
  | cons s sheets ih => exact congrArg (s.file :: ·) (ih _)

/-- The survey of the first sheet with an index is the first listing with it. -/
theorem find?_surveyAll_first (f : Forest) {before : List Sheet} {s : Sheet} (after : List Sheet)
    (hfirst : ∀ t ∈ before, t.file ≠ s.file) :
    (surveyAll f (before ++ s :: after)).1.find? (·.file == s.file) =
      some (survey (surveyAll f before).2 s.file s.text s.comments).1 := by
  have hnone : (surveyAll f before).1.find? (·.file == s.file) = none := by
    rw [List.find?_eq_none]
    intro l hl hfile
    have hmem : l.file ∈ before.map (·.file) := by
      rw [← map_file_surveyAll f before]
      exact List.mem_map_of_mem hl
    obtain ⟨t, ht, htfile⟩ := List.mem_map.mp hmem
    exact hfirst t ht (htfile.trans (beq_iff_eq.mp hfile))
  have hself : ((survey (surveyAll f before).2 s.file s.text s.comments).1.file == s.file) = true :=
    beq_self_eq_true s.file
  rw [surveyAll_append, surveyAll_cons, List.find?_append, hnone, Option.none_or]
  exact List.find?_cons_of_pos hself

/-! ## Surveys of sources that differ in their comments -/

/-- Two sheets are of one file and show the same source but for its comments. -/
structure Sheet.SameCode (s s' : Sheet) : Prop where
  file : s.file = s'.file
  comments : s.comments = s'.comments
  source : Source.SameOutside s.comments (Source.lines s.text) (Source.lines s'.text)

theorem survey_sameCode (f : Forest) {s s' : Sheet} (h : s.SameCode s') :
    (survey f s.file s.text s.comments).1.withoutRaw =
        (survey f s'.file s'.text s'.comments).1.withoutRaw ∧
      (survey f s.file s.text s.comments).2 = (survey f s'.file s'.text s'.comments).2 := by
  have hbare : s.lines.map Prod.snd = s'.lines.map Prod.snd := by
    rw [s.map_snd_lines, s'.map_snd_lines, h.source.blank_eq, h.comments]
  obtain ⟨hrows, hlast⟩ := Walk.rows_withoutRaw s.file 0 (.ofForest f) hbare
  rw [survey_eq, survey_eq, Listing.withoutRaw, Listing.withoutRaw, ← h.file]
  exact ⟨congrArg (Listing.mk s.file) hrows, congrArg Walk.forest hlast⟩

/-- Surveys of the same code have the same rows but for the raw text and leave the same forest. -/
theorem surveyAll_sameCode (f : Forest) {sheets sheets' : List Sheet}
    (h : List.Forall₂ Sheet.SameCode sheets sheets') :
    (surveyAll f sheets).1.map Listing.withoutRaw =
        (surveyAll f sheets').1.map Listing.withoutRaw ∧
      (surveyAll f sheets).2 = (surveyAll f sheets').2 := by
  induction h generalizing f with
  | nil => exact ⟨rfl, rfl⟩
  | @cons s s' sheets sheets' hs _ ih =>
    obtain ⟨hlisting, hforest⟩ := survey_sameCode f hs
    obtain ⟨hlistings, hlast⟩ := ih (survey f s.file s.text s.comments).2
    rw [surveyAll_cons, surveyAll_cons, ← hforest]
    refine ⟨?_, hlast⟩
    rw [List.map_cons, List.map_cons, hlisting, hlistings]

/-! ## Surveys with the same comments in another order -/

/-- Two sheets are of one file and text, with the same spans as comments. -/
structure Sheet.SameComments (s s' : Sheet) : Prop where
  file : s.file = s'.file
  text : s.text = s'.text
  comments : ∀ span, span ∈ s.comments ↔ span ∈ s'.comments

theorem survey_sameComments (f : Forest) {s s' : Sheet} (h : s.SameComments s') :
    survey f s.file s.text s.comments = survey f s'.file s'.text s'.comments := by
  rw [survey, survey, ← h.file, ← h.text, Source.blank_congr _ h.comments]

/-- The order and repetition of comments do not show in a survey. -/
theorem surveyAll_sameComments (f : Forest) {sheets sheets' : List Sheet}
    (h : List.Forall₂ Sheet.SameComments sheets sheets') :
    surveyAll f sheets = surveyAll f sheets' := by
  induction h generalizing f with
  | nil => rfl
  | cons hs _ ih => rw [surveyAll_cons, surveyAll_cons, survey_sameComments f hs, ih]

end AsmLens.Scope
