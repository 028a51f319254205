import AsmLens.Proofs.Symbol.Signature
import AsmLens.Symbol.Doc

/-!
# One pass over a documentation comment

A comment is read in one pass: each line is folded into the parameters or kept. What comes out can
be told from two plain views of the comment, the annotations among its lines and the lines that are
none. The parameters are what the annotations make of them, one after the other, and the text is
what is left of the other lines, since the empty lines that the pass drops at the end would be
trimmed off anyway.
-/

namespace AsmLens

namespace Text

lemma exists_trim_append (t : Text) :
    ∃ gap trail, Blank gap ∧ Blank trail ∧ t = gap ++ (trim t ++ trail) := by
  obtain ⟨gap, hgap, hstart⟩ := exists_blank_append t
  obtain ⟨trail, hend, htrail⟩ := exists_trimEnd_append (trimStart t)
  exact ⟨gap, trail, hgap, htrail, hstart.trans (congrArg (gap ++ ·) hend)⟩

lemma Blank.append {s t : Text} (hs : Blank s) (ht : Blank t) : Blank (s ++ t) := fun c hc =>
  (List.mem_append.mp hc).elim (hs c) (ht c)

/-- White space around a text does not change what is left of it. -/
lemma trim_between {gap trail : Text} (hgap : Blank gap) (t : Text) (htrail : Blank trail) :
    trim (gap ++ (t ++ trail)) = trim t := by
  obtain ⟨gap', trail', hgap', htrail', ht⟩ := exists_trim_append t
  have hsplit : gap ++ (t ++ trail) = (gap ++ gap') ++ (trim t ++ (trail' ++ trail)) := by
    conv_lhs => rw [ht]
    simp only [List.append_assoc]
  rw [hsplit, trim_padded (hgap.append hgap') (trimmed_trim t) (htrail'.append htrail)]

/-- An empty part at the end adds white space only. -/
lemma exists_join_concat_nil {sep : Text} (hsep : Blank sep) (parts : List Text) :
    ∃ trail, Blank trail ∧ join sep (parts ++ [[]]) = join sep parts ++ trail := by
  induction parts with
  | nil => exact ⟨[], blank_nil, rfl⟩
  | cons part parts ih =>
    obtain ⟨trail, htrail, hjoin⟩ := ih
    rw [List.cons_append, join_cons_of_ne_nil (List.concat_ne_nil [] parts), hjoin]
    by_cases hparts : parts = []
    · exact ⟨sep ++ trail, hsep.append htrail, by simp [hparts, join]⟩
    · exact ⟨trail, htrail, by simp [join_cons_of_ne_nil hparts]⟩

/-- Empty parts at the end are trimmed off with their separators. -/
lemma trim_join_rdropWhile {sep : Text} (hsep : Blank sep) (parts : List Text) :
    trim (join sep (parts.rdropWhile List.isEmpty)) = trim (join sep parts) := by
  induction parts using List.reverseRecOn with
  | nil => rfl
  | append_singleton parts part ih =>
    cases part with
    | nil =>
      obtain ⟨trail, htrail, hjoin⟩ := exists_join_concat_nil hsep parts
      rw [List.rdropWhile_concat_pos _ _ _ rfl, ih, hjoin]
      exact (trim_between blank_nil (join sep parts) htrail).symm
    | cons c cs => rw [List.rdropWhile_concat_neg _ _ _ (by simp)]

end Text

namespace Doc

open ParameterNote

/-- The lines that are not annotations. -/
def prose (d : Doc) : List Text := d.lines.filter fun line => (read? line).isNone

/-- The annotations among the lines. -/
def notes (d : Doc) : List ParameterNote := d.lines.filterMap read?

/-- The text that is left without the annotations. -/
def text? (d : Doc) : Option Text :=
  let t := Text.trim (Text.join (separator d.style) d.prose)
  if t.isEmpty then none else some t

/-- The parameters with every annotation folded in. -/
def annotate (d : Doc) (ps : List Parameter) : List Parameter :=
  d.notes.foldl (fun ps a => a.apply ps) ps

/-- The pass does to the parameters what the annotations do, and keeps the prose. -/
theorem foldl_readLine (style : DocStyle) (lines : List Text) (ps : List Parameter)
    (kept : List Text) :
    lines.foldl readLine (ps, kept) =
      (annotate ⟨style, lines⟩ ps, kept ++ prose ⟨style, lines⟩) := by
  induction lines generalizing ps kept with
  | nil => simp [annotate, notes, prose]
  | cons line rest ih =>
    rw [List.foldl_cons, readLine]
    cases hline : read? line with
    | none =>
      rw [ih]
      simp [annotate, notes, prose, hline]
    | some a =>
      rw [ih]
      simp [annotate, notes, prose, hline]

/-- Lines are separated by line feeds. -/
lemma exists_feeds_separator (style : DocStyle) :
    ∃ feeds, separator style = '\n' :: feeds ∧ ∀ c ∈ feeds, c = '\n' := by
  cases style with
  | block => exact ⟨['\n'], rfl, by simp⟩
  | run => exact ⟨[], rfl, by simp⟩
  | trailing => exact ⟨[], rfl, by simp⟩

lemma blank_separator (style : DocStyle) : Text.Blank (separator style) := by
  obtain ⟨feeds, hseparator, hfeeds⟩ := exists_feeds_separator style
  intro c hc
  rw [hseparator] at hc
  have hfeed : c = '\n' := (List.mem_cons.mp hc).elim id (hfeeds c)
  exact hfeed ▸ by decide

/-- One pass gives the annotated parameters and the text. -/
theorem render_eq (d : Doc) (ps : List Parameter) : d.render ps = (d.annotate ps, d.text?) := by
  have htrim := Text.trim_join_rdropWhile (blank_separator d.style) d.prose
  rw [List.rdropWhile] at htrim
  simp only [render, foldl_readLine d.style, List.nil_append, htrim, text?]

end Doc

end AsmLens
