import AsmLens.Source.Comment
import Mathlib.Data.List.Basic

/-!
# Which characters are blanked

A span blanks the positions that it covers and, when it opens on the last line and runs on past it,
the whole of that line. Which positions these are depends on the number of lines and not on what
stands there. Blanking with several spans is read off one position at a time, so sources that differ
inside their comments only are the same once the comments are blanked.
-/

namespace AsmLens.Source

/-- The character at a position of a source. -/
def charAt? (lines : List Text) (line column : Nat) : Option Char :=
  lines[line]?.bind fun t => t[column]?

/-- In a source with `count` lines the span blanks a position. -/
def Blanks (s : Span) (count line column : Nat) : Prop :=
  s.startLine ≤ line ∧ line ≤ s.lastLine ∧
    (line = s.startLine → s.startColumn ≤ column ∨ line ≠ s.lastLine ∧ count ≤ line + 1) ∧
    (line = s.lastLine → column < s.endColumn)

instance (s : Span) (count line column : Nat) : Decidable (Blanks s count line column) :=
  inferInstanceAs (Decidable (_ ∧ _ ∧ _ ∧ _))

theorem blanks_of_covers {s : Span} {line column : Nat} (h : s.Covers line column) (count : Nat) :
    Blanks s count line column := by
  obtain ⟨hstart, hstop⟩ := h
  simp only [Span.Before, not_or, not_and, Nat.not_lt] at hstart hstop
  refine ⟨hstart.1, by omega, fun hline => Or.inl (hstart.2 hline), ?_⟩
  intro hline
  omega

/-! ## One span -/

theorem getElem?_blankColumns (start stop : Nat) (t : Text) (i : Nat) :
    (blankColumns start stop t)[i]? =
      t[i]?.map fun c => if start ≤ i ∧ i < stop then ' ' else c :=
  List.getElem?_mapIdx

/-- The blanked columns of a line lie side by side. -/
theorem blankLine_eq (s : Span) (count line : Nat) (t : Text) :
    ∃ start stop, blankLine s count line t = blankColumns start stop t ∧
      ∀ i < t.length, (start ≤ i ∧ i < stop) ↔ Blanks s count line i := by
  unfold blankLine Blanks
  split_ifs with houtside hsingle hlast hfirst
  · have hsame : blankColumns 0 0 t = t :=
      List.ext_getElem? fun i => by simp [getElem?_blankColumns]
    exact ⟨0, 0, hsame.symm, fun i hi => by omega⟩
  · exact ⟨s.startColumn, s.endColumn, rfl, fun i hi => by omega⟩
  · exact ⟨0, s.endColumn, rfl, fun i hi => by omega⟩
  · exact ⟨s.startColumn, t.length, rfl, fun i hi => by omega⟩
  · exact ⟨0, t.length, rfl, fun i hi => by omega⟩

theorem getElem?_blankLine (s : Span) (count line : Nat) (t : Text) (i : Nat) :
    (blankLine s count line t)[i]? =
      t[i]?.map fun c => if Blanks s count line i then ' ' else c := by
  obtain ⟨start, stop, heq, hcolumns⟩ := blankLine_eq s count line t
  rw [heq, getElem?_blankColumns]
  by_cases hi : i < t.length
  · simp only [hcolumns i hi]
  · simp [List.getElem?_eq_none (Nat.le_of_not_lt hi)]

theorem length_blankLine (s : Span) (count line : Nat) (t : Text) :
    (blankLine s count line t).length = t.length := by
  obtain ⟨start, stop, heq, _⟩ := blankLine_eq s count line t
  rw [heq, blankColumns, List.length_mapIdx]

theorem getElem?_blankSpan (lines : List Text) (s : Span) (line : Nat) :
    (blankSpan lines s)[line]? = lines[line]?.map (blankLine s lines.length line) :=
  List.getElem?_mapIdx

theorem lengths_blankSpan (lines : List Text) (s : Span) :
    (blankSpan lines s).map List.length = lines.map List.length := by
  apply List.ext_getElem?
  intro line
  rw [List.getElem?_map, List.getElem?_map, getElem?_blankSpan]
  cases lines[line]? with
  | none => rfl
  | some t => simp [length_blankLine]

theorem charAt?_blankSpan (lines : List Text) (s : Span) (line column : Nat) :
    charAt? (blankSpan lines s) line column =
      (charAt? lines line column).map fun c =>
        if Blanks s lines.length line column then ' ' else c := by
  rw [charAt?, charAt?, getElem?_blankSpan]
  cases lines[line]? with
  | none => rfl
  | some t => exact getElem?_blankLine s lines.length line t column

/-! ## All spans -/

theorem lengths_blank (lines : List Text) (spans : List Span) :
    (blank lines spans).map List.length = lines.map List.length := by
  induction spans generalizing lines with
  | nil => rfl
  | cons s spans ih => exact (ih (blankSpan lines s)).trans (lengths_blankSpan lines s)

theorem length_blank (lines : List Text) (spans : List Span) :
    (blank lines spans).length = lines.length := by
  simpa using congrArg List.length (lengths_blank lines spans)

/-- A position of the blanked source holds a space if one of the spans blanks it, and what stood
there otherwise. -/
theorem charAt?_blank (lines : List Text) (spans : List Span) (line column : Nat) :
    charAt? (blank lines spans) line column =
      (charAt? lines line column).map fun c =>
        if ∃ s ∈ spans, Blanks s lines.length line column then ' ' else c := by
  induction spans generalizing lines with
  | nil => simp [blank]
  | cons s spans ih =>
    have hcount : (blankSpan lines s).length = lines.length := by
      simpa using congrArg List.length (lengths_blankSpan lines s)
    have hrest := ih (blankSpan lines s)
    rw [hcount, charAt?_blankSpan, Option.map_map] at hrest
    rw [show blank lines (s :: spans) = blank (blankSpan lines s) spans from rfl, hrest]
    refine Option.map_congr fun c _ => ?_
    by_cases hs : Blanks s lines.length line column
    · simp [hs]
    · simp [hs]

/-- A line keeps its length, and what is not blank on it stands in the raw line too. -/
theorem blank_line {lines : List Text} {spans : List Span} {line : Nat} {raw bare : Text}
    (hraw : lines[line]? = some raw) (hbare : (blank lines spans)[line]? = some bare) :
    bare.length = raw.length ∧
      ∀ (column : Nat) (c : Char), bare[column]? = some c → c ≠ ' ' → raw[column]? = some c := by
  constructor
  · have hlength := congrArg (·[line]?) (lengths_blank lines spans)
    simpa [hraw, hbare] using hlength
  · intro column c hc hspace
    have hchar := charAt?_blank lines spans line column
    simp only [charAt?, hraw, hbare, Option.bind_some, hc] at hchar
    obtain ⟨d, hd, heq⟩ := Option.map_eq_some_iff.mp hchar.symm
    split_ifs at heq
    · exact absurd heq.symm hspace
    · rw [hd, heq]

theorem eq_of_charAt? {a b : List Text} (hlengths : a.map List.length = b.map List.length)
    (hchars : ∀ line column, charAt? a line column = charAt? b line column) : a = b := by
  have hcount : a.length = b.length := by simpa using congrArg List.length hlengths
  refine List.ext_getElem hcount fun line ha hb => List.ext_getElem? fun column => ?_
  simpa [charAt?, ha, hb] using hchars line column

/-- Blanking depends on which spans there are and not on their order or number. -/
theorem blank_congr (lines : List Text) {spans spans' : List Span}
    (h : ∀ s, s ∈ spans ↔ s ∈ spans') : blank lines spans = blank lines spans' := by
  refine eq_of_charAt? ?_ ?_
  · rw [lengths_blank, lengths_blank]
  · intro line column
    simp only [charAt?_blank, h]

/-! ## Sources that differ in their comments -/

/-- Two sources have the same lines but for what stands in the spans: as many lines, of the same
lengths, with the same character at every position that no span covers. -/
structure SameOutside (spans : List Span) (a b : List Text) : Prop where
  lengths : a.map List.length = b.map List.length
  chars : ∀ line column, (∀ s ∈ spans, ¬ s.Covers line column) →
    charAt? a line column = charAt? b line column

theorem SameOutside.isSome_charAt? {spans : List Span} {a b : List Text}
    (h : SameOutside spans a b) (line column : Nat) :
    (charAt? a line column).isSome = (charAt? b line column).isSome := by
  have hline : (a[line]?).map List.length = (b[line]?).map List.length := by
    simpa using congrArg (·[line]?) h.lengths
  unfold charAt?
  cases ha : a[line]? with
  | none =>
    have hb : b[line]? = none := by simpa [ha] using hline.symm
    rw [hb]
  | some t =>
    obtain ⟨u, hb, hlength⟩ : ∃ u, b[line]? = some u ∧ u.length = t.length := by
      simpa [ha] using hline.symm
    rw [hb, Bool.eq_iff_iff]
    simp [hlength]

/-- Blanking takes away what the sources differ in. -/
theorem SameOutside.blank_eq {spans : List Span} {a b : List Text} (h : SameOutside spans a b) :
    blank a spans = blank b spans := by
  have hcount : a.length = b.length := by simpa using congrArg List.length h.lengths
  refine eq_of_charAt? ?_ ?_
  · rw [lengths_blank, lengths_blank, h.lengths]
  · intro line column
    rw [charAt?_blank, charAt?_blank, ← hcount]
    by_cases hblank : ∃ s ∈ spans, Blanks s a.length line column
    · -- both sides are a space or nothing
      have hsome := h.isSome_charAt? line column
      simp only [if_pos hblank]
      cases ha : charAt? a line column <;> cases hb : charAt? b line column <;>
        simp [ha, hb] at hsome ⊢
    · have hfree : ∀ s ∈ spans, ¬ s.Covers line column := fun s hs hcovers =>
        hblank ⟨s, hs, blanks_of_covers hcovers a.length⟩
      rw [h.chars line column hfree]

end AsmLens.Source
