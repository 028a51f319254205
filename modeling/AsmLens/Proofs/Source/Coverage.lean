import AsmLens.Proofs.Source.Blank

/-!
# Blanking beside coverage

A span covers the positions from its start up to its end. Blanking takes away exactly what the spans
cover, with one exception: a span that opens on the last line and ends further down is clamped to
this line twice, once as the line it opens on and once as the last line it reaches, and the second
time the whole line is blanked, with what stands in front of the span. Spans that lie past the end,
that run past it from a line further up, or that end in front of their start are no exception.
-/

namespace AsmLens.Source

/-- The span opens on the last of `count` lines and ends further down. -/
def Overruns (s : Span) (count : Nat) : Prop := s.startLine + 1 = count ∧ s.startLine < s.lastLine

instance (s : Span) (count : Nat) : Decidable (Overruns s count) :=
  inferInstanceAs (Decidable (_ ∧ _))

/-- Within the source a span blanks what it covers and, if it overruns, the line it opens on. -/
theorem blanks_iff {s : Span} {count line column : Nat} (hline : line < count) :
    Blanks s count line column ↔
      s.Covers line column ∨ line = s.startLine ∧ Overruns s count := by
  constructor
  · rintro ⟨hstart, hlast, hfront, hend⟩
    by_cases hcovers : s.Covers line column
    · exact Or.inl hcovers
    · right
      simp only [Span.Covers, Span.Before, not_and_or, not_or, not_not] at hcovers
      unfold Overruns
      omega
  · rintro (hcovers | ⟨hopens, hcount, hlast⟩)
    · exact blanks_of_covers hcovers count
    · refine ⟨by omega, by omega, fun _ => Or.inr ⟨by omega, by omega⟩, ?_⟩
      intro hend
      omega

lemma lt_length_of_charAt? {lines : List Text} {line column : Nat} {c : Char}
    (h : charAt? lines line column = some c) : line < lines.length := by
  obtain ⟨t, ht, _⟩ := Option.bind_eq_some_iff.mp h
  exact (List.getElem?_eq_some_iff.mp ht).1

/-- A position holds a space if a span covers it, or if a span that overruns opens on its line. -/
theorem charAt?_blank_covered (lines : List Text) (spans : List Span) (line column : Nat) :
    charAt? (blank lines spans) line column =
      (charAt? lines line column).map fun c =>
        if ∃ s ∈ spans, s.Covers line column ∨ line = s.startLine ∧ Overruns s lines.length
        then ' ' else c := by
  rw [charAt?_blank]
  refine Option.map_congr fun c hc => ?_
  simp only [blanks_iff (lt_length_of_charAt? hc)]

/-- Without spans that overrun, exactly the covered positions are blanked. -/
theorem charAt?_blank_of_not_overruns {lines : List Text} {spans : List Span}
    (h : ∀ s ∈ spans, ¬ Overruns s lines.length) (line column : Nat) :
    charAt? (blank lines spans) line column =
      (charAt? lines line column).map fun c =>
        if ∃ s ∈ spans, s.Covers line column then ' ' else c := by
  have hexact : (∃ s ∈ spans, s.Covers line column ∨ line = s.startLine ∧
      Overruns s lines.length) ↔ ∃ s ∈ spans, s.Covers line column := by
    constructor
    · rintro ⟨s, hs, hcovers | ⟨_, hover⟩⟩
      · exact ⟨s, hs, hcovers⟩
      · exact absurd hover (h s hs)
    · rintro ⟨s, hs, hcovers⟩
      exact ⟨s, hs, Or.inl hcovers⟩
  simp only [charAt?_blank_covered, hexact]

lemma charAt?_blank_before {lines : List Text} {s : Span} (h : ¬ Overruns s lines.length)
    {line column : Nat} (hbefore : Span.Before line column s.startLine s.startColumn) :
    charAt? (blank lines [s]) line column = charAt? lines line column := by
  have hfree : ¬ s.Covers line column := fun hcovers => hcovers.1 hbefore
  rw [charAt?_blank_of_not_overruns (by simpa using h)]
  simp [hfree]

/-- Blanking keeps the number of lines and their lengths. A position holds a space if a span covers
it, or if it lies on the last line and a span that overruns opens there, and what stood there
otherwise. So without overrunning spans exactly the covered positions are blanked, and a span that
does not overrun leaves what stands in front of its start, however far it reaches. -/
theorem blank_covered (lines : List Text) (spans : List Span) :
    (blank lines spans).length = lines.length ∧
    (blank lines spans).map List.length = lines.map List.length ∧
    (∀ line column, charAt? (blank lines spans) line column =
      (charAt? lines line column).map fun c =>
        if ∃ s ∈ spans, s.Covers line column ∨ line = s.startLine ∧ Overruns s lines.length
        then ' ' else c) ∧
    ((∀ s ∈ spans, ¬ Overruns s lines.length) →
      ∀ line column, charAt? (blank lines spans) line column =
        (charAt? lines line column).map fun c =>
          if ∃ s ∈ spans, s.Covers line column then ' ' else c) ∧
    ∀ s, ¬ Overruns s lines.length →
      ∀ line column, Span.Before line column s.startLine s.startColumn →
        charAt? (blank lines [s]) line column = charAt? lines line column := by
  refine ⟨length_blank lines spans, lengths_blank lines spans, charAt?_blank_covered lines spans,
    charAt?_blank_of_not_overruns, ?_⟩
  intro s hs line column hbefore
  exact charAt?_blank_before hs hbefore

/-- A comment over two lines, one that ends in front of its start, one that runs past the end from
the line above the last, and one past the end. -/
theorem blank_covered_multiline :
    let lines := ["lda #1 /* \x7b".toList, "\x7d */ nop".toList, "rts".toList]
    let spans : List Span := [⟨0, 7, 1, 4, 0⟩, ⟨2, 1, 0, 3, 0⟩, ⟨1, 6, 9, 2, 0⟩, ⟨5, 0, 6, 3, 0⟩]
    (∀ s ∈ spans, ¬ Overruns s lines.length) ∧
    (∀ line column, charAt? (blank lines spans) line column =
      (charAt? lines line column).map fun c =>
        if ∃ s ∈ spans, s.Covers line column then ' ' else c) ∧
    (∀ line column, Span.Before line column 1 6 →
      charAt? (blank lines [⟨1, 6, 9, 2, 0⟩]) line column = charAt? lines line column) ∧
    blank lines spans = ["lda #1     ".toList, "     n  ".toList, "   ".toList] := by
  intro lines spans
  have h := blank_covered lines spans
  have hspans : ∀ s ∈ spans, ¬ Overruns s lines.length := by decide
  exact ⟨hspans, h.2.2.2.1 hspans, h.2.2.2.2 ⟨1, 6, 9, 2, 0⟩ (by decide), by decide⟩

/-- A comment that is not closed on the last line takes the instruction in front of it along, which
it does not cover. -/
theorem overrun_blanks_front :
    let lines := ["nop".toList, "lda #1 /* a".toList]
    let s : Span := ⟨1, 7, 2, 0, 0⟩
    Span.Before 1 0 s.startLine s.startColumn ∧ ¬ s.Covers 1 0 ∧
    charAt? lines 1 0 = some 'l' ∧ charAt? (blank lines [s]) 1 0 = some ' ' ∧
    blank lines [s] = ["nop".toList, "           ".toList] := by
  decide

end AsmLens.Source
