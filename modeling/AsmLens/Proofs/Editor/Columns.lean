import AsmLens.Proofs.Buffer.Positions

/-!
# Columns of a line, there and back

Character columns and UTF-16 columns of a line determine each other up to rounding. Going from
characters to units and back clamps a column to the line; going from units to characters and back
rounds a column inside a surrogate pair up. What stands behind both is one equivalence: a character
column is reached by a UTF-16 column of the line exactly when the characters in front of it are wide
enough. Both directions are monotone, so the editor range of a span keeps the order of its ends.
-/

namespace AsmLens

namespace Text

/-! ## One line -/

lemma unitsOfColumn_mono (t : Text) : Monotone (unitsOfColumn t) := fun _ _ h =>
  width_le_of_isPrefix (List.take_prefix_take_left h)

lemma unitsOfColumn_le_width (t : Text) (c : Nat) : unitsOfColumn t c ≤ width t :=
  width_le_of_isPrefix (List.take_prefix c t)

lemma unitsOfColumn_length (t : Text) : unitsOfColumn t t.length = width t := by
  rw [unitsOfColumn, List.take_length]

/-- From characters to units and back a column is clamped to the line. -/
theorem columnOfUnits_unitsOfColumn (t : Text) (c : Nat) :
    columnOfUnits t (unitsOfColumn t c) = min c t.length := by
  have hfront := columnOfUnits_append (t.take c) (t.drop c)
  rwa [List.take_append_drop, List.length_take] at hfront

/-- A UTF-16 column of the line lies in front of a character column exactly when the characters
there reach it. -/
theorem columnOfUnits_le_iff {t : Text} {u : Nat} (h : u ≤ width t) (c : Nat) :
    columnOfUnits t u ≤ c ↔ u ≤ unitsOfColumn t c := by
  constructor
  · intro hle
    calc u ≤ unitsOfColumn t (columnOfUnits t u) := le_width_take h
      _ ≤ unitsOfColumn t c := unitsOfColumn_mono t hle
  · intro hle
    have hshort := columnOfUnits_le_length (List.take_prefix c t) hle
    exact hshort.trans (List.length_take_le c t)

/-- From units to characters and back a column of the line is rounded up to a boundary. -/
theorem isLeast_unitsOfColumn {t : Text} {u : Nat} (h : u ≤ width t) :
    IsLeast { b ∈ unitBoundaries t | u ≤ b } (unitsOfColumn t (columnOfUnits t u)) := by
  rcases clampsTo_columnOfUnits t u with hleast | ⟨hpast, -⟩
  · exact hleast
  · exact absurd h (Nat.not_le_of_lt (hpast (width t) ⟨t, List.prefix_rfl, rfl⟩))

/-- A column past the end comes back as the width of the line. -/
lemma unitsOfColumn_of_width_lt {t : Text} {u : Nat} (h : width t < u) :
    unitsOfColumn t (columnOfUnits t u) = width t := by
  rw [columnOfUnits_of_width_le h.le, unitsOfColumn_length]

end Text

/-! ## Ranges -/

namespace Span

/-- The start of the span is not behind its end, in line-then-column order. -/
def Ordered (s : Span) : Prop :=
  s.startLine < s.endLine ∨ s.startLine = s.endLine ∧ s.startColumn ≤ s.endColumn

instance (s : Span) : Decidable s.Ordered := inferInstanceAs (Decidable (_ ∨ _))

variable {lineText : Nat → Option Text} {line : Nat}

/-- Columns on one line keep their order, whether the line is known or not. -/
lemma editorColumn_mono (lineText : Nat → Option Text) (line : Nat) :
    Monotone (editorColumn lineText line) := by
  intro column column' h
  unfold editorColumn
  split
  · exact Text.unitsOfColumn_mono _ h
  · exact h

lemma editorColumn_le_width {t : Text} (hline : lineText line = some t) (column : Nat) :
    editorColumn lineText line column ≤ t.width := by
  simp only [editorColumn, hline]
  exact t.unitsOfColumn_le_width column

theorem notAfter_toRange {s : Span} (h : s.Ordered) (lineText : Nat → Option Text) :
    (s.toRange lineText).start.NotAfter (s.toRange lineText).stop := by
  rcases h with hlines | ⟨hline, hcolumns⟩
  · exact Or.inl hlines
  · refine Or.inr ⟨hline, ?_⟩
    dsimp only [toRange]
    rw [← hline]
    exact editorColumn_mono lineText s.startLine hcolumns

end Span

/-- Columns are adjoint. On every line, from characters to units and back a column is clamped to the
line, and from units to characters and back it is rounded up to the next boundary between
characters, or down to the width of the line from behind it. On the line, a UTF-16 column lies in
front of a character column exactly when it does so in units. Both directions are monotone and none
leaves the line. So the editor range of a span whose start is not behind its end has a start that is
not behind its stop, and on the lines that are known its columns lie within the line. -/
theorem Text.columns_adjoint :
    (∀ t : Text,
      (∀ c, columnOfUnits t (unitsOfColumn t c) = min c t.length) ∧
      (∀ u, (u ≤ width t →
          IsLeast { b ∈ unitBoundaries t | u ≤ b } (unitsOfColumn t (columnOfUnits t u))) ∧
        (width t < u → unitsOfColumn t (columnOfUnits t u) = width t)) ∧
      (∀ c u, u ≤ width t → (columnOfUnits t u ≤ c ↔ u ≤ unitsOfColumn t c)) ∧
      Monotone (columnOfUnits t) ∧ Monotone (unitsOfColumn t) ∧
      ∀ c, unitsOfColumn t c ≤ width t) ∧
    (∀ (lineText : Nat → Option Text) (s : Span), s.Ordered →
      (s.toRange lineText).start.NotAfter (s.toRange lineText).stop ∧
      (∀ t, lineText s.startLine = some t → (s.toRange lineText).start.character ≤ width t) ∧
      ∀ t, lineText s.endLine = some t → (s.toRange lineText).stop.character ≤ width t) := by
  constructor
  · intro t
    refine ⟨columnOfUnits_unitsOfColumn t, fun u => ⟨isLeast_unitsOfColumn, ?_⟩, ?_,
      fun _ _ h => columnOfUnits_mono t h, unitsOfColumn_mono t, unitsOfColumn_le_width t⟩
    · exact unitsOfColumn_of_width_lt
    · exact fun c u h => columnOfUnits_le_iff h c
  · intro lineText s h
    refine ⟨s.notAfter_toRange h lineText, fun t ht => ?_, fun t ht => ?_⟩
    · exact Span.editorColumn_le_width ht s.startColumn
    · exact Span.editorColumn_le_width ht s.endColumn

/-- A column inside a surrogate pair, one past the end, and a span that reaches past its line. -/
theorem Text.columns_adjoint_paired :
    let t : Text := "a𝄞b".toList
    let lineText := fun line => if line = 3 then some t else none
    let s : Span := ⟨3, 2, 3, 7, 0⟩
    (2 ≤ width t ∧ unitsOfColumn t (columnOfUnits t 2) = 3 ∧
      IsLeast { b ∈ unitBoundaries t | 2 ≤ b } 3) ∧
    (width t < 9 ∧ unitsOfColumn t (columnOfUnits t 9) = width t) ∧
    (∀ c, columnOfUnits t 2 ≤ c ↔ 2 ≤ unitsOfColumn t c) ∧
    s.Ordered ∧ s.toRange lineText = .onLine 3 3 4 ∧ Position.NotAfter ⟨3, 3⟩ ⟨3, 4⟩ ∧
    4 ≤ width t := by
  intro t lineText s
  obtain ⟨hlines, hranges⟩ := columns_adjoint
  obtain ⟨-, hround, hadjoint, -⟩ := hlines t
  have hinside : 2 ≤ width t := by decide
  have hpast : width t < 9 := by decide
  have hordered : s.Ordered := by decide
  obtain ⟨hends, -, hstop⟩ := hranges lineText s hordered
  have hthree : unitsOfColumn t (columnOfUnits t 2) = 3 := by decide
  exact ⟨⟨hinside, hthree, hthree ▸ (hround 2).1 hinside⟩, ⟨hpast, (hround 9).2 hpast⟩,
    fun c => hadjoint c 2 hinside, hordered, by decide, hends, hstop t rfl⟩

end AsmLens
