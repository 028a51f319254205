import AsmLens.Text.Column
import Mathlib.Data.List.Infix
import Mathlib.Order.Bounds.Basic

/-!
# Boundaries between characters

A boundary of a text is the length of a part in front, in UTF-8 bytes or in UTF-16 units. A text can
be cut at its byte boundaries and nowhere else, and the part in front of a boundary is determined by
it. The character column of a UTF-16 column is that of the next boundary, or the end of the text
where there is none.
-/

namespace AsmLens.Text

/-- The byte offsets between characters. -/
def byteBoundaries (t : Text) : Set Nat := { o | ∃ front, front <+: t ∧ byteLength front = o }

/-- The UTF-16 columns between characters. -/
def unitBoundaries (t : Text) : Set Nat := { u | ∃ front, front <+: t ∧ width front = u }

/-- A UTF-16 column is clamped to the next boundary, and to the width of the text where there is
none. -/
def ClampsTo (t : Text) (column boundary : Nat) : Prop :=
  IsLeast { u ∈ unitBoundaries t | column ≤ u } boundary ∨
    (∀ u ∈ unitBoundaries t, u < column) ∧ boundary = width t

/-! ## Bytes -/

@[simp] lemma byteLength_append (s t : Text) :
    byteLength (s ++ t) = byteLength s + byteLength t := by
  induction s with
  | nil => simp [byteLength]
  | cons c cs ih =>
    rw [List.cons_append, byteLength, byteLength, ih]
    omega

lemma byteLength_eq_zero_iff {t : Text} : byteLength t = 0 ↔ t = [] := by
  cases t with
  | nil => simp [byteLength]
  | cons c cs =>
    have hpos := c.utf8Size_pos
    simp only [byteLength, reduceCtorEq, iff_false]
    omega

lemma byteLength_le_of_isPrefix {s t : Text} (h : s <+: t) : byteLength s ≤ byteLength t := by
  obtain ⟨rest, rfl⟩ := h
  rw [byteLength_append]
  omega

/-- Of two parts in front of a text the one with fewer bytes is a part of the other. -/
lemma isPrefix_of_byteLength_le {s s' t : Text} (h : s <+: t) (h' : s' <+: t)
    (hle : byteLength s ≤ byteLength s') : s <+: s' := by
  rcases List.prefix_or_prefix_of_prefix h h' with hprefix | ⟨rest, rfl⟩
  · exact hprefix
  · rw [byteLength_append] at hle
    have hrest : rest = [] := byteLength_eq_zero_iff.mp (by omega)
    rw [hrest, List.append_nil]

/-- A text is cut behind a part in front of it. -/
theorem cutBytes?_append (front back : Text) :
    cutBytes? (front ++ back) (byteLength front) = some (front, back) := by
  induction front with
  | nil => simp [cutBytes?, byteLength]
  | cons c cs ih =>
    obtain ⟨n, hn⟩ : ∃ n, byteLength (c :: cs) = n + 1 :=
      Nat.exists_eq_succ_of_ne_zero fun hzero => nomatch byteLength_eq_zero_iff.mp hzero
    have hrest : n + 1 - c.utf8Size = byteLength cs := by
      rw [← hn, byteLength, Nat.add_sub_cancel_left]
    have hle : c.utf8Size ≤ n + 1 := by
      rw [← hn, byteLength]
      omega
    rw [hn, List.cons_append, cutBytes?, if_pos hle, hrest, ih]
    rfl

theorem sliceBytes?_append (front mid back : Text) :
    sliceBytes? (front ++ mid ++ back) (byteLength front) (byteLength (front ++ mid)) =
      some mid := by
  have hmid : byteLength (front ++ mid) - byteLength front = byteLength mid := by
    rw [byteLength_append, Nat.add_sub_cancel_left]
  rw [sliceBytes?, if_pos (byteLength_le_of_isPrefix (List.prefix_append front mid)),
    List.append_assoc, cutBytes?_append, hmid]
  simp [cutBytes?_append]

/-! ## UTF-16 units -/

lemma units_pos (c : Char) : 0 < units c := by
  unfold units
  split <;> omega

@[simp] lemma width_append (s t : Text) : width (s ++ t) = width s + width t := by
  induction s with
  | nil => simp [width]
  | cons c cs ih =>
    rw [List.cons_append, width, width, ih]
    omega

lemma width_le_of_isPrefix {s t : Text} (h : s <+: t) : width s ≤ width t := by
  obtain ⟨rest, rfl⟩ := h
  rw [width_append]
  omega

lemma columnOfUnits_zero (t : Text) : columnOfUnits t 0 = 0 := by
  cases t <;> rfl

lemma columnOfUnits_cons (c : Char) (cs : Text) {u : Nat} (h : u ≠ 0) :
    columnOfUnits (c :: cs) u = columnOfUnits cs (u - units c) + 1 := if_neg h

/-- The column behind a part in front is its length. -/
lemma columnOfUnits_append (front back : Text) :
    columnOfUnits (front ++ back) (width front) = front.length := by
  induction front with
  | nil => exact columnOfUnits_zero back
  | cons c cs ih =>
    have hpos := units_pos c
    rw [List.cons_append, width, columnOfUnits_cons _ _ (by omega), Nat.add_sub_cancel_left, ih,
      List.length_cons]

/-- A column past the end is the end. -/
lemma columnOfUnits_of_width_le {t : Text} {u : Nat} (h : width t ≤ u) :
    columnOfUnits t u = t.length := by
  induction t generalizing u with
  | nil => rfl
  | cons c cs ih =>
    have hpos := units_pos c
    rw [width] at h
    rw [columnOfUnits_cons c cs (by omega), ih (by omega), List.length_cons]

lemma columnOfUnits_mono (t : Text) {u v : Nat} (h : u ≤ v) :
    columnOfUnits t u ≤ columnOfUnits t v := by
  induction t generalizing u v with
  | nil => exact Nat.le_refl _
  | cons c cs ih =>
    by_cases hzero : u = 0
    · rw [hzero, columnOfUnits_zero]
      exact Nat.zero_le _
    · rw [columnOfUnits_cons c cs hzero, columnOfUnits_cons c cs (by omega)]
      exact Nat.succ_le_succ (ih (by omega))

/-- The characters in front of the column reach up to it. -/
lemma le_width_take {t : Text} {u : Nat} (h : u ≤ width t) :
    u ≤ width (t.take (columnOfUnits t u)) := by
  induction t generalizing u with
  | nil => exact h
  | cons c cs ih =>
    by_cases hzero : u = 0
    · rw [hzero]
      exact Nat.zero_le _
    · rw [width] at h
      have hrest := ih (u := u - units c) (by omega)
      rw [columnOfUnits_cons c cs hzero, List.take_succ_cons, width]
      omega

/-- A part in front that reaches up to the column holds the characters in front of it. -/
lemma columnOfUnits_le_length {t front : Text} (hfront : front <+: t) {u : Nat}
    (h : u ≤ width front) : columnOfUnits t u ≤ front.length := by
  induction t generalizing front u with
  | nil => exact Nat.zero_le _
  | cons c cs ih =>
    by_cases hzero : u = 0
    · rw [hzero, columnOfUnits_zero]
      exact Nat.zero_le _
    · rcases List.prefix_cons_iff.mp hfront with rfl | ⟨rest, rfl, hrest⟩
      · exact absurd (Nat.le_zero.mp h) hzero
      · rw [width] at h
        rw [columnOfUnits_cons c cs hzero, List.length_cons]
        exact Nat.succ_le_succ (ih hrest (by omega))

/-- Parts in front of a text are told apart by their widths. -/
lemma eq_of_width_eq {s s' t : Text} (h : s <+: t) (h' : s' <+: t) (heq : width s = width s') :
    s = s' := by
  have hcolumn : ∀ {part}, part <+: t → columnOfUnits t (width part) = part.length := by
    rintro part ⟨rest, rfl⟩
    exact columnOfUnits_append part rest
  have hlength : s.length = s'.length := by
    rw [← hcolumn h, heq, hcolumn h']
  exact (List.prefix_of_prefix_length_le h h' hlength.le).eq_of_length hlength

/-- A column is clamped to one boundary only. -/
lemma ClampsTo.unique {t : Text} {u a b : Nat} (ha : t.ClampsTo u a) (hb : t.ClampsTo u b) :
    a = b := by
  rcases ha with ha | ⟨hpast, rfl⟩
  · rcases hb with hb | ⟨hpast, -⟩
    · exact ha.unique hb
    · exact absurd ha.1.2 (Nat.not_le_of_lt (hpast a ha.1.1))
  · rcases hb with hb | ⟨-, rfl⟩
    · exact absurd hb.1.2 (Nat.not_le_of_lt (hpast b hb.1.1))
    · rfl

/-- The characters in front of the column of a UTF-16 column end where that is clamped to. -/
theorem clampsTo_columnOfUnits (t : Text) (u : Nat) :
    t.ClampsTo u (width (t.take (columnOfUnits t u))) := by
  by_cases hu : u ≤ width t
  · refine Or.inl ⟨⟨⟨_, List.take_prefix _ t, rfl⟩, le_width_take hu⟩, ?_⟩
    rintro _ ⟨⟨front, hfront, rfl⟩, hle⟩
    have hshort := columnOfUnits_le_length hfront hle
    refine width_le_of_isPrefix (List.prefix_of_prefix_length_le (List.take_prefix _ t) hfront ?_)
    exact (List.length_take_le _ t).trans hshort
  · refine Or.inr ⟨?_, ?_⟩
    · rintro _ ⟨front, hfront, rfl⟩
      have hle := width_le_of_isPrefix hfront
      omega
    · rw [columnOfUnits_of_width_le (by omega), List.take_length]

end AsmLens.Text
