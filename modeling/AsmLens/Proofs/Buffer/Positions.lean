import AsmLens.Buffer.Basic
import AsmLens.Proofs.Buffer.Lines

/-!
# Positions and offsets

A position addresses a place on its line: its column is clamped to the next boundary between
characters, or to the end of the line. The offset of a position is the number of bytes in front of
that place, and the position of an offset counts the line feeds and the UTF-16 units in front of it.
The two are inverse to each other but for the clamping, and offsets do not fall when positions rise.
-/

namespace AsmLens

/-- Line-then-column order. -/
def Position.NotAfter (p q : Position) : Prop :=
  p.line < q.line ∨ p.line = q.line ∧ p.character ≤ q.character

namespace LinedText

variable {t head line returns rest : Text}

lemma lineCount_ofText (t : Text) : (ofText t).lineCount = t.count '\n' + 1 := length_lineStarts t

/-- The offset of a position on a line. -/
theorem offsetOf?_ofText {p : Position} (h : t.IsLine p.line head line returns rest) :
    (ofText t).offsetOf? p =
      some (Text.byteLength (head ++ line.take (Text.columnOfUnits line p.character))) := by
  have hstart : (ofText t).starts[p.line]? = some (Text.byteLength head) := getElem?_lineStarts h
  simp [offsetOf?, hstart, lineText?_ofText h]

lemma exists_isLine_of_lt {n : Nat} (h : n < (ofText t).lineCount) :
    ∃ head line returns rest, t.IsLine n head line returns rest := by
  rw [lineCount_ofText] at h
  exact Text.exists_isLine (by omega)

theorem offsetOf?_eq_none_iff {p : Position} :
    (ofText t).offsetOf? p = none ↔ (ofText t).lineCount ≤ p.line := by
  constructor
  · intro hnone
    by_contra hlt
    obtain ⟨head, line, returns, rest, hline⟩ := exists_isLine_of_lt (Nat.lt_of_not_le hlt)
    rw [offsetOf?_ofText hline] at hnone
    cases hnone
  · intro hle
    have hstart : (ofText t).starts[p.line]? = none := List.getElem?_eq_none hle
    simp [offsetOf?, hstart]

lemma exists_isLine_of_offsetOf? {p : Position} {o : Nat} (h : (ofText t).offsetOf? p = some o) :
    ∃ head line returns rest, t.IsLine p.line head line returns rest ∧
      o = Text.byteLength (head ++ line.take (Text.columnOfUnits line p.character)) := by
  have hlt : p.line < (ofText t).lineCount := by
    by_contra hle
    rw [offsetOf?_eq_none_iff.mpr (Nat.le_of_not_lt hle)] at h
    cases h
  obtain ⟨head, line, returns, rest, hline⟩ := exists_isLine_of_lt hlt
  rw [offsetOf?_ofText hline] at h
  exact ⟨head, line, returns, rest, hline, (Option.some.inj h).symm⟩

/-- The starts up to the end of a part in front are those of its lines. -/
lemma filter_lineStarts (front back : Text) :
    (lineStarts (front ++ back)).filter (· ≤ Text.byteLength front) = lineStarts front := by
  have hfront : ∀ o ∈ lineStarts front, o ≤ Text.byteLength front := by
    intro o ho
    rw [lineStarts_eq_lineTable] at ho
    obtain ⟨s, hs, rfl⟩ := mem_byteBoundaries_of_mem_lineTable ho
    exact Text.byteLength_le_of_isPrefix hs
  have hback : ∀ o ∈ startsAfter (Text.byteLength front) back, ¬ o ≤ Text.byteLength front :=
    fun o ho => Nat.not_le_of_lt (lt_of_mem_startsAfter ho)
  rw [lineStarts_append, List.filter_append, List.filter_eq_self.mpr (by simpa using hfront),
    List.filter_eq_nil_iff.mpr (by simpa using hback), List.append_nil]

/-- The position behind a part of a line. -/
theorem positionOf?_ofText {head tail : Text} (hstart : head = [] ∨ head.getLast? = some '\n')
    (hplain : '\n' ∉ tail) (back : Text) :
    (ofText (head ++ tail ++ back)).positionOf? (Text.byteLength (head ++ tail)) =
      some ⟨(head ++ tail).count '\n', Text.width tail⟩ := by
  have hmin : min (Text.byteLength (head ++ tail)) (Text.byteLength (head ++ tail ++ back)) =
      Text.byteLength (head ++ tail) :=
    Nat.min_eq_left (Text.byteLength_le_of_isPrefix (List.prefix_append _ _))
  have hlast : (lineStarts (head ++ tail)).getLastD 0 = Text.byteLength head := by
    rw [lineStarts_append, startsAfter_plain _ hplain, List.append_nil, List.getLastD_eq_getLast?,
      getLast?_lineStarts hstart]
    rfl
  simp only [positionOf?, ofText, hmin, filter_lineStarts, hlast, Text.sliceBytes?_append,
    length_lineStarts, Option.bind_eq_bind, Option.bind_some, Option.pure_def, Nat.add_sub_cancel]

/-- The offset of a position is behind the place that the position addresses, and from there the
column that it is clamped to is read back. -/
theorem positionOf?_offsetOf? {p : Position} {o : Nat} (h : (ofText t).offsetOf? p = some o) :
    ∃ line c, (ofText t).lineText? p.line = some line ∧ o ∈ t.byteBoundaries ∧
      (ofText t).positionOf? o = some ⟨p.line, c⟩ ∧ line.ClampsTo p.character c := by
  obtain ⟨head, line, returns, rest, hline, rfl⟩ := exists_isLine_of_offsetOf? h
  have hclamps := Text.clampsTo_columnOfUnits line p.character
  obtain ⟨behind, hbehind⟩ := List.take_prefix (Text.columnOfUnits line p.character) line
  generalize line.take (Text.columnOfUnits line p.character) = part at hclamps hbehind ⊢
  have hplain : '\n' ∉ part := fun hfeed =>
    hline.plain (hbehind ▸ List.mem_append_left behind hfeed)
  have htext : t = head ++ part ++ (behind ++ returns ++ rest) := by
    rw [hline.text, ← hbehind]
    simp
  refine ⟨line, Text.width part, lineText?_ofText hline, ⟨head ++ part, ?_, rfl⟩, ?_, hclamps⟩
  · rw [htext]
    exact List.prefix_append _ _
  · have hposition := positionOf?_ofText hline.start hplain (behind ++ returns ++ rest)
    rw [← htext, List.count_append, hline.feeds, List.count_eq_zero.mpr hplain] at hposition
    exact hposition

/-- A boundary lies on the line with as many line feeds in front, and its position leads back to it
unless it lies among the carriage returns at the end of the line. -/
theorem offsetOf?_positionOf? (front back : Text) :
    ∃ head line returns rest c,
      (front ++ back).IsLine (front.count '\n') head line returns rest ∧
      (ofText (front ++ back)).positionOf? (Text.byteLength front) =
        some ⟨front.count '\n', c⟩ ∧
      ((ofText (front ++ back)).offsetOf? ⟨front.count '\n', c⟩ = some (Text.byteLength front) ∧
          front <+: head ++ line ∨
        (ofText (front ++ back)).offsetOf? ⟨front.count '\n', c⟩ =
            some (Text.byteLength (head ++ line)) ∧
          ∃ part, part ≠ [] ∧ part <+: returns ∧ front = head ++ line ++ part) := by
  obtain ⟨head, tail, rfl, htail, hstart⟩ := Text.exists_append_feed front
  obtain ⟨more, rest, rfl, hmore, hstop⟩ := Text.exists_feed_append back
  have hfeeds : (head ++ tail).count '\n' = head.count '\n' := by
    rw [List.count_append, List.count_eq_zero.mpr htail, Nat.add_zero]
  have hplain : '\n' ∉ tail ++ more := by
    rw [List.mem_append]
    exact not_or.mpr ⟨htail, hmore⟩
  obtain ⟨line, returns, hraw, hline⟩ :=
    Text.isLine_of_raw (t := head ++ tail ++ (more ++ rest)) (by simp) hstart hplain hstop
  have hposition := positionOf?_ofText hstart htail (more ++ rest)
  rw [hfeeds] at hposition ⊢
  refine ⟨head, line, returns, rest, Text.width tail, hline, hposition, ?_⟩
  have hoffset := offsetOf?_ofText (p := ⟨head.count '\n', Text.width tail⟩) hline
  -- the stretch up to the feed starts with the part in front of the boundary and also with the line
  rcases List.prefix_or_prefix_of_prefix (hraw ▸ List.prefix_append tail more)
      (List.prefix_append line returns) with ⟨more', rfl⟩ | ⟨part, rfl⟩
  · left
    rw [hoffset, Text.columnOfUnits_append, List.take_left]
    exact ⟨rfl, by simp⟩
  · have hcolumn : Text.columnOfUnits line (Text.width (line ++ part)) = line.length :=
      Text.columnOfUnits_of_width_le (Text.width_le_of_isPrefix (List.prefix_append line part))
    rw [hcolumn, List.take_length] at hoffset
    by_cases hnil : part = []
    · left
      rw [hoffset, hnil, List.append_nil]
      exact ⟨rfl, List.prefix_rfl⟩
    · right
      rw [List.append_assoc, List.append_cancel_left_eq] at hraw
      exact ⟨hoffset, part, hnil, ⟨more, hraw⟩, (List.append_assoc head line part).symm⟩

/-- A line ends before the lines below it start. -/
lemma isPrefix_of_line_lt {head' line' returns' rest' : Text} {n m : Nat}
    (h : t.IsLine n head line returns rest) (h' : t.IsLine m head' line' returns' rest')
    (hlt : n < m) : head ++ line <+: head' := by
  have hhead : head' <+: t := (List.prefix_append head' line').trans h'.head_isPrefix
  rcases List.prefix_or_prefix_of_prefix h.head_isPrefix hhead with hprefix | hprefix
  · exact hprefix
  · have hcount := hprefix.sublist.count_le '\n'
    rw [List.count_append, h.feeds, h'.feeds, List.count_eq_zero.mpr h.plain] at hcount
    omega

/-- Offsets do not fall when positions rise. -/
theorem offsetOf?_mono {p q : Position} (hpq : p.NotAfter q) {o : Nat}
    (h : (ofText t).offsetOf? q = some o) :
    ∃ o', (ofText t).offsetOf? p = some o' ∧ o' ≤ o := by
  obtain ⟨head, line, returns, rest, hline, rfl⟩ := exists_isLine_of_offsetOf? h
  rcases hpq with hlt | ⟨heq, hle⟩
  · have hfeeds : q.line ≤ t.count '\n' := by
      rw [← hline.feeds]
      exact ((List.prefix_append head line).trans hline.head_isPrefix).sublist.count_le '\n'
    obtain ⟨head', line', returns', rest', hline'⟩ :=
      Text.exists_isLine (show p.line ≤ t.count '\n' by omega)
    refine ⟨_, offsetOf?_ofText hline', Text.byteLength_le_of_isPrefix ?_⟩
    have htake : line'.take (Text.columnOfUnits line' p.character) <+: line' := List.take_prefix _ _
    exact ((List.prefix_append_right_inj head').mpr htake).trans
      ((isPrefix_of_line_lt hline' hline hlt).trans (List.prefix_append _ _))
  · refine ⟨_, offsetOf?_ofText (heq ▸ hline), Text.byteLength_le_of_isPrefix ?_⟩
    exact (List.prefix_append_right_inj head).mpr
      (List.take_prefix_take_left (Text.columnOfUnits_mono line hle))

end LinedText

namespace Buffer

/-- The buffers that opening, replacing and editing lead to. -/
inductive Reached : Buffer → Prop where
  | opened (uri : Uri) (text : Text) (version : Int) : Reached ⟨uri, text, version⟩
  | replaced {b : Buffer} (h : Reached b) (text : Text) (version : Int) :
    Reached (b.setText text version)
  | edited {b : Buffer} (h : Reached b) (edits : List Edit) (version : Int) :
    Reached (b.edit edits version)

/-- Edits leave the table of the text they lead to. -/
lemma tabled_edit {b : Buffer} (h : b.content.Tabled) (edits : List Edit) (version : Int) :
    (b.edit edits version).content.Tabled := by
  induction edits using List.reverseRecOn with
  | nil => exact h
  | append_singleton edits e _ =>
    rw [edit, List.foldl_concat]
    exact LinedText.tabled_ofText _

theorem Reached.tabled {b : Buffer} (h : b.Reached) : b.content.Tabled := by
  induction h with
  | opened uri text version => exact LinedText.tabled_ofText text
  | replaced _ text version _ => exact LinedText.tabled_ofText text
  | edited _ edits version ih => exact tabled_edit ih edits version

/-- Offsets and positions are inverse to each other up to clamping. In every buffer that opening,
replacing and editing lead to, a position has an offset exactly when it has a line, the offset lies
between characters, and its position is on that line, at the column that the given one is clamped
to. A boundary has a position, on the line that the line feeds in front of it count up to, and the
offset of that is the boundary itself or the end of the line, where the boundary lies among the
carriage returns behind it. And offsets do not fall when positions rise. -/
theorem offsets_invert_positions {b : Buffer} (h : b.Reached) :
    (∀ p : Position, (b.offsetOf? p = none ↔ b.lineCount ≤ p.line) ∧
      (p.line < b.lineCount → ∃ line o c, b.lineText? p.line = some line ∧
        b.offsetOf? p = some o ∧ o ∈ b.text.byteBoundaries ∧
        b.positionOf? o = some ⟨p.line, c⟩ ∧ line.ClampsTo p.character c)) ∧
    (∀ front back, b.text = front ++ back → ∃ head line returns rest c,
      b.text.IsLine (front.count '\n') head line returns rest ∧
      b.lineText? (front.count '\n') = some line ∧
      b.positionOf? (Text.byteLength front) = some ⟨front.count '\n', c⟩ ∧
      b.offsetOf? ⟨front.count '\n', c⟩ =
        some (min (Text.byteLength front) (Text.byteLength (head ++ line))) ∧
      (b.offsetOf? ⟨front.count '\n', c⟩ = some (Text.byteLength front) ∨
        ∃ part, part ≠ [] ∧ part <+: returns ∧ front = head ++ line ++ part)) ∧
    (∀ p q : Position, p.NotAfter q → ∀ o, b.offsetOf? q = some o →
      ∃ o', b.offsetOf? p = some o' ∧ o' ≤ o) := by
  have hcontent : b.content = LinedText.ofText b.text := h.tabled.eq_ofText
  simp only [offsetOf?, positionOf?, lineText?, lineCount, hcontent]
  refine ⟨fun p => ⟨LinedText.offsetOf?_eq_none_iff, ?_⟩, ?_, fun p q hpq o =>
    LinedText.offsetOf?_mono hpq⟩
  · intro hlt
    obtain ⟨o, ho⟩ := Option.ne_none_iff_exists'.mp
      fun hnone => absurd hlt (Nat.not_lt_of_le (LinedText.offsetOf?_eq_none_iff.mp hnone))
    obtain ⟨line, c, hline, hboundary, hposition, hclamps⟩ := LinedText.positionOf?_offsetOf? ho
    exact ⟨line, o, c, hline, ho, hboundary, hposition, hclamps⟩
  · intro front back htext
    rw [htext]
    obtain ⟨head, line, returns, rest, c, hline, hposition, hoffset⟩ :=
      LinedText.offsetOf?_positionOf? front back
    refine ⟨head, line, returns, rest, c, hline, LinedText.lineText?_ofText hline, hposition, ?_⟩
    rcases hoffset with ⟨hoffset, hfront⟩ | ⟨hoffset, part, hpart, hreturns, rfl⟩
    · rw [Nat.min_eq_left (Text.byteLength_le_of_isPrefix hfront)]
      exact ⟨hoffset, Or.inl hoffset⟩
    · rw [Nat.min_eq_right (Text.byteLength_le_of_isPrefix (List.prefix_append _ part))]
      exact ⟨hoffset, Or.inr ⟨part, hpart, hreturns, rfl⟩⟩

/-- Lines with characters of two code units and with two carriage returns at an end, the last one
typed in by an edit. -/
def pairedBuffer : Buffer :=
  edit ⟨⟨"file".toList, some {}, .rooted ["a".toList], none, none⟩, "a𝄞\r\r\nb".toList, 1⟩
    [⟨some ⟨⟨1, 1⟩, ⟨1, 1⟩⟩, "𝄞".toList⟩] 2

theorem offsets_invert_positions_paired :
    pairedBuffer.Reached ∧ pairedBuffer.text = "a𝄞\r\r\nb𝄞".toList ∧
    (∃ line c, pairedBuffer.lineText? 0 = some line ∧ pairedBuffer.offsetOf? ⟨0, 2⟩ = some 5 ∧
      pairedBuffer.positionOf? 5 = some ⟨0, c⟩ ∧ line.ClampsTo 2 c) ∧
    pairedBuffer.positionOf? 6 = some ⟨0, 4⟩ ∧ pairedBuffer.offsetOf? ⟨0, 4⟩ = some 5 ∧
    (∃ head line part, pairedBuffer.lineText? 0 = some line ∧ part ≠ [] ∧
      "a𝄞\r".toList = head ++ line ++ part) ∧
    (Position.mk 0 9).NotAfter ⟨1, 0⟩ ∧ pairedBuffer.offsetOf? ⟨1, 0⟩ = some 8 ∧
    ∃ o, pairedBuffer.offsetOf? ⟨0, 9⟩ = some o ∧ o ≤ 8 := by
  have hreached : pairedBuffer.Reached := .edited (.opened _ _ 1) _ 2
  obtain ⟨hpositions, hboundaries, hmono⟩ := offsets_invert_positions hreached
  obtain ⟨htext, hpair, hsix, hinside, hnext⟩ : pairedBuffer.text = "a𝄞\r\r\nb𝄞".toList ∧
      pairedBuffer.offsetOf? ⟨0, 2⟩ = some 5 ∧ pairedBuffer.positionOf? 6 = some ⟨0, 4⟩ ∧
      pairedBuffer.offsetOf? ⟨0, 4⟩ = some 5 ∧ pairedBuffer.offsetOf? ⟨1, 0⟩ = some 8 := by
    decide +kernel
  have hafter : (Position.mk 0 9).NotAfter ⟨1, 0⟩ := Or.inl (by decide)
  refine ⟨hreached, htext, ?_, hsix, hinside, ?_, hafter, hnext, hmono _ _ hafter 8 hnext⟩
  · obtain ⟨line, o, c, hline, ho, _, hposition, hclamps⟩ :=
      (hpositions ⟨0, 2⟩).2 (by decide +kernel)
    cases hpair.symm.trans ho
    exact ⟨line, c, hline, hpair, hposition, hclamps⟩
  · obtain ⟨head, line, _, _, c, _, hline, hposition, _, hoffset⟩ :=
      hboundaries "a𝄞\r".toList "\r\nb𝄞".toList htext
    cases hsix.symm.trans hposition
    rcases hoffset with hself | ⟨part, hpart, _, hfront⟩
    · exact absurd (hinside.symm.trans hself) (by decide)
    · exact ⟨head, line, part, hline, hpart, hfront⟩

end Buffer

end AsmLens
