import AsmLens.Proofs.Buffer.Positions

/-!
# Edits as splices

An edit puts new text in the place of the whole text, or of the stretch between the places that two
positions address in the text that the edits before it left. An edit that names a line the text does
not have, or whose start addresses a place behind that of its end, leaves the text as it is. Two
columns past the end of a line address one place in whichever order they come, and the stretch
between them is empty. What a buffer does with its offsets and its table of lines comes to this: one
edit is one splice, and a list of edits is a list of splices.
-/

namespace AsmLens

namespace Text

/-- A position addresses the place behind `front`, which ends with the part of its line up to the
boundary that its column is clamped to. -/
def Addresses (t : Text) (p : Position) (front : Text) : Prop :=
  ∃ head line returns rest part, t.IsLine p.line head line returns rest ∧ part <+: line ∧
    line.ClampsTo p.character (width part) ∧ front = head ++ part

/-- What one edit makes of a text. -/
inductive Splice (t : Text) : Edit → Text → Prop
  | whole (new : Text) : Splice t ⟨none, new⟩ new
  | replaced {range : EditorRange} {front mid back : Text} (new : Text)
      (htext : t = front ++ mid ++ back) (hstart : t.Addresses range.start front)
      (hstop : t.Addresses range.stop (front ++ mid)) :
      Splice t ⟨some range, new⟩ (front ++ new ++ back)
  | unknown {range : EditorRange} (new : Text)
      (hline : t.count '\n' < range.start.line ∨ t.count '\n' < range.stop.line) :
      Splice t ⟨some range, new⟩ t
  | crossed {range : EditorRange} {front mid : Text} (new : Text) (hmid : mid ≠ [])
      (hstart : t.Addresses range.start (front ++ mid)) (hstop : t.Addresses range.stop front) :
      Splice t ⟨some range, new⟩ t

/-- What edits make of a text, each of the text that the ones before it left. -/
inductive Splices : Text → List Edit → Text → Prop
  | nil (t : Text) : Splices t [] t
  | cons {t t' t'' : Text} {e : Edit} {edits : List Edit} (h : t.Splice e t')
      (hrest : Splices t' edits t'') : Splices t (e :: edits) t''

variable {t front : Text} {p : Position}

lemma Addresses.isPrefix (h : t.Addresses p front) : front <+: t := by
  obtain ⟨head, line, returns, rest, part, hline, hpart, -, rfl⟩ := h
  exact ((List.prefix_append_right_inj head).mpr hpart).trans hline.head_isPrefix

/-- Every position on a line of the text addresses a place. -/
lemma exists_addresses (h : p.line ≤ t.count '\n') : ∃ front, t.Addresses p front := by
  obtain ⟨head, line, returns, rest, hline⟩ := exists_isLine h
  exact ⟨_, head, line, returns, rest, _, hline, List.take_prefix _ line,
    clampsTo_columnOfUnits line p.character, rfl⟩

/-- Every edit makes something of every text. -/
lemma exists_splice (t : Text) (e : Edit) : ∃ t', t.Splice e t' := by
  obtain ⟨_ | range, new⟩ := e
  · exact ⟨new, .whole new⟩
  by_cases hstart : range.start.line ≤ t.count '\n'
  · by_cases hstop : range.stop.line ≤ t.count '\n'
    · obtain ⟨front, hfront⟩ := exists_addresses hstart
      obtain ⟨front', hfront'⟩ := exists_addresses hstop
      rcases List.prefix_or_prefix_of_prefix hfront.isPrefix hfront'.isPrefix with
        ⟨mid, rfl⟩ | ⟨mid, rfl⟩
      · obtain ⟨back, htext⟩ := hfront'.isPrefix
        exact ⟨_, .replaced new htext.symm hfront hfront'⟩
      · by_cases hmid : mid = []
        · -- both positions address one place, so nothing is taken out
          rw [hmid, List.append_nil] at hfront
          obtain ⟨back, htext⟩ := hfront'.isPrefix
          rw [← List.append_nil front'] at htext hfront'
          exact ⟨_, .replaced new htext.symm hfront hfront'⟩
        · exact ⟨t, .crossed new hmid hfront hfront'⟩
    · exact ⟨t, .unknown new (Or.inr (Nat.lt_of_not_le hstop))⟩
  · exact ⟨t, .unknown new (Or.inl (Nat.lt_of_not_le hstart))⟩

end Text

namespace LinedText

/-- Every cut lies between characters: a line can be cut out between two starts, and a stretch can
be replaced between the offsets of two positions. -/
structure Safe (t : LinedText) : Prop where
  starts : ∀ o ∈ t.starts, o ∈ t.text.byteBoundaries
  lines : ∀ n < t.lineCount, ∃ line, t.lineText? n = some line
  offsets : ∀ p o, t.offsetOf? p = some o → o ∈ t.text.byteBoundaries
  splices : ∀ p q start stop, t.offsetOf? p = some start → t.offsetOf? q = some stop →
    start ≤ stop → ∀ new, ∃ t', splice? t.text start stop new = some t'

variable {t front : Text} {p : Position}

/-- The offset of a position counts the bytes in front of the place that it addresses. -/
lemma offsetOf?_of_addresses (h : t.Addresses p front) :
    (ofText t).offsetOf? p = some (Text.byteLength front) := by
  obtain ⟨head, line, returns, rest, part, hline, hpart, hclamps, rfl⟩ := h
  have hwidth := (Text.clampsTo_columnOfUnits line p.character).unique hclamps
  rw [offsetOf?_ofText hline, Text.eq_of_width_eq (List.take_prefix _ line) hpart hwidth]

theorem offsetOf?_eq_some_iff {o : Nat} :
    (ofText t).offsetOf? p = some o ↔ ∃ front, t.Addresses p front ∧ Text.byteLength front = o := by
  constructor
  · intro h
    obtain ⟨head, line, returns, rest, hline, rfl⟩ := exists_isLine_of_offsetOf? h
    exact ⟨_, ⟨head, line, returns, rest, _, hline, List.take_prefix _ line,
      Text.clampsTo_columnOfUnits line p.character, rfl⟩, rfl⟩
  · rintro ⟨front, hfront, rfl⟩
    exact offsetOf?_of_addresses hfront

lemma offsetOf?_of_unknown (h : t.count '\n' < p.line) : (ofText t).offsetOf? p = none := by
  refine offsetOf?_eq_none_iff.mpr ?_
  rw [lineCount_ofText]
  omega

/-- The stretch behind a part in front is replaced. -/
theorem splice?_append (front mid back new : Text) :
    splice? (front ++ mid ++ back) (Text.byteLength front) (Text.byteLength (front ++ mid)) new =
      some (front ++ new ++ back) := by
  have hmid : Text.byteLength (front ++ mid) - Text.byteLength front = Text.byteLength mid := by
    rw [Text.byteLength_append, Nat.add_sub_cancel_left]
  rw [splice?, List.append_assoc front mid back, Text.cutBytes?_append, hmid]
  simp [Text.cutBytes?_append]

theorem safe_ofText (t : Text) : (ofText t).Safe where
  starts o ho := mem_byteBoundaries_of_mem_lineTable (lineStarts_eq_lineTable t ▸ ho)
  lines n hn := by
    obtain ⟨head, line, returns, rest, hline⟩ := exists_isLine_of_lt hn
    exact ⟨line, lineText?_ofText hline⟩
  offsets p o ho := by
    obtain ⟨front, hfront, rfl⟩ := offsetOf?_eq_some_iff.mp ho
    exact ⟨front, hfront.isPrefix, rfl⟩
  splices p q start stop hstart hstop hle new := by
    obtain ⟨front, hfront, rfl⟩ := offsetOf?_eq_some_iff.mp hstart
    obtain ⟨front', hfront', rfl⟩ := offsetOf?_eq_some_iff.mp hstop
    obtain ⟨mid, rfl⟩ := Text.isPrefix_of_byteLength_le hfront.isPrefix hfront'.isPrefix hle
    obtain ⟨back, htext⟩ := hfront'.isPrefix
    refine ⟨front ++ new ++ back, ?_⟩
    have hsplice := splice?_append front mid back new
    rwa [htext] at hsplice

/-- Only the edited text is what an edit makes of a text. -/
theorem editedText_of_splice {e : Edit} {t' : Text} (h : t.Splice e t') :
    (ofText t).editedText e = t' := by
  cases h with
  | whole => rfl
  | @replaced range front mid back new htext hstart hstop =>
    have hle := Text.byteLength_le_of_isPrefix (List.prefix_append front mid)
    have hsplice := splice?_append front mid back new
    rw [← htext] at hsplice
    simp only [editedText, offsetOf?_of_addresses hstart, offsetOf?_of_addresses hstop, if_pos hle]
    exact congrArg (Option.getD · t) hsplice
  | @unknown range new hline =>
    rcases hline with hline | hline
    · simp only [editedText, offsetOf?_of_unknown hline]
      rfl
    · -- the start may have an offset or not, and either way nothing is replaced
      simp only [editedText, offsetOf?_of_unknown hline]
      cases (ofText t).offsetOf? range.start <;> rfl
  | @crossed range front mid new hmid hstart hstop =>
    have hlt : ¬ Text.byteLength (front ++ mid) ≤ Text.byteLength front := by
      have hpos := mt Text.byteLength_eq_zero_iff.mp hmid
      rw [Text.byteLength_append]
      omega
    simp only [editedText, offsetOf?_of_addresses hstart, offsetOf?_of_addresses hstop, if_neg hlt]
    rfl

theorem splice_iff {e : Edit} {t' : Text} : t.Splice e t' ↔ t' = (ofText t).editedText e := by
  constructor
  · intro h
    exact (editedText_of_splice h).symm
  · rintro rfl
    obtain ⟨t', h⟩ := t.exists_splice e
    rwa [editedText_of_splice h]

/-- A run of edits is a run of splices. -/
theorem splices_iff {edits : List Edit} {t' : Text} :
    t.Splices edits t' ↔ t' = (edits.foldl applyEdit (ofText t)).text := by
  induction edits generalizing t with
  | nil =>
    constructor
    · rintro ⟨⟩
      rfl
    · rintro rfl
      exact .nil _
  | cons e edits ih =>
    constructor
    · intro h
      cases h with
      | cons h hrest =>
        rw [splice_iff.mp h] at hrest
        exact ih.mp hrest
    · intro h
      exact .cons (splice_iff.mpr rfl) (ih.mpr h)

end LinedText

namespace Buffer

theorem edit_append (b : Buffer) (edits more : List Edit) (version later : Int) :
    b.edit (edits ++ more) later = (b.edit edits version).edit more later := by
  rw [edit, List.foldl_append]
  rfl

/-- Edits are splices. From a buffer with the table of its text, every cut that is made on the way
lies between characters and the offset of a position is always the place it addresses in the text
that the edits so far have left; the buffer that edits lead to has the table of its text, the given
version and the text of the splices, and no other text is that. So edits can be given in one batch
or in two. -/
theorem edits_are_splices {b : Buffer} (h : b.content.Tabled) (edits : List Edit) (version : Int) :
    (∀ done, done <+: edits → (b.edit done version).content.Safe ∧
      ∀ p o, (b.edit done version).offsetOf? p = some o ↔
        ∃ front, (b.edit done version).text.Addresses p front ∧ Text.byteLength front = o) ∧
    (b.edit edits version).content.Tabled ∧ (b.edit edits version).version = version ∧
    (b.edit edits version).uri = b.uri ∧
    (∀ t, b.text.Splices edits t ↔ t = (b.edit edits version).text) ∧
    ∀ more later, b.edit (edits ++ more) later = (b.edit edits version).edit more later := by
  refine ⟨?_, tabled_edit h edits version, rfl, rfl, ?_, ?_⟩
  · intro done _
    have hcontent : (b.edit done version).content = LinedText.ofText (b.edit done version).text :=
      (tabled_edit h done version).eq_ofText
    simp only [offsetOf?, hcontent]
    exact ⟨LinedText.safe_ofText _, fun p o => LinedText.offsetOf?_eq_some_iff⟩
  · intro t
    rw [LinedText.splices_iff, text, ← h.eq_ofText]
    rfl
  · intro more later
    exact edit_append b edits more version later

/-- A line with a character of two code units and a carriage return at its end, and one more. -/
def clefBuffer : Buffer :=
  ⟨⟨"file".toList, some {}, .rooted ["a".toList], none, none⟩, "a𝄞b\r\ncd".toList, 1⟩

/-- One edit of a character, one of a line that is not there, one whose start lies behind its end,
and one that takes out a line feed the first has put in. -/
def clefEdits : List Edit :=
  [⟨some ⟨⟨0, 1⟩, ⟨0, 3⟩⟩, "x\ny".toList⟩, ⟨some ⟨⟨0, 0⟩, ⟨9, 0⟩⟩, "no".toList⟩,
    ⟨some ⟨⟨1, 1⟩, ⟨0, 0⟩⟩, "no".toList⟩, ⟨some ⟨⟨1, 1⟩, ⟨2, 0⟩⟩, []⟩]

theorem edits_are_splices_rejecting :
    clefBuffer.content.Tabled ∧ clefBuffer.text = "a𝄞b\r\ncd".toList ∧
    (clefBuffer.edit clefEdits 2).content.Safe ∧
    clefBuffer.text.Splices clefEdits "ax\nycd".toList ∧
    (clefBuffer.edit clefEdits 2).content = LinedText.mk "ax\nycd".toList [0, 3] ∧
    clefBuffer.edit clefEdits 2 =
      (clefBuffer.edit (clefEdits.take 2) 7).edit (clefEdits.drop 2) 2 := by
  have htabled : clefBuffer.content.Tabled := LinedText.tabled_ofText _
  obtain ⟨hsafe, _, _, _, hsplices, _⟩ := edits_are_splices htabled clefEdits 2
  obtain ⟨_, _, _, _, _, happend⟩ := edits_are_splices htabled (clefEdits.take 2) 7
  have hcontent : (clefBuffer.edit clefEdits 2).content =
      LinedText.mk "ax\nycd".toList [0, 3] := by
    decide +kernel
  refine ⟨htabled, rfl, (hsafe clefEdits List.prefix_rfl).1, (hsplices _).mpr ?_, hcontent, ?_⟩
  · rw [text, hcontent]
  · exact happend (clefEdits.drop 2) 2

end Buffer

end AsmLens
