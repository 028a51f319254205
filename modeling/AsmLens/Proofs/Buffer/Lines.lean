import AsmLens.Buffer.LinedText
import AsmLens.Proofs.Text.Column
import Mathlib.Data.List.DropRight

/-!
# Lines and the table of their starts

A line of a text is what stands between two line feeds, without the carriage returns at its end. The
table of a text holds zero and the offset behind each line feed, in order, so the entry of a line is
the number of bytes in front of it, and the line that is cut out between two entries is the line of
the text.
-/

namespace AsmLens

/-- Line `number` of a text stands behind `head`, with `returns` at its end and `rest` behind it. -/
structure Text.IsLine (t : Text) (number : Nat) (head line returns rest : Text) : Prop where
  text : t = head ++ (line ++ returns) ++ rest
  feeds : head.count '\n' = number
  start : head = [] ∨ head.getLast? = some '\n'
  plain : '\n' ∉ line
  trimmed : line.getLast? ≠ some '\r'
  returns : ∀ c ∈ returns, c = '\r'
  stop : rest = [] ∨ rest.head? = some '\n'

/-! ## Lines -/

namespace Text

lemma exists_dropEndWhile_append (p : Char → Bool) (t : Text) :
    ∃ run, t = dropEndWhile p t ++ run ∧ (∀ c ∈ run, p c = true) ∧
      ∀ c ∈ (dropEndWhile p t).getLast?, p c = false := by
  refine ⟨t.rtakeWhile p, List.rdropWhile_append_rtakeWhile.symm,
    fun c hc => List.mem_rtakeWhile_imp hc, ?_⟩
  intro c hc
  obtain ⟨hne, rfl⟩ := List.mem_getLast?_eq_getLast hc
  exact Bool.eq_false_iff.mpr (List.rdropWhile_last_not p t hne)

lemma dropEndWhile_append {p : Char → Bool} {t run : Text} (hrun : ∀ c ∈ run, p c = true)
    (ht : ∀ c ∈ t.getLast?, p c = false) : dropEndWhile p (t ++ run) = t := by
  induction run using List.reverseRecOn with
  | nil =>
    rw [List.append_nil]
    refine List.rdropWhile_eq_self_iff.mpr fun hne hlast => ?_
    have hfalse := ht _ (List.getLast?_eq_some_getLast hne)
    rw [hfalse] at hlast
    cases hlast
  | append_singleton run c ih =>
    have hc : p c = true := hrun c (by simp)
    have hfront := ih fun d hd => hrun d (List.mem_append_left [c] hd)
    rw [← List.append_assoc]
    exact (List.rdropWhile_concat_pos p (t ++ run) c hc).trans hfront

/-- What stands between two line feeds is a line with carriage returns at its end. -/
lemma isLine_of_raw {t head raw rest : Text} (htext : t = head ++ raw ++ rest)
    (hstart : head = [] ∨ head.getLast? = some '\n') (hplain : '\n' ∉ raw)
    (hstop : rest = [] ∨ rest.head? = some '\n') :
    ∃ line returns, raw = line ++ returns ∧
      t.IsLine (head.count '\n') head line returns rest := by
  obtain ⟨returns, hraw, hreturns, htrimmed⟩ := exists_dropEndWhile_append (· == '\r') raw
  refine ⟨dropEndWhile (· == '\r') raw, returns, hraw, hraw ▸ htext, rfl, hstart, ?_, ?_, ?_, hstop⟩
  · intro hfeed
    exact hplain (hraw ▸ List.mem_append_left returns hfeed)
  · intro hreturn
    exact absurd (htrimmed '\r' hreturn) (by decide)
  · intro c hc
    exact beq_iff_eq.mp (hreturns c hc)

/-- A text is cut in front of its first line feed. -/
lemma exists_feed_append (t : Text) :
    ∃ raw rest, t = raw ++ rest ∧ '\n' ∉ raw ∧ (rest = [] ∨ rest.head? = some '\n') := by
  refine ⟨t.takeWhile (· != '\n'), t.dropWhile (· != '\n'),
    List.takeWhile_append_dropWhile.symm, ?_, ?_⟩
  · intro hfeed
    exact absurd (List.mem_takeWhile_imp hfeed) (by decide)
  · by_cases hnil : t.dropWhile (· != '\n') = []
    · exact Or.inl hnil
    · have hhead := List.head_dropWhile_not (· != '\n') hnil
      rw [List.head?_eq_some_head hnil]
      exact Or.inr (congrArg some (by simpa using hhead))

/-- A text is cut behind its line feeds. -/
lemma exists_append_feed (t : Text) :
    ∃ head tail, t = head ++ tail ∧ '\n' ∉ tail ∧ (head = [] ∨ head.getLast? = some '\n') := by
  obtain ⟨tail, head, htext, hplain, hfeed⟩ := exists_feed_append t.reverse
  refine ⟨head.reverse, tail.reverse, ?_, ?_, ?_⟩
  · rw [← List.reverse_append, ← htext, List.reverse_reverse]
  · rwa [List.mem_reverse]
  · rwa [List.reverse_eq_nil_iff, List.getLast?_reverse]

/-- A text has a line with each number up to that of its line feeds. -/
theorem exists_isLine {t : Text} {number : Nat} (h : number ≤ t.count '\n') :
    ∃ head line returns rest, t.IsLine number head line returns rest := by
  suffices hraw : ∃ head raw rest, t = head ++ raw ++ rest ∧ head.count '\n' = number ∧
      (head = [] ∨ head.getLast? = some '\n') ∧ '\n' ∉ raw ∧
      (rest = [] ∨ rest.head? = some '\n') by
    obtain ⟨head, raw, rest, htext, rfl, hstart, hplain, hstop⟩ := hraw
    obtain ⟨line, returns, _, hline⟩ := isLine_of_raw htext hstart hplain hstop
    exact ⟨head, line, returns, rest, hline⟩
  induction number generalizing t with
  | zero =>
    obtain ⟨raw, rest, htext, hplain, hstop⟩ := exists_feed_append t
    exact ⟨[], raw, rest, htext, rfl, Or.inl rfl, hplain, hstop⟩
  | succ number ih =>
    obtain ⟨first, rest, rfl, hplain, hstop⟩ := exists_feed_append t
    have hzero : first.count '\n' = 0 := List.count_eq_zero.mpr hplain
    rcases hstop with rfl | hfeed
    · rw [List.append_nil, hzero] at h
      omega
    · obtain ⟨later, rfl⟩ := List.head?_eq_some_iff.mp hfeed
      rw [List.count_append, hzero, List.count_cons_self] at h
      obtain ⟨head, raw, rest, rfl, hfeeds, hstart, hraw, hstop⟩ := ih (t := later) (by omega)
      refine ⟨first ++ '\n' :: head, raw, rest, by simp, ?_, ?_, hraw, hstop⟩
      · rw [List.count_append, hzero, List.count_cons_self, hfeeds, Nat.zero_add]
      · right
        rcases hstart with rfl | hlast
        · simp
        · rw [List.getLast?_append, List.getLast?_cons, hlast]
          rfl

variable {t head line returns rest : Text} {number : Nat}

lemma IsLine.plain_returns (h : t.IsLine number head line returns rest) :
    '\n' ∉ line ++ returns := by
  intro hfeed
  rcases List.mem_append.mp hfeed with hfeed | hfeed
  · exact h.plain hfeed
  · exact absurd (h.returns _ hfeed) (by decide)

lemma IsLine.head_isPrefix (h : t.IsLine number head line returns rest) : head ++ line <+: t := by
  rw [h.text]
  exact ⟨returns ++ rest, by simp⟩

end Text

/-! ## The table -/

namespace LinedText

/-- Zero, and the offset behind each line feed. -/
def lineTable (t : Text) : List Nat :=
  0 :: (t.inits.filter (fun front => front.getLast? == some '\n')).map Text.byteLength

/-- The table is that of the text. -/
def Tabled (t : LinedText) : Prop := t.starts = lineTable t.text

lemma startsAfter_append (offset : Nat) (s t : Text) :
    startsAfter offset (s ++ t) =
      startsAfter offset s ++ startsAfter (offset + Text.byteLength s) t := by
  induction s generalizing offset with
  | nil => rfl
  | cons c cs ih =>
    have hnext : offset + c.utf8Size + Text.byteLength cs = offset + Text.byteLength (c :: cs) := by
      rw [Text.byteLength, Nat.add_assoc]
    rw [List.cons_append, startsAfter, startsAfter, ih, hnext]
    split <;> rfl

lemma length_startsAfter (offset : Nat) (t : Text) :
    (startsAfter offset t).length = t.count '\n' := by
  induction t generalizing offset with
  | nil => rfl
  | cons c cs ih =>
    rw [startsAfter, List.count_cons]
    by_cases hc : c = '\n'
    · simp [hc, ih]
    · simp [hc, ih]

lemma startsAfter_plain (offset : Nat) {t : Text} (h : '\n' ∉ t) : startsAfter offset t = [] := by
  rw [← List.length_eq_zero_iff, length_startsAfter, List.count_eq_zero]
  exact h

lemma lineStarts_append (s t : Text) :
    lineStarts (s ++ t) = lineStarts s ++ startsAfter (Text.byteLength s) t := by
  rw [lineStarts, startsAfter_append, Nat.zero_add]
  rfl

lemma length_lineStarts (t : Text) : (lineStarts t).length = t.count '\n' + 1 :=
  congrArg (· + 1) (length_startsAfter 0 t)

theorem lineStarts_eq_lineTable (t : Text) : lineStarts t = lineTable t := by
  induction t using List.reverseRecOn with
  | nil => rfl
  | append_singleton t c ih =>
    rw [lineStarts_append, ih, lineTable, lineTable, List.inits_append]
    by_cases hc : c = '\n'
    · simp [startsAfter, hc, Text.byteLength]
    · simp [startsAfter, hc]

lemma tabled_ofText (t : Text) : (ofText t).Tabled := lineStarts_eq_lineTable t

/-- The text determines all of a text with its table. -/
lemma Tabled.eq_ofText {t : LinedText} (h : t.Tabled) : t = ofText t.text := by
  rcases t with ⟨text, starts⟩
  exact congrArg (mk text) (h.trans (lineStarts_eq_lineTable text).symm)

/-- The last entry of a text that ends with a line feed is its length. -/
lemma getLast?_lineStarts {t : Text} (h : t = [] ∨ t.getLast? = some '\n') :
    (lineStarts t).getLast? = some (Text.byteLength t) := by
  rcases h with rfl | hlast
  · rfl
  · obtain ⟨front, rfl⟩ := List.getLast?_eq_some_iff.mp hlast
    rw [lineStarts_append]
    simp [startsAfter, Text.byteLength]

lemma lt_of_mem_startsAfter {offset o : Nat} {t : Text} (h : o ∈ startsAfter offset t) :
    offset < o := by
  induction t generalizing offset with
  | nil => cases h
  | cons c cs ih =>
    have hpos := c.utf8Size_pos
    rw [startsAfter] at h
    split at h
    · rcases List.mem_cons.mp h with rfl | h
      · omega
      · have hlt := ih h
        omega
    · have hlt := ih h
      omega

lemma mem_byteBoundaries_of_mem_lineTable {t : Text} {o : Nat} (h : o ∈ lineTable t) :
    o ∈ t.byteBoundaries := by
  rcases List.mem_cons.mp h with rfl | h
  · exact ⟨[], List.nil_prefix, rfl⟩
  · obtain ⟨front, hfront, rfl⟩ := List.mem_map.mp h
    exact ⟨front, (List.mem_inits front t).mp (List.mem_of_mem_filter hfront), rfl⟩

section Line

variable {t head line returns rest : Text} {number : Nat}
  (h : t.IsLine number head line returns rest)

include h

/-- A line starts behind the text in front of it. -/
theorem getElem?_lineStarts : (lineStarts t)[number]? = some (Text.byteLength head) := by
  have hlength : (lineStarts head).length = number + 1 := by
    rw [length_lineStarts, h.feeds]
  rw [h.text, List.append_assoc, lineStarts_append, List.getElem?_append_left (by omega),
    ← getLast?_lineStarts h.start, List.getLast?_eq_getElem?, hlength]
  rfl

/-- The line behind it starts behind its line feed. -/
theorem getElem?_lineStarts_succ :
    (lineStarts t)[number + 1]?.getD (Text.byteLength t) =
      Text.byteLength (head ++ (line ++ returns) ++ rest.take 1) := by
  have hlength : (lineStarts (head ++ (line ++ returns))).length = number + 1 := by
    rw [lineStarts_append, startsAfter_plain _ h.plain_returns, List.append_nil, length_lineStarts,
      h.feeds]
  rw [h.text, lineStarts_append, List.getElem?_append_right (by omega), hlength, Nat.sub_self]
  rcases h.stop with rfl | hfeed
  · rfl
  · obtain ⟨later, rfl⟩ := List.head?_eq_some_iff.mp hfeed
    simp [startsAfter, Text.byteLength, Nat.add_assoc]

/-- The line that is cut out of the text is the line of the text. -/
theorem lineText?_ofText : (ofText t).lineText? number = some line := by
  have hslice : Text.sliceBytes? t (Text.byteLength head)
      (Text.byteLength (head ++ (line ++ returns) ++ rest.take 1)) =
        some (line ++ returns ++ rest.take 1) := by
    have htext : t = head ++ (line ++ returns ++ rest.take 1) ++ rest.drop 1 := by
      rw [List.append_assoc head, List.append_assoc (line ++ returns), List.take_append_drop,
        ← List.append_assoc head]
      exact h.text
    have hcut := Text.sliceBytes?_append head (line ++ returns ++ rest.take 1) (rest.drop 1)
    rwa [← htext, ← List.append_assoc head] at hcut
  have hfeed :
      Text.dropEndWhile (· == '\n') (line ++ returns ++ rest.take 1) = line ++ returns := by
    refine Text.dropEndWhile_append ?_ ?_
    · intro c hc
      rcases h.stop with rfl | hstop
      · cases hc
      · obtain ⟨later, rfl⟩ := List.head?_eq_some_iff.mp hstop
        rw [List.mem_singleton.mp hc]
        rfl
    · intro c hc
      refine beq_eq_false_iff_ne.mpr ?_
      rintro rfl
      exact h.plain_returns (List.mem_of_getLast? hc)
  have hreturn : Text.dropEndWhile (· == '\r') (line ++ returns) = line := by
    refine Text.dropEndWhile_append (fun c hc => beq_iff_eq.mpr (h.returns c hc)) ?_
    intro c hc
    refine beq_eq_false_iff_ne.mpr ?_
    rintro rfl
    exact h.trimmed hc
  simp only [lineText?, ofText, Option.bind_eq_bind, getElem?_lineStarts h, Option.bind_some,
    getElem?_lineStarts_succ h, hslice, hfeed, hreturn, Option.pure_def]

end Line

end LinedText

end AsmLens
