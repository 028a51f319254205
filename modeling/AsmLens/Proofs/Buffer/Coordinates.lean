import AsmLens.Assist.Spot
import AsmLens.Proofs.Buffer.Edits
import AsmLens.Proofs.Cursor.Context
import AsmLens.Proofs.Scope.Rows
import AsmLens.Proofs.Text.Fields

/-!
# One place in three views

A buffer cuts its lines out of the text by its table of starts and takes all carriage returns off
their ends. The sources of a project and the text under an editor's cursor are cut at line feeds,
and one carriage return is taken off. So the two see the same lines up to the carriage returns that
are left, and the same places in front of these: behind them the buffer knows only the end of its
own line. On a line without a carriage return left the views agree, and what is found on a line by
one of them can be replaced through another.
-/

namespace AsmLens

namespace Text

/-- The place that a UTF-16 column addresses on a line, as an offset in the text: the bytes in front
of the line, and those of the characters of the line in front of the column. -/
def placeOn (head line : Text) (u : Nat) : Nat :=
  byteLength head + byteLength (line.take (columnOfUnits line u))

/-! ## Lines cut at line feeds -/

lemma length_split (sep : Char) (t : Text) : (split sep t).length = t.count sep + 1 := by
  induction t with
  | nil => rfl
  | cons c cs ih =>
    rw [split_eq_splitOn, List.splitOn_cons_eq_if_modifyHead, ← split_eq_splitOn, List.count_cons]
    split
    · rw [List.length_cons, ih]
    · rw [List.length_modifyHead, ih, Nat.add_zero]

/-- The part with a number is what stands between the line feeds. -/
lemma getElem?_split {head raw rest : Text} {number : Nat} (hfeeds : head.count '\n' = number)
    (hstart : head = [] ∨ head.getLast? = some '\n') (hraw : '\n' ∉ raw)
    (hstop : rest = [] ∨ rest.head? = some '\n') :
    (split '\n' (head ++ raw ++ rest))[number]? = some raw := by
  induction number generalizing head with
  | zero =>
    have hnil : head = [] := by
      rcases hstart with hnil | hlast
      · exact hnil
      · exact absurd (List.mem_of_getLast? hlast) (List.count_eq_zero.mp hfeeds)
    subst hnil
    rcases hstop with rfl | hfeed
    · have hsingle := split_join '\n' [raw] (List.cons_ne_nil raw []) (by simpa using hraw)
      rw [join, List.intercalate_singleton] at hsingle
      rw [List.nil_append, List.append_nil, hsingle]
      rfl
    · obtain ⟨later, rfl⟩ := List.head?_eq_some_iff.mp hfeed
      rw [List.nil_append, split_append_cons hraw]
      rfl
  | succ number ih =>
    obtain ⟨first, tail, rfl, hfirst, htail⟩ := exists_feed_append head
    have hzero : first.count '\n' = 0 := List.count_eq_zero.mpr hfirst
    rcases htail with rfl | hfeed
    · rw [List.append_nil, hzero] at hfeeds
      cases hfeeds
    · obtain ⟨later, rfl⟩ := List.head?_eq_some_iff.mp hfeed
      rw [List.count_append, hzero, List.count_cons_self, Nat.zero_add] at hfeeds
      have hlater : later = [] ∨ later.getLast? = some '\n' := by
        rcases List.eq_nil_or_concat later with hnil | ⟨init, c, rfl⟩
        · exact Or.inl hnil
        · right
          rcases hstart with hnil | hlast
          · simp at hnil
          · simpa [List.getLast?_append, List.getLast?_cons] using hlast
      have hrest := ih (Nat.succ.inj hfeeds) hlater
      rw [List.append_assoc, List.append_assoc, List.cons_append, split_append_cons hfirst,
        List.getElem?_cons_succ, ← List.append_assoc, hrest]

end Text

namespace Source

open Text

variable {t head line returns rest : Text} {number : Nat}

/-- One carriage return is taken off the end of a line. -/
lemma dropReturn_append (hline : line.getLast? ≠ some '\r') (hreturns : ∀ c ∈ returns, c = '\r') :
    dropReturn (line ++ returns) = line ++ returns.drop 1 := by
  obtain ⟨n, rfl⟩ : ∃ n, returns = List.replicate n '\r' :=
    ⟨returns.length, List.eq_replicate_of_mem hreturns⟩
  cases n with
  | zero =>
    have hnone : before? ['\r'] line = none := by
      rw [Option.eq_none_iff_forall_ne_some]
      intro front hfront
      rw [before?_eq_some_iff.mp hfront, List.getLast?_concat] at hline
      exact hline rfl
    rw [List.replicate_zero, List.append_nil, dropReturn, hnone]
    simp
  | succ n =>
    have hsome : before? ['\r'] (line ++ List.replicate (n + 1) '\r') =
        some (line ++ List.replicate n '\r') := by
      rw [before?_eq_some_iff, List.replicate_succ', List.append_assoc]
    rw [dropReturn, hsome]
    rfl

/-- A line of a source is the line of the text with all but one of its carriage returns. -/
theorem line?_of_isLine (h : t.IsLine number head line returns rest) :
    line? t number = some (line ++ returns.drop 1) := by
  rw [line?, lines, List.getElem?_map, h.text,
    getElem?_split h.feeds h.start h.plain_returns h.stop, Option.map_some,
    dropReturn_append h.trimmed h.returns]

theorem line?_eq_none_iff : line? t number = none ↔ t.count '\n' < number := by
  rw [line?, lines, List.getElem?_eq_none_iff, List.length_map, length_split]
  exact Nat.succ_le_iff

end Source

/-! ## Columns on a line with carriage returns left -/

namespace Text

/-- A column on the first part of a line. -/
lemma columnOfUnits_append_left {s : Text} (more : Text) {u : Nat} (h : u ≤ width s) :
    columnOfUnits (s ++ more) u = columnOfUnits s u := by
  induction s generalizing u with
  | nil =>
    have hzero : u = 0 := Nat.le_zero.mp h
    rw [hzero, columnOfUnits_zero, columnOfUnits_zero]
  | cons c cs ih =>
    by_cases hzero : u = 0
    · rw [hzero, columnOfUnits_zero, columnOfUnits_zero]
    · rw [width] at h
      rw [List.cons_append, columnOfUnits_cons _ _ hzero, columnOfUnits_cons _ _ hzero,
        ih (by omega)]

/-- A column behind the first part of a line. -/
lemma columnOfUnits_append_right {s : Text} (more : Text) {u : Nat} (h : width s ≤ u) :
    columnOfUnits (s ++ more) u = s.length + columnOfUnits more (u - width s) := by
  induction s generalizing u with
  | nil => simp [width]
  | cons c cs ih =>
    have hpos := units_pos c
    rw [width] at h
    have hrest := ih (u := u - units c) (by omega)
    rw [List.cons_append, columnOfUnits_cons _ _ (by omega), hrest, width, Nat.sub_sub,
      List.length_cons]
    omega

lemma columnOfUnits_le (t : Text) (u : Nat) : columnOfUnits t u ≤ t.length := by
  rcases Nat.le_total u (width t) with hle | hle
  · exact columnOfUnits_le_length List.prefix_rfl hle
  · exact (columnOfUnits_of_width_le hle).le

variable (head stem more : Text) {u : Nat}

lemma placeOn_append_left (h : u ≤ width stem) :
    placeOn head (stem ++ more) u = placeOn head stem u := by
  rw [placeOn, placeOn, columnOfUnits_append_left more h,
    List.take_append_of_le_length (columnOfUnits_le stem u)]

lemma placeOn_append_right (h : width stem ≤ u) :
    placeOn head (stem ++ more) u =
      byteLength (head ++ stem) + byteLength (more.take (columnOfUnits more (u - width stem))) := by
  rw [placeOn, columnOfUnits_append_right more h, List.take_length_add_append, byteLength_append,
    byteLength_append, Nat.add_assoc]

/-- A column past the end of a line addresses the end. -/
lemma placeOn_of_width_le (h : width stem ≤ u) :
    placeOn head stem u = byteLength (head ++ stem) := by
  rw [placeOn, columnOfUnits_of_width_le h, List.take_length, byteLength_append]

lemma placeOn_le : placeOn head stem u ≤ byteLength (head ++ stem) := by
  have hle := byteLength_le_of_isPrefix (List.take_prefix (columnOfUnits stem u) stem)
  rw [placeOn, byteLength_append]
  omega

/-- The place on the first part of a line is the place on the line, or the end of the part if that
lies further in front. -/
theorem placeOn_eq_min :
    placeOn head stem u = min (placeOn head (stem ++ more) u) (byteLength (head ++ stem)) := by
  rcases Nat.le_total u (width stem) with hle | hle
  · rw [placeOn_append_left head stem more hle, Nat.min_eq_left (placeOn_le head stem)]
  · rw [placeOn_append_right head stem more hle, placeOn_of_width_le head stem hle,
      Nat.min_eq_right (Nat.le_add_right _ _)]

/-- The two places are the same up to the end of the first part, and beyond it only if nothing
follows. -/
theorem placeOn_append_eq_iff :
    placeOn head stem u = placeOn head (stem ++ more) u ↔ u ≤ width stem ∨ more = [] := by
  constructor
  · intro heq
    by_contra hcon
    obtain ⟨hlt, hmore⟩ := not_or.mp hcon
    have hle : width stem ≤ u := by omega
    rw [placeOn_of_width_le head stem hle, placeOn_append_right head stem more hle] at heq
    have hnil : more.take (columnOfUnits more (u - width stem)) = [] :=
      byteLength_eq_zero_iff.mp (by omega)
    obtain ⟨c, cs, rfl⟩ := List.exists_cons_of_ne_nil hmore
    rw [columnOfUnits_cons c cs (by omega)] at hnil
    cases hnil
  · rintro (hle | rfl)
    · exact (placeOn_append_left head stem more hle).symm
    · rw [List.append_nil]

end Text

namespace Buffer

/-- How a buffer sees a line of its text that the sources show as `line`, where `stem` is the line
without the carriage returns at its end. A row of a survey shows the line, and the buffer shows the
stem. It finds the place of every column that lies on the stem and takes the end of the stem for all
others, so an edit that comes from a completion on the stem replaces the token it was offered
for. -/
structure SeesLine (b : Buffer) (number : Nat) (head stem line rest : Text) : Prop where
  text : b.text = head ++ line ++ rest
  feeds : head.count '\n' = number
  start : head = [] ∨ head.getLast? = some '\n'
  trimmed : stem = Text.dropEndWhile (· == '\r') line
  row : ∀ f file comments row, (Scope.survey f file b.text comments).1.row? number = some row →
    row.raw = line
  shown : b.lineText? number = some stem
  offset : ∀ u, b.offsetOf? ⟨number, u⟩ =
    some (min (Text.placeOn head line u) (Text.byteLength (head ++ stem)))
  agrees : ∀ u, b.offsetOf? ⟨number, u⟩ = some (Text.placeOn head line u) ↔
    u ≤ Text.width stem ∨ stem = line
  completed : ∀ p spot, Spot.at? b.text p = some spot → spot.row = number →
    spot.line = line ∧ spot.cursor ≤ line.length ∧
    (spot.cursor ≤ stem.length → ∀ new version,
      (b.edit [⟨some spot.tokenRange, new⟩] version).text =
        head ++ (line.take spot.context.tokenStart ++ new ++ line.drop spot.cursor) ++ rest)

/-- A range of columns on a line is replaced by an edit, if the buffer finds the places of both. -/
lemma editedText_onLine (number : Nat) {t head line rest : Text} {start stop : Nat}
    (htext : t = head ++ line ++ rest) (hle : start ≤ stop)
    (hplaces : ∀ column ≤ stop, (LinedText.ofText t).offsetOf?
      ⟨number, Text.unitsOfColumn line column⟩ = some (Text.byteLength (head ++ line.take column)))
    (new : Text) :
    (LinedText.ofText t).editedText ⟨some (.onLine number (Text.unitsOfColumn line start)
      (Text.unitsOfColumn line stop)), new⟩ =
        head ++ (line.take start ++ new ++ line.drop stop) ++ rest := by
  obtain ⟨mid, hmid⟩ : line.take start <+: line.take stop := List.take_prefix_take_left hle
  have hstop : head ++ line.take stop = head ++ line.take start ++ mid := by
    rw [List.append_assoc, hmid]
  have hwhole : t = head ++ line.take start ++ mid ++ (line.drop stop ++ rest) := by
    rw [← hstop, List.append_assoc, ← List.append_assoc (line.take stop), List.take_append_drop,
      htext, List.append_assoc]
  have hsplice :=
    LinedText.splice?_append (head ++ line.take start) mid (line.drop stop ++ rest) new
  rw [← hwhole, ← hstop] at hsplice
  have hbytes : Text.byteLength (head ++ line.take start) ≤
      Text.byteLength (head ++ line.take stop) := by
    rw [hstop]
    exact Text.byteLength_le_of_isPrefix (List.prefix_append _ mid)
  simp only [LinedText.editedText, EditorRange.onLine, hplaces start hle, hplaces stop le_rfl,
    if_pos hbytes]
  have hresult := congrArg (Option.getD · t) hsplice
  simpa [LinedText.ofText] using hresult

lemma eq_dropEndWhile_iff {line : Text} :
    Text.dropEndWhile (· == '\r') line = line ↔ line.getLast? ≠ some '\r' := by
  constructor
  · intro h hlast
    obtain ⟨front, rfl⟩ := List.getLast?_eq_some_iff.mp hlast
    have hlength := congrArg List.length h
    have hdrop : Text.dropEndWhile (· == '\r') (front ++ ['\r']) =
        Text.dropEndWhile (· == '\r') front := List.rdropWhile_concat_pos _ _ _ rfl
    have hle : (Text.dropEndWhile (· == '\r') front).length ≤ front.length :=
      (List.rdropWhile_prefix _ front).length_le
    rw [hdrop, List.length_append, List.length_singleton] at hlength
    omega
  · intro hlast
    refine List.rdropWhile_eq_self_iff.mpr fun hne hreturn => hlast ?_
    rw [List.getLast?_eq_some_getLast hne, beq_iff_eq.mp hreturn]

/-- A spot stands on a line of the text, and its token starts in front of its cursor. -/
lemma spot_of_at? {t : Text} {p : Position} {spot : Spot} (h : Spot.at? t p = some spot) :
    Source.line? t spot.row = some spot.line ∧ spot.context.tokenStart ≤ spot.cursor ∧
      spot.cursor ≤ spot.line.length := by
  obtain ⟨line, hline, hrest⟩ := Option.bind_eq_some_iff.mp h
  obtain ⟨context, hcontext, hspot⟩ := Option.bind_eq_some_iff.mp hrest
  cases hspot
  refine ⟨hline, (Cursor.splits_of_contextAt? hcontext).start_le.trans (Nat.min_le_left _ _), ?_⟩
  exact Text.columnOfUnits_le line _

/-- A buffer sees a line of its text without all of the carriage returns at its end, and the sources
see it without one of them. -/
theorem seesLine_of_isLine (uri : Uri) (version : Int) {t head stem returns rest : Text}
    {number : Nat} (h : t.IsLine number head stem returns rest) :
    SeesLine ⟨uri, t, version⟩ number head stem (stem ++ returns.drop 1)
      (returns.take 1 ++ rest) := by
  have hreturns : ∀ c ∈ returns.drop 1, (c == '\r') = true := fun c hc =>
    beq_iff_eq.mpr (h.returns c (List.mem_of_mem_drop hc))
  have htext : t = head ++ (stem ++ returns.drop 1) ++ (returns.take 1 ++ rest) := by
    have hsplit : returns.drop 1 ++ returns.take 1 = returns := by
      rw [List.eq_replicate_of_mem h.returns, List.drop_replicate, List.take_replicate,
        List.replicate_append_replicate]
      congr 1
      omega
    rw [h.text]
    conv_lhs => rw [← hsplit]
    simp only [List.append_assoc]
  have hoffset : ∀ u, (LinedText.ofText t).offsetOf? ⟨number, u⟩ =
      some (Text.placeOn head stem u) := by
    intro u
    rw [LinedText.offsetOf?_ofText (p := ⟨number, u⟩) h, Text.byteLength_append]
    rfl
  have hagrees : ∀ u, (LinedText.ofText t).offsetOf? ⟨number, u⟩ =
      some (Text.placeOn head (stem ++ returns.drop 1) u) ↔
        u ≤ Text.width stem ∨ stem = stem ++ returns.drop 1 := by
    intro u
    rw [hoffset, Option.some_inj, Text.placeOn_append_eq_iff, List.self_eq_append_right]
  refine ⟨htext, h.feeds, h.start, ?_, ?_, LinedText.lineText?_ofText h, ?_, hagrees, ?_⟩
  · refine (Text.dropEndWhile_append hreturns fun c hc => beq_eq_false_iff_ne.mpr ?_).symm
    rintro rfl
    exact h.trimmed hc
  · intro f file comments row hrow
    have hline := (Scope.row?_survey (s := ⟨file, t, comments⟩) hrow).1
    rw [Source.line?_of_isLine h] at hline
    exact (Option.some.inj hline).symm
  · intro u
    rw [← Text.placeOn_eq_min]
    exact hoffset u
  · intro p spot hspot hrow
    obtain ⟨hline, hstart, hend⟩ := spot_of_at? hspot
    rw [hrow] at hline
    have hshown : spot.line = stem ++ returns.drop 1 :=
      Option.some.inj (hline.symm.trans (Source.line?_of_isLine h))
    refine ⟨hshown, hshown ▸ hend, fun hcursor new later => ?_⟩
    have hedited := editedText_onLine number htext hstart ?_ new
    · rw [← hrow, ← hshown] at hedited
      rw [← hshown]
      exact hedited
    · intro column hcolumn
      have hon : column ≤ stem.length := by omega
      have hcolumn := Text.columnOfUnits_append (stem.take column) (stem.drop column)
      rw [List.take_append_drop, List.length_take_of_le hon] at hcolumn
      rw [hoffset, Text.placeOn, Text.unitsOfColumn, List.take_append_of_le_length hon, hcolumn,
        Text.byteLength_append]

/-- The lines of a text as a buffer sees them. Positions have an offset exactly on the lines that
the sources have. On each of these the buffer finds the places of the columns in front of the
carriage returns that the sources leave at its end, and shows the line that the sources show exactly
if none is left: then the offset of every column is its place on that line. -/
theorem sees_source_lines (uri : Uri) (t : Text) (version : Int) :
    (∀ p : Position, offsetOf? ⟨uri, t, version⟩ p = none ↔ Source.line? t p.line = none) ∧
    ∀ number line, Source.line? t number = some line →
      (Source.lines t)[number]? = some line ∧
      ∃ head stem rest, SeesLine ⟨uri, t, version⟩ number head stem line rest ∧
        (stem = line ↔ line.getLast? ≠ some '\r') := by
  constructor
  · intro p
    rw [Source.line?_eq_none_iff]
    refine LinedText.offsetOf?_eq_none_iff.trans ?_
    rw [LinedText.lineCount_ofText, Nat.succ_le_iff]
  · intro number line hline
    refine ⟨hline, ?_⟩
    have hfeeds : number ≤ t.count '\n' := by
      by_contra hlt
      rw [Source.line?_eq_none_iff.mpr (Nat.lt_of_not_le hlt)] at hline
      cases hline
    obtain ⟨head, stem, returns, rest, hisLine⟩ := Text.exists_isLine hfeeds
    cases (Source.line?_of_isLine hisLine).symm.trans hline
    have hsees := seesLine_of_isLine uri version hisLine
    refine ⟨head, stem, _, hsees, ?_⟩
    rw [← eq_dropEndWhile_iff, ← hsees.trimmed]

/-- A line with a character of two code units and two carriage returns at its end, in front of
another. -/
def returnsBuffer : Buffer :=
  ⟨⟨"file".toList, some {}, .rooted ["a".toList], none, none⟩, "𝄞 ab\r\r\nc".toList, 1⟩

theorem sees_source_lines_returns :
    Source.line? returnsBuffer.text 0 = some "𝄞 ab\r".toList ∧
    returnsBuffer.lineText? 0 = some "𝄞 ab".toList ∧
    returnsBuffer.offsetOf? ⟨0, 1⟩ = some 4 ∧
    (∃ spot, Spot.at? returnsBuffer.text ⟨0, 5⟩ = some spot ∧
      (returnsBuffer.edit [⟨some spot.tokenRange, "abc".toList⟩] 2).text =
        "𝄞 abc\r\r\nc".toList) ∧
    returnsBuffer.lineText? 1 = some "c".toList ∧ returnsBuffer.offsetOf? ⟨2, 0⟩ = none := by
  obtain ⟨hunknown, hlines⟩ := sees_source_lines returnsBuffer.uri returnsBuffer.text 1
  obtain ⟨hfirst, hsecond, hthird⟩ :
      Source.line? returnsBuffer.text 0 = some "𝄞 ab\r".toList ∧
      Source.line? returnsBuffer.text 1 = some "c".toList ∧
      Source.line? returnsBuffer.text 2 = none := by
    decide +kernel
  obtain ⟨-, head, stem, rest, hsees, -⟩ := hlines 0 _ hfirst
  obtain ⟨-, head', stem', rest', hsees', hwhole⟩ := hlines 1 _ hsecond
  obtain rfl : head = [] := hsees.start.resolve_right fun hlast =>
    List.count_eq_zero.mp hsees.feeds (List.mem_of_getLast? hlast)
  obtain rfl : stem = "𝄞 ab".toList := hsees.trimmed
  have htext : "𝄞 ab\r".toList ++ "\r\nc".toList = "𝄞 ab\r".toList ++ rest := hsees.text
  obtain rfl : "\r\nc".toList = rest := List.append_cancel_left htext
  obtain ⟨spot, hspot, hat⟩ : ∃ spot, Spot.at? returnsBuffer.text ⟨0, 5⟩ = some spot ∧
      (spot.row, spot.context.tokenStart, spot.cursor) = (0, 2, 4) :=
    Option.map_eq_some_iff.mp (by decide +kernel)
  simp only [Prod.mk.injEq] at hat
  obtain ⟨hrow, htoken, hcursor⟩ := hat
  obtain ⟨-, -, hedit⟩ := hsees.completed ⟨0, 5⟩ spot hspot hrow
  refine ⟨hfirst, hsees.shown, hsees.offset 1, ⟨spot, hspot, ?_⟩, ?_, (hunknown _).mpr hthird⟩
  · refine (hedit hcursor.le "abc".toList 2).trans ?_
    rw [htoken, hcursor]
    rfl
  · rw [← hwhole.mpr (by decide)]
    exact hsees'.shown

/-- Where a carriage return is left on a line, the buffer shows less of the line and takes a column
behind the return for one in front of it. -/
theorem returned_line_cut_short :
    Source.line? "a\r\r\nb".toList 0 = some "a\r".toList ∧
    Text.placeOn [] "a\r".toList 5 = 2 ∧
    (Buffer.mk returnsBuffer.uri "a\r\r\nb".toList 1).lineText? 0 = some "a".toList ∧
    (Buffer.mk returnsBuffer.uri "a\r\r\nb".toList 1).offsetOf? ⟨0, 5⟩ = some 1 := by
  decide +kernel

end Buffer

end AsmLens
