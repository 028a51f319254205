import AsmLens.Proofs.Report.RoundTrip

/-!
# Reports are read block by block

A header ends the section in front of it and begins its own, and nothing else is carried from one
line to the next. So a text that starts with a header is read alike wherever it stands, and the
report of two texts is the two reports one behind the other. What moves no record within its section
does not show: the order of blocks of different sections, blocks under unknown headers, blank lines,
and a carriage return in front of each line feed.
-/

namespace AsmLens

open Text

/-- Two reports one behind the other, section by section. -/
instance : Append Report where
  append r s := {
    libraries := r.libraries ++ s.libraries
    directives := r.directives ++ s.directives
    preprocessor := r.preprocessor ++ s.preprocessor
    files := r.files ++ s.files
    marks := r.marks ++ s.marks
    faults := r.faults ++ s.faults }

namespace Report

lemma append_eq (r s : Report) : r ++ s = {
    libraries := r.libraries ++ s.libraries
    directives := r.directives ++ s.directives
    preprocessor := r.preprocessor ++ s.preprocessor
    files := r.files ++ s.files
    marks := r.marks ++ s.marks
    faults := r.faults ++ s.faults } := rfl

lemma append_assoc (r s t : Report) : r ++ s ++ t = r ++ (s ++ t) := by
  simp [append_eq]

lemma nil_append (r : Report) : {} ++ r = r := rfl

lemma append_nil (r : Report) : r ++ {} = r := by
  simp [append_eq]

/-- A line in square brackets, white space around them apart. -/
def IsHeader (l : Text) : Prop := (trim l).head? = some '[' ∧ (trim l).getLast? = some ']'

instance (l : Text) : Decidable (IsHeader l) := inferInstanceAs (Decidable (_ ∧ _))

/-- A line with nothing but white space on it. -/
def IsBlank (l : Text) : Prop := ∀ c ∈ l, isSpace c = true

instance (l : Text) : Decidable (IsBlank l) := List.decidableBAll (fun c => isSpace c = true) l

/-- The first line that is not blank, if there is one, is a header. -/
def StartsWithHeader (text : Text) : Prop :=
  ∀ l ∈ (Text.split '\n' text).find? fun l => ¬ IsBlank l, IsHeader l

instance (text : Text) : Decidable (StartsWithHeader text) :=
  inferInstanceAs (Decidable (∀ _ ∈ _, _))

/-- Lines as one text, with a line feed between neighbours. -/
def ofLines (ls : List Text) : Text := Text.join ['\n'] ls

/-- A header with lines behind it that are no headers. -/
structure Block where
  header : Text
  body : List Text
  opened : Section
  header_opens : Section.ofHeader? (trim header) = some opened
  body_plain : ∀ l ∈ body, ¬ IsHeader l
  oneLine : ∀ l ∈ header :: body, '\n' ∉ l

/-- The lines of a block. -/
def Block.lines (b : Block) : List Text := b.header :: b.body

/-- The text with a carriage return in front of each line feed. -/
def withReturns (text : Text) : Text :=
  text.flatMap fun c => if c = '\n' then ['\r', '\n'] else [c]

/-! ## The lines that carry something -/

lemma isHeader_iff {l : Text} : IsHeader l ↔ ∃ s, Section.ofHeader? (trim l) = some s := by
  rw [← Option.ne_none_iff_exists', ne_eq, ofHeader?_eq_none_iff, Unbracketed, not_not]
  rfl

lemma isBlank_iff {l : Text} : IsBlank l ↔ trim l = [] := by
  constructor
  · intro h
    rw [List.eq_nil_iff_forall_not_mem]
    intro c hc
    have hhead := (trimmed_trim l).1
    cases ht : trim l with
    | nil =>
      rw [ht] at hc
      cases hc
    | cons d ds =>
      have hd : isSpace d = false := hhead d (by rw [ht]; rfl)
      rw [h d (mem_of_mem_trim (ht ▸ List.mem_cons_self))] at hd
      cases hd
  · intro h c hc
    by_contra hspace
    have hmem := mem_trim_of_mem hc (by simpa using hspace)
    rw [h] at hmem
    cases hmem

/-- The lines of two texts with a line feed between them are those of the one and of the other. -/
theorem contentLines_append (a b : Text) :
    contentLines (a ++ '\n' :: b) = contentLines a ++ contentLines b := by
  simp only [contentLines, split_eq_splitOn, List.splitOn_append_cons_self, List.map_append,
    List.filter_append]

theorem contentLines_ofLines (ls : List Text) :
    contentLines (ofLines ls) = ls.flatMap contentLines := by
  induction ls with
  | nil => decide
  | cons l ls ih =>
    by_cases hls : ls = []
    · simp [hls, ofLines, join]
    · rw [ofLines, join_cons_of_ne_nil hls, List.append_assoc, List.singleton_append,
        contentLines_append, List.flatMap_cons, ← ih]
      rfl

lemma contentLines_of_line {l : Text} (h : '\n' ∉ l) :
    contentLines l = [trim l].filter fun t => !t.isEmpty := by
  rw [contentLines, split_eq_splitOn, List.splitOn_eq_singleton h, List.map_singleton]

lemma contentLines_of_isBlank {l : Text} (h : IsBlank l) : contentLines l = [] := by
  rw [contentLines, List.filter_eq_nil_iff]
  intro t ht
  obtain ⟨part, hpart, rfl⟩ := List.mem_map.mp ht
  have hblank : IsBlank part := fun c hc => h c (mem_of_mem_split hpart hc)
  simp [isBlank_iff.mp hblank]

lemma flatMap_contentLines_filter (ls : List Text) :
    (ls.filter fun l => ¬ IsBlank l).flatMap contentLines = ls.flatMap contentLines := by
  induction ls with
  | nil => rfl
  | cons l ls ih =>
    by_cases hl : IsBlank l
    · rw [List.filter_cons_of_neg (by simpa using hl), ih, List.flatMap_cons,
        contentLines_of_isBlank hl, List.nil_append]
    · rw [List.filter_cons_of_pos (by simpa using hl), List.flatMap_cons, ih, List.flatMap_cons]

lemma startsWithHeader_iff {text : Text} : StartsWithHeader text ↔
    ∀ l ∈ (contentLines text).head?, ∃ s, Section.ofHeader? l = some s := by
  have hblank : (fun l => decide ¬ IsBlank l) = (fun t : Text => !t.isEmpty) ∘ trim := by
    funext l
    rw [Bool.eq_iff_iff]
    simp [isBlank_iff]
  rw [StartsWithHeader, contentLines, List.head?_filter, List.find?_map, hblank]
  cases (Text.split '\n' text).find? ((fun t : Text => !t.isEmpty) ∘ trim) with
  | none => simp
  | some l => simp [isHeader_iff]

lemma trim_append_return (t : Text) : trim (t ++ ['\r']) = trim t := by
  have hreturn : isSpace '\r' = true := by decide
  rw [trim, trim, trimStart, trimStart, List.dropWhile_append]
  split
  · rename_i hall
    rw [List.isEmpty_iff.mp hall]
    decide
  · rw [trimEnd_eq_rdropWhile, trimEnd_eq_rdropWhile,
      List.rdropWhile_concat_pos _ _ _ hreturn]

lemma withReturns_of_line {l : Text} (h : '\n' ∉ l) : withReturns l = l := by
  have hchars : ∀ c ∈ l, (if c = '\n' then ['\r', '\n'] else [c]) = [c] := by
    intro c hc
    refine if_neg ?_
    rintro rfl
    exact h hc
  rw [withReturns, List.flatMap_congr hchars, List.flatMap_singleton']

lemma withReturns_append (a b : Text) :
    withReturns (a ++ '\n' :: b) = withReturns a ++ ['\r'] ++ '\n' :: withReturns b := by
  simp [withReturns]

lemma contentLines_withReturns_ofLines {ls : List Text} (h : ∀ l ∈ ls, '\n' ∉ l) :
    contentLines (withReturns (ofLines ls)) = ls.flatMap contentLines := by
  induction ls with
  | nil => decide
  | cons l ls ih =>
    have hl : '\n' ∉ l := h l List.mem_cons_self
    have htail := ih fun m hm => h m (List.mem_cons_of_mem l hm)
    by_cases hls : ls = []
    · simp [hls, ofLines, join, withReturns_of_line hl]
    · have hsplit : withReturns (ofLines (l :: ls)) =
          (l ++ ['\r']) ++ '\n' :: withReturns (ofLines ls) := by
        rw [ofLines, join_cons_of_ne_nil hls, List.append_assoc, List.singleton_append,
          withReturns_append, withReturns_of_line hl]
        rfl
      have hreturn : '\n' ∉ l ++ ['\r'] := by simp [hl]
      rw [hsplit, contentLines_append, htail, List.flatMap_cons, contentLines_of_line hreturn,
        contentLines_of_line hl, trim_append_return]

/-- A carriage return in front of a line feed is trimmed with the line. -/
theorem contentLines_withReturns (text : Text) :
    contentLines (withReturns text) = contentLines text := by
  have hlines := contentLines_withReturns_ofLines fun l (hl : l ∈ Text.split '\n' text) =>
    not_mem_of_mem_split hl
  rwa [← contentLines_ofLines, ofLines, join_split] at hlines

/-! ## Records -/

/-- The section whose records look like this one. -/
def Record.home : Record → Section
  | .library _ => .libraries
  | .directive _ => .directives
  | .preprocessor _ => .preprocessor
  | .file _ => .files
  | .mark _ => .marks
  | .fault _ => .faults

lemma Record.home_of_read? {marker : Text} {s : Section} {fields : Fields} {x : Record}
    (h : Record.read? marker s fields = some x) : x.home = s := by
  cases s with
  | ignored => cases h
  | faults =>
    cases h
    rfl
  | _ =>
    obtain ⟨e, _, rfl⟩ := Option.map_eq_some_iff.mp h
    rfl

/-- Lines that are no headers give records of the section they stand in. -/
lemma home_of_mem_records {marker : Text} {s : Section} {ls : List Text}
    (hplain : ∀ l ∈ ls, Section.ofHeader? l = none) {x : Record}
    (hx : x ∈ records marker s ls) : x.home = s := by
  induction ls with
  | nil => cases hx
  | cons l ls ih =>
    simp only [records, hplain l List.mem_cons_self] at hx
    rcases List.mem_append.mp hx with hx | hx
    · exact Record.home_of_read? (Option.mem_toList.mp hx)
    · exact ih (fun m hm => hplain m (List.mem_cons_of_mem l hm)) hx

/-- Lines that start with a header are read alike in every section. -/
lemma records_append {marker : Text} (s : Section) (ls : List Text) {ms : List Text}
    (h : ∀ l ∈ ms.head?, ∃ t, Section.ofHeader? l = some t) :
    records marker s (ls ++ ms) = records marker s ls ++ records marker .ignored ms := by
  cases ms with
  | nil => simp [records]
  | cons l ms =>
    obtain ⟨t, ht⟩ := h l rfl
    rw [records_append_header marker s ls ht, records_header marker .ignored ht]

lemma ofRecords_append (rs ss : List Record) :
    ofRecords (rs ++ ss) = ofRecords rs ++ ofRecords ss := by
  simp [append_eq, ofRecords]

lemma filterMap_append_comm {α β : Type} {f : α → Option β} {xs ys : List α}
    (h : ∀ x ∈ xs, ∀ y ∈ ys, f x = none ∨ f y = none) :
    (xs ++ ys).filterMap f = (ys ++ xs).filterMap f := by
  rw [List.filterMap_append, List.filterMap_append]
  by_cases hxs : ∀ x ∈ xs, f x = none
  · simp [List.filterMap_eq_nil_iff.mpr hxs]
  · push Not at hxs
    obtain ⟨x, hx, hfx⟩ := hxs
    have hys : ∀ y ∈ ys, f y = none := fun y hy => (h x hx y hy).resolve_left hfx
    simp [List.filterMap_eq_nil_iff.mpr hys]

/-- Records of different sections may change places. -/
theorem ofRecords_append_comm {rs ss : List Record}
    (h : ∀ x ∈ rs, ∀ y ∈ ss, x.home ≠ y.home) : ofRecords (rs ++ ss) = ofRecords (ss ++ rs) := by
  unfold ofRecords
  congr 1
  all_goals
    apply filterMap_append_comm
    intro x hx y hy
    have hhome := h x hx y hy
    cases x <;> cases y <;> simp [Record.home] at hhome ⊢

/-! ## Blocks -/

lemma content_header (b : Block) : contentLines b.header = [trim b.header] := by
  have hne : trim b.header ≠ [] := by
    intro hnil
    have hopens := b.header_opens
    rw [hnil] at hopens
    cases hopens
  rw [contentLines_of_line (b.oneLine _ List.mem_cons_self)]
  simp [hne]

lemma contentLines_block (b : Block) :
    contentLines (ofLines b.lines) = trim b.header :: b.body.flatMap contentLines := by
  rw [contentLines_ofLines, Block.lines, List.flatMap_cons, content_header]
  rfl

lemma Block.startsWithHeader (b : Block) (rest : List Text) :
    StartsWithHeader (ofLines (b.lines ++ rest)) := by
  rw [startsWithHeader_iff, contentLines_ofLines, List.flatMap_append, ← contentLines_ofLines,
    contentLines_block]
  rintro l ⟨⟩
  exact ⟨b.opened, b.header_opens⟩

lemma Block.plain_body (b : Block) :
    ∀ l ∈ b.body.flatMap contentLines, Section.ofHeader? l = none := by
  intro l hl
  obtain ⟨m, hm, hl⟩ := List.mem_flatMap.mp hl
  rw [contentLines_of_line (b.oneLine m (List.mem_cons_of_mem b.header hm))] at hl
  rw [List.mem_singleton.mp (List.mem_of_mem_filter hl)]
  by_contra hsome
  exact b.body_plain m hm (isHeader_iff.mpr (Option.ne_none_iff_exists'.mp hsome))

/-- A block holds records of its own section only. -/
theorem Block.home_of_mem (marker : Text) (b : Block) :
    ∀ x ∈ records marker .ignored (contentLines (ofLines b.lines)), x.home = b.opened := by
  intro x hx
  rw [contentLines_block, records_header marker .ignored b.header_opens] at hx
  exact home_of_mem_records b.plain_body hx

lemma read_ofLines_append (marker : Text) (ls : List Text) {ms : List Text}
    (h : StartsWithHeader (ofLines ms)) :
    read marker (ofLines (ls ++ ms)) = read marker (ofLines ls) ++ read marker (ofLines ms) := by
  rw [startsWithHeader_iff] at h
  rw [read, contentLines_ofLines, List.flatMap_append, ← contentLines_ofLines,
    ← contentLines_ofLines, records_append .ignored _ h, ofRecords_append]
  rfl

theorem read_ignored (marker : Text) {x : Block} (h : x.opened = .ignored) :
    read marker (ofLines x.lines) = {} := by
  have hnone : records marker .ignored (contentLines (ofLines x.lines)) = [] := by
    rw [List.eq_nil_iff_forall_not_mem]
    intro r hr
    have hhome := (x.home_of_mem marker r hr).trans h
    cases r <;> cases hhome
  rw [read, hnone]
  rfl

/-- Blocks of different sections, or of unknown ones, give the same report in either order. -/
theorem read_blocks_comm (marker : Text) {x y : Block}
    (h : x.opened ≠ y.opened ∨ x.opened = .ignored) :
    read marker (ofLines x.lines) ++ read marker (ofLines y.lines) =
      read marker (ofLines y.lines) ++ read marker (ofLines x.lines) := by
  rcases h with hxy | hx
  · simp only [read, ← ofRecords_append]
    apply ofRecords_append_comm
    intro a ha b hb
    rw [x.home_of_mem marker a ha, y.home_of_mem marker b hb]
    exact hxy
  · rw [read_ignored marker hx, append_nil, nil_append]

/-- Reports are read block by block. The report of two texts, the second of which starts with a
header, is the two reports one behind the other. So blocks of different or unknown sections may
change places, and a block under an unknown header, blank lines, and a carriage return in front of
every line feed make no difference. -/
theorem read_block_by_block (marker : Text) :
    (∀ a b, StartsWithHeader b →
      read marker (a ++ '\n' :: b) = read marker a ++ read marker b) ∧
    (∀ (before after : List Text) (x y : Block), StartsWithHeader (ofLines after) →
      x.opened ≠ y.opened ∨ x.opened = .ignored →
      read marker (ofLines (before ++ x.lines ++ y.lines ++ after)) =
        read marker (ofLines (before ++ y.lines ++ x.lines ++ after))) ∧
    (∀ (before after : List Text) (x : Block), StartsWithHeader (ofLines after) →
      x.opened = .ignored →
      read marker (ofLines (before ++ x.lines ++ after)) =
        read marker (ofLines (before ++ after))) ∧
    (∀ ls ms : List Text, ls.filter (fun l => ¬ IsBlank l) = ms.filter (fun l => ¬ IsBlank l) →
      read marker (ofLines ls) = read marker (ofLines ms)) ∧
    ∀ text, read marker (withReturns text) = read marker text := by
  refine ⟨?_, ?_, ?_, ?_, ?_⟩
  · intro a b hb
    rw [read, contentLines_append, records_append .ignored _ (startsWithHeader_iff.mp hb),
      ofRecords_append]
    rfl
  · intro before after x y hafter hxy
    have order : ∀ u v : Block, read marker (ofLines (before ++ u.lines ++ v.lines ++ after)) =
        read marker (ofLines before) ++ (read marker (ofLines u.lines) ++
          read marker (ofLines v.lines)) ++ read marker (ofLines after) := by
      intro u v
      rw [List.append_assoc before, List.append_assoc before, List.append_assoc u.lines,
        read_ofLines_append marker before (u.startsWithHeader _),
        read_ofLines_append marker u.lines (v.startsWithHeader _),
        read_ofLines_append marker v.lines hafter]
      simp only [append_assoc]
    rw [order, order, read_blocks_comm marker hxy]
  · intro before after x hafter hx
    rw [read_ofLines_append marker _ hafter, read_ofLines_append marker _ hafter]
    have hblock := read_ofLines_append marker before (x.startsWithHeader [])
    rw [List.append_nil] at hblock
    rw [hblock, read_ignored marker hx, append_nil]
  · intro ls ms h
    simp only [read, contentLines_ofLines]
    rw [← flatMap_contentLines_filter ls, h, flatMap_contentLines_filter ms]
  · intro text
    rw [read, contentLines_withReturns]
    rfl

/-- A block with one file. -/
def fileBlock : Block where
  header := "[Files]".toList
  body := ["1;/tmp/a.asm".toList]
  opened := .files
  header_opens := by decide
  body_plain := by decide
  oneLine := by decide

/-- A block with one fault, under a header in other letters and with white space around it. -/
def faultBlock : Block where
  header := " [ERRORS]\r".toList
  body := [[], "Error;1,1,1,4,1;[bad]".toList]
  opened := .faults
  header_opens := by decide
  body_plain := by decide
  oneLine := by decide

/-- A block under an unknown header. -/
def strayBlock : Block where
  header := "[Notes]".toList
  body := ["2;/tmp/b.asm".toList]
  opened := .ignored
  header_opens := by decide
  body_plain := by decide
  oneLine := by decide

theorem read_block_by_block_moved :
    let read := read SourceFile.bufferMarker
    let after := [" \t".toList, "[Syntax]".toList, "label;1,1,1,2,1".toList]
    let text := ofLines (fileBlock.lines ++ faultBlock.lines ++ after)
    StartsWithHeader (ofLines after) ∧ fileBlock.opened ≠ faultBlock.opened ∧
    strayBlock.opened = .ignored ∧
    text = ofLines (fileBlock.lines ++ faultBlock.lines) ++ '\n' :: ofLines after ∧
    read text = read (ofLines (fileBlock.lines ++ faultBlock.lines)) ++ read (ofLines after) ∧
    read text = read (ofLines (faultBlock.lines ++ fileBlock.lines ++ after)) ∧
    read (ofLines (fileBlock.lines ++ strayBlock.lines ++ after)) =
      read (ofLines (fileBlock.lines ++ after)) ∧
    read (ofLines after) = read (ofLines after.tail) ∧
    read (withReturns text) = read text ∧
    ((read text).files.length, (read text).faults.length, (read text).marks.length) =
      (1, 1, 1) := by
  intro read after text
  obtain ⟨happend, hswap, hstray, hblank, hreturns⟩ :=
    read_block_by_block SourceFile.bufferMarker
  have hafter : StartsWithHeader (ofLines after) := by decide
  exact ⟨hafter, by decide, by decide, by decide,
    happend (ofLines (fileBlock.lines ++ faultBlock.lines)) (ofLines after) hafter,
    hswap [] after fileBlock faultBlock hafter (Or.inl (by decide)),
    hstray fileBlock.lines after strayBlock hafter rfl, hblank after after.tail (by decide),
    hreturns text, by decide +kernel⟩

end Report

end AsmLens
