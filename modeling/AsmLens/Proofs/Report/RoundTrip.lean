import AsmLens.Proofs.Text.Fields
import AsmLens.Report.Reader
import AsmLens.Report.Writer

/-!
# Reading a written report

Reading a report leaves its directives, files, marks and faults in a normal form, and a report
in normal form is read back from its written form. Together they say that writing what was read
loses nothing in these sections. The library section is not claimed: the line of a library entry
may itself stand in square brackets, in which case it opens an ignored section, and the header
behind it ends that section again.
-/

namespace AsmLens

open Text

/-- A text that can stand at the end of a record line: trimmed and without a line feed. -/
structure Text.Inline (t : Text) : Prop where
  trimmed : Trimmed t
  oneLine : '\n' ∉ t

/-- A text that can stand in front of a semicolon. -/
structure Text.Field (t : Text) : Prop extends Inline t where
  closed : ';' ∉ t

/-- A span whose written positions are numbers of 32 bits. -/
structure Span.Fits (s : Span) : Prop where
  startLine : s.startLine + 1 < Bound.word
  startColumn : s.startColumn + 1 < Bound.word
  endLine : s.endLine + 1 < Bound.word
  endColumn : s.endColumn + 1 < Bound.word
  file : s.file < Bound.word

/-- A line that starts with `head` and ends with `tail` is no header. -/
def Report.Unbracketed (head tail : Text) : Prop :=
  ¬ (head.head? = some '[' ∧ tail.getLast? = some ']')

structure DirectiveEntry.Normal (e : DirectiveEntry) : Prop where
  name_ne_nil : e.name ≠ []
  name : e.name.Field
  usage : e.usage.Field
  summary : e.summary.Inline
  unbracketed : Report.Unbracketed e.name e.summary

structure LibraryEntry.Normal (e : LibraryEntry) : Prop where
  library : e.library.Inline
  name : e.name.Inline

structure SourceFile.Normal (marker : Text) (f : SourceFile) : Prop where
  index : f.index < Bound.word
  path : f.path.Inline
  flags : SourceFile.ofPath marker f.index f.path = f

structure MarkKind.Normal (k : MarkKind) : Prop where
  ne_nil : k.write ≠ []
  field : k.write.Field
  read : MarkKind.read k.write = k

structure Mark.Normal (m : Mark) : Prop where
  kind : m.kind.Normal
  span : ∀ s ∈ m.span, s.Fits

structure Severity.Normal (s : Severity) : Prop where
  field : s.write.Field
  read : Severity.read s.write = s

structure Fault.Normal (f : Fault) : Prop where
  severity : f.severity.Normal
  span : ∀ s ∈ f.span, s.Fits
  message : f.message.Inline
  unbracketed : Report.Unbracketed f.severity.write f.message

/-- The form in which a report leaves the reader. -/
structure Report.Normal (marker : Text) (r : Report) : Prop where
  libraries : ∀ e ∈ r.libraries, e.Normal
  directives : ∀ e ∈ r.directives, e.Normal
  preprocessor : ∀ e ∈ r.preprocessor, e.Normal
  files : ∀ f ∈ r.files, f.Normal marker
  marks : ∀ m ∈ r.marks, m.Normal
  faults : ∀ f ∈ r.faults, f.Normal

/-! ## Positions -/

lemma exists_of_mem_mapM {α β : Type} {f : α → Option β} {xs : List α} {ys : List β}
    (h : xs.mapM f = some ys) {y : β} (hy : y ∈ ys) : ∃ x ∈ xs, f x = some y := by
  induction xs generalizing ys with
  | nil =>
    cases h
    cases hy
  | cons x xs ih =>
    rw [List.mapM_cons] at h
    obtain ⟨b, hb, h⟩ := Option.bind_eq_some_iff.mp h
    obtain ⟨bs, hbs, h⟩ := Option.bind_eq_some_iff.mp h
    cases h
    rcases List.mem_cons.mp hy with rfl | hy
    · exact ⟨x, List.mem_cons_self, hb⟩
    · obtain ⟨z, hz, hfz⟩ := ih hbs hy
      exact ⟨z, List.mem_cons_of_mem x hz, hfz⟩

namespace Span

/-- Every position that was read can be written again without leaving 32 bits. -/
theorem fits_of_read? {field : Text} {s : Span} (h : Span.read? field = some s) : s.Fits := by
  unfold Span.read? at h
  dsimp only at h
  split at h
  · cases h
  · split at h
    · cases h
    · rename_i values hvalues
      have bound : ∀ i, values.getD i 0 < Bound.word := by
        intro i
        rw [List.getD_eq_getElem?_getD]
        cases hv : values[i]? with
        | none => exact (by decide : (0 : Nat) < Bound.word)
        | some v =>
          obtain ⟨part, _, hpart⟩ := exists_of_mem_mapM hvalues (List.mem_of_getElem? hv)
          exact readWord?_lt hpart
      have one : 1 < Bound.word := by decide
      cases h
      refine ⟨?_, ?_, ?_, ?_, bound 4⟩
      · have := bound 0
        dsimp only
        omega
      · have := bound 1
        dsimp only
        omega
      · have := bound 2
        dsimp only
        omega
      · have := bound 3
        dsimp only
        omega

lemma mem_write {c : Char} {o : Option Span} (h : c ∈ Span.write o) :
    c = '?' ∨ c = ',' ∨ c.isDigit = true := by
  cases o with
  | none => exact Or.inl (List.mem_singleton.mp h)
  | some s =>
    rcases mem_join h with h | ⟨part, hpart, h⟩
    · exact Or.inr (Or.inl (List.mem_singleton.mp h))
    · simp only [List.mem_cons, List.not_mem_nil, or_false] at hpart
      rcases hpart with rfl | rfl | rfl | rfl | rfl
      all_goals exact Or.inr (Or.inr (isDigit_of_mem_ofNat h))

lemma isSpace_of_mem_write {c : Char} {o : Option Span} (h : c ∈ Span.write o) :
    isSpace c = false := by
  rcases mem_write h with rfl | rfl | h
  · decide
  · decide
  · exact isSpace_of_isDigit h

lemma not_mem_write {c : Char} (o : Option Span) (hq : c ≠ '?') (hc : c ≠ ',')
    (hd : c.isDigit = false) : c ∉ Span.write o := by
  intro h
  rcases mem_write h with h | h | h
  · exact hq h
  · exact hc h
  · rw [hd] at h
    cases h

lemma write_ne_nil (o : Option Span) : Span.write o ≠ [] := by
  cases o with
  | none => exact List.cons_ne_nil _ _
  | some s =>
    rw [Span.write, join_cons_of_ne_nil (List.cons_ne_nil _ _)]
    simp

theorem field_write (o : Option Span) : (Span.write o).Field where
  trimmed := trimmed_of_forall fun _ h => isSpace_of_mem_write h
  oneLine := not_mem_write o (by decide) (by decide) (by decide)
  closed := not_mem_write o (by decide) (by decide) (by decide)

/-- The position field of a span, or of a missing one, is read back. -/
theorem read?_write {o : Option Span} (h : ∀ s ∈ o, s.Fits) :
    Span.read? (Span.write o) = o := by
  cases o with
  | none => decide
  | some s =>
    have hs : s.Fits := h s rfl
    have ht : trim (Span.write (some s)) = Span.write (some s) :=
      trim_eq_self (field_write (some s)).trimmed
    have hne : (Span.write (some s)).isEmpty = false := by
      simpa using write_ne_nil (some s)
    have hsplit : Text.split ',' (Span.write (some s)) =
        [Text.ofNat (s.startLine + 1), Text.ofNat (s.startColumn + 1),
          Text.ofNat (s.endLine + 1), Text.ofNat (s.endColumn + 1), Text.ofNat s.file] := by
      apply split_join _ _ (List.cons_ne_nil _ _)
      intro part hpart
      simp only [List.mem_cons, List.not_mem_nil, or_false] at hpart
      rcases hpart with rfl | rfl | rfl | rfl | rfl
      all_goals exact not_mem_ofNat _ (by decide)
    unfold Span.read?
    dsimp only
    rw [ht, hne, hsplit]
    simp [readWord?_trim_ofNat hs.startLine, readWord?_trim_ofNat hs.startColumn,
      readWord?_trim_ofNat hs.endLine, readWord?_trim_ofNat hs.endColumn,
      readWord?_trim_ofNat hs.file]

end Span

/-! ## Headers -/

namespace Report

theorem ofHeader?_eq_none_iff {l : Text} : Section.ofHeader? l = none ↔ Unbracketed l l := by
  constructor
  · rintro h ⟨hhead, hlast⟩
    obtain ⟨r, rfl⟩ : ∃ r, l = '[' :: r := by
      cases l with
      | nil => cases hhead
      | cons c cs => exact ⟨cs, by cases hhead; rfl⟩
    obtain ⟨inner, rfl⟩ : ∃ inner, r = inner ++ [']'] := by
      rcases List.eq_nil_or_concat r with rfl | ⟨inner, c, rfl⟩
      · exact absurd hlast (by decide)
      · refine ⟨inner, ?_⟩
        rw [List.concat_eq_append, List.getLast?_cons, List.getLast?_append] at hlast
        have hc : c = ']' := by simpa using hlast
        rw [hc, List.concat_eq_append]
    have hin : (after? ['['] ('[' :: (inner ++ [']']))).bind (before? [']']) = some inner := by
      rw [after?_eq_some_iff.mpr (by rfl : '[' :: (inner ++ [']']) = ['['] ++ (inner ++ [']']))]
      exact before?_eq_some_iff.mpr rfl
    unfold Section.ofHeader? at h
    rw [hin] at h
    dsimp only at h
    split_ifs at h
  · intro h
    cases hin : (after? ['['] l).bind (before? [']']) with
    | none => simp only [Section.ofHeader?, hin]
    | some inner =>
      obtain ⟨r, hr, hinner⟩ := Option.bind_eq_some_iff.mp hin
      have hl := after?_eq_some_iff.mp hr
      rw [before?_eq_some_iff.mp hinner] at hl
      subst hl
      exact absurd ⟨rfl, by simp [List.getLast?_cons]⟩ h

/-- A line in brackets with a semicolon in it opens no section that a reader knows. -/
lemma ofHeader?_of_semicolon {l : Text} {s : Section} (hl : ';' ∈ l)
    (h : Section.ofHeader? l = some s) : s = .ignored := by
  unfold Section.ofHeader? at h
  split at h
  · cases h
  · rename_i inner hin
    obtain ⟨r, hr, hinner⟩ := Option.bind_eq_some_iff.mp hin
    rw [after?_eq_some_iff.mp hr, before?_eq_some_iff.mp hinner] at hl
    have hmem : ';' ∈ inner := by simpa using hl
    have hname : ';' ∈ lower (trim inner) :=
      List.mem_map.mpr ⟨';', mem_trim_of_mem hmem (by decide), by decide⟩
    have unknown : ∀ known : Text, ';' ∉ known → lower (trim inner) ≠ known := by
      rintro known hk rfl
      exact hk hname
    dsimp only at h
    rw [if_neg (unknown _ (by decide)), if_neg (unknown _ (by decide)),
      if_neg (unknown _ (by decide)), if_neg (unknown _ (by decide)),
      if_neg (unknown _ (by decide)), if_neg (unknown _ (by decide))] at h
    exact (Option.some.inj h).symm

/-! ## Fields of a line that was read -/

theorem field_trimmed {l : Text} (h : l.Inline) (i : Nat) :
    (Fields.trimmed (Text.split ';' l) i).Field := by
  have mem : ∀ c ∈ Fields.trimmed (Text.split ';' l) i, c ∈ l ∧ c ≠ ';' := by
    intro c hc
    have hc := mem_of_mem_trim hc
    rw [List.getD_eq_getElem?_getD] at hc
    cases hpart : (Text.split ';' l)[i]? with
    | none =>
      rw [hpart] at hc
      cases hc
    | some part =>
      rw [hpart] at hc
      have hp := List.mem_of_getElem? hpart
      refine ⟨mem_of_mem_split hp hc, ?_⟩
      rintro rfl
      exact not_mem_of_mem_split hp hc
  exact ⟨⟨trimmed_trim _, fun hc => h.oneLine (mem _ hc).1⟩, fun hc => (mem _ hc).2 rfl⟩

theorem inline_remainder {l : Text} (h : l.Inline) (i : Nat) :
    (Fields.remainder (Text.split ';' l) i).Inline := by
  refine ⟨trimmed_trim _, fun hc => h.oneLine ?_⟩
  exact (join_drop_split_isSuffix ';' l i).subset (mem_of_mem_trim hc)

/-- The outer fields of a line that is no header do not look like one. -/
theorem unbracketed_fields {l : Text} (hl : Trimmed l) (hh : Section.ofHeader? l = none)
    (i : Nat) : Unbracketed (Fields.trimmed (Text.split ';' l) 0)
      (Fields.remainder (Text.split ';' l) i) := by
  rintro ⟨hhead, hlast⟩
  have hprefix := head_split_isPrefix ';' l
  have hsuffix := join_drop_split_isSuffix ';' l i
  rw [Fields.trimmed, head?_trim (noLeading_of_isPrefix hprefix hl.1)] at hhead
  rw [Fields.remainder, getLast?_trim (noTrailing_of_isSuffix hsuffix hl.2)] at hlast
  refine ofHeader?_eq_none_iff.mp hh ⟨?_, ?_⟩
  · obtain ⟨r, hr⟩ := hprefix
    rw [← hr, List.head?_append, hhead]
    rfl
  · obtain ⟨r, hr⟩ := hsuffix
    rw [← hr, List.getLast?_append, hlast]
    rfl

lemma field_of_forall {t : Text} (h : ∀ c ∈ t, isSpace c = false ∧ c ≠ ';') : t.Field where
  trimmed := trimmed_of_forall fun c hc => (h c hc).1
  oneLine := fun hc => absurd (h _ hc).1 (by decide)
  closed := fun hc => (h _ hc).2 rfl

lemma field_of_all {t : Text} (h : (t.all fun c => !isSpace c && c != ';') = true) :
    t.Field := by
  apply field_of_forall
  intro c hc
  have := List.all_eq_true.mp h c hc
  simpa using this

end Report

lemma MarkKind.read_cases (t : Text) :
    MarkKind.read t = .label ∨ MarkKind.read t = .directive ∨ MarkKind.read t = .preprocessor ∨
      MarkKind.read t = .comment ∨ MarkKind.read t = .other (trim t) := by
  unfold MarkKind.read
  dsimp only
  split_ifs <;> simp

/-- A known kind is written with a name that is read as this kind, and any other kind with the
name it was read from. -/
theorem MarkKind.read_normal {t : Text} (ht : t.Field) (hne : t ≠ []) :
    (MarkKind.read t).Normal := by
  rcases MarkKind.read_cases t with hk | hk | hk | hk | hk
  · rw [hk]
    exact ⟨by decide, Report.field_of_all (by decide), by decide⟩
  · rw [hk]
    exact ⟨by decide, Report.field_of_all (by decide), by decide⟩
  · rw [hk]
    exact ⟨by decide, Report.field_of_all (by decide), by decide⟩
  · rw [hk]
    exact ⟨by decide, Report.field_of_all (by decide), by decide⟩
  · rw [trim_eq_self ht.trimmed] at hk
    rw [hk]
    exact ⟨hne, ht, hk⟩

lemma Severity.read_cases (t : Text) :
    Severity.read t = .error ∨ Severity.read t = .warning ∨
      Severity.read t = .other (trim t) := by
  unfold Severity.read
  dsimp only
  split_ifs <;> simp

lemma Severity.read_trim (t : Text) : Severity.read (trim t) = Severity.read t := by
  unfold Severity.read
  rw [trim_eq_self (trimmed_trim t)]

theorem Severity.read_normal {t : Text} (ht : (trim t).Field) : (Severity.read t).Normal := by
  rcases Severity.read_cases t with hk | hk | hk
  · rw [hk]
    exact ⟨Report.field_of_all (by decide), by decide⟩
  · rw [hk]
    exact ⟨Report.field_of_all (by decide), by decide⟩
  · rw [hk]
    exact ⟨ht, (Severity.read_trim t).trans hk⟩

lemma Severity.read_unbracketed {t tail : Text} (h : Report.Unbracketed (trim t) tail) :
    Report.Unbracketed (Severity.read t).write tail := by
  rcases Severity.read_cases t with hk | hk | hk
  · rw [hk]
    exact fun hb => absurd hb.1 (by decide)
  · rw [hk]
    exact fun hb => absurd hb.1 (by decide)
  · rw [hk]
    exact h

namespace Report

/-! ## What is read is in normal form -/

lemma readLibrary?_normal {l : Text} {e : LibraryEntry} (hl : l.Inline)
    (h : readLibrary? (Text.split ';' l) = some e) : e.Normal := by
  unfold readLibrary? at h
  dsimp only at h
  split at h
  · cases h
  · cases h
    exact ⟨(field_trimmed hl 0).toInline, (field_trimmed hl 2).toInline⟩

lemma readDirective?_normal {l : Text} {e : DirectiveEntry} (hl : l.Inline)
    (hh : Section.ofHeader? l = none) (h : readDirective? (Text.split ';' l) = some e) :
    e.Normal := by
  unfold readDirective? at h
  dsimp only at h
  split at h
  · cases h
  · rename_i hne
    cases h
    exact ⟨by simpa using hne, field_trimmed hl 0, field_trimmed hl 1, inline_remainder hl 2,
      unbracketed_fields hl.trimmed hh 2⟩

lemma readFile?_normal {marker l : Text} {f : SourceFile} (hl : l.Inline)
    (h : readFile? marker (Text.split ';' l) = some f) : f.Normal marker := by
  obtain ⟨index, hindex, rfl⟩ := Option.map_eq_some_iff.mp h
  exact ⟨readWord?_lt hindex, inline_remainder hl 1, rfl⟩

lemma readMark?_normal {l : Text} {m : Mark} (hl : l.Inline)
    (h : readMark? (Text.split ';' l) = some m) : m.Normal := by
  unfold readMark? at h
  dsimp only at h
  split at h
  · cases h
  · rename_i hne
    cases h
    exact ⟨MarkKind.read_normal (field_trimmed hl 0) (by simpa using hne),
      fun s hs => Span.fits_of_read? hs⟩

lemma readFault_normal {l : Text} (hl : l.Inline) (hh : Section.ofHeader? l = none) :
    (readFault (Text.split ';' l)).Normal where
  severity := Severity.read_normal (field_trimmed hl 0)
  span := fun _ hs => Span.fits_of_read? hs
  message := inline_remainder hl 2
  unbracketed := Severity.read_unbracketed (unbracketed_fields hl.trimmed hh 2)

/-- Every record stands on a line that is no header, in some section. -/
lemma exists_line_of_mem_records {marker : Text} {s : Section} {ls : List Text} {x : Record}
    (h : x ∈ records marker s ls) : ∃ l ∈ ls, ∃ t, Section.ofHeader? l = none ∧
      Record.read? marker t (Text.split ';' l) = some x := by
  induction ls generalizing s with
  | nil => cases h
  | cons l ls ih =>
    cases hl : Section.ofHeader? l with
    | some next =>
      simp only [records, hl] at h
      obtain ⟨l', hl', found⟩ := ih h
      exact ⟨l', List.mem_cons_of_mem l hl', found⟩
    | none =>
      simp only [records, hl, List.mem_append, Option.mem_toList] at h
      rcases h with h | h
      · exact ⟨l, List.mem_cons_self, s, hl, h⟩
      · obtain ⟨l', hl', found⟩ := ih h
        exact ⟨l', List.mem_cons_of_mem l hl', found⟩

lemma inline_of_mem_contentLines {text l : Text} (h : l ∈ contentLines text) : l.Inline := by
  obtain ⟨h, _⟩ := List.mem_filter.mp h
  obtain ⟨part, hpart, rfl⟩ := List.mem_map.mp h
  exact ⟨trimmed_trim part, fun hc => not_mem_of_mem_split hpart (mem_of_mem_trim hc)⟩

/-- The normal form of one record. -/
def Record.Normal (marker : Text) : Record → Prop
  | .library e => e.Normal
  | .directive e | .preprocessor e => e.Normal
  | .file f => f.Normal marker
  | .mark m => m.Normal
  | .fault f => f.Normal

lemma Record.read?_normal {marker l : Text} {s : Section} {x : Record} (hl : l.Inline)
    (hh : Section.ofHeader? l = none) (h : Record.read? marker s (Text.split ';' l) = some x) :
    x.Normal marker := by
  cases s with
  | ignored => cases h
  | libraries =>
    obtain ⟨e, he, rfl⟩ := Option.map_eq_some_iff.mp h
    exact readLibrary?_normal hl he
  | directives =>
    obtain ⟨e, he, rfl⟩ := Option.map_eq_some_iff.mp h
    exact readDirective?_normal hl hh he
  | preprocessor =>
    obtain ⟨e, he, rfl⟩ := Option.map_eq_some_iff.mp h
    exact readDirective?_normal hl hh he
  | files =>
    obtain ⟨f, hf, rfl⟩ := Option.map_eq_some_iff.mp h
    exact readFile?_normal hl hf
  | marks =>
    obtain ⟨m, hm, rfl⟩ := Option.map_eq_some_iff.mp h
    exact readMark?_normal hl hm
  | faults =>
    cases h
    exact readFault_normal hl hh

theorem records_normal (marker text : Text) :
    ∀ x ∈ records marker .ignored (contentLines text), x.Normal marker := by
  intro x hx
  obtain ⟨l, hl, s, hh, hread⟩ := exists_line_of_mem_records hx
  exact Record.read?_normal (inline_of_mem_contentLines hl) hh hread

/-- Reading leaves a report in normal form, whatever the text. -/
theorem read_normal (marker text : Text) : (read marker text).Normal marker := by
  have h := records_normal marker text
  refine ⟨?_, ?_, ?_, ?_, ?_, ?_⟩
  all_goals
    intro y hy
    obtain ⟨x, hx, hxy⟩ := List.mem_filterMap.mp hy
    have hn := h x hx
    cases x <;> cases hxy
    exact hn

/-! ## What is in normal form is read back -/

lemma line_two (a b : Text) : line [a, b] = a ++ ';' :: b := by
  simp [line, join]

lemma line_three (a b c : Text) : line [a, b, c] = a ++ ';' :: (b ++ ';' :: c) := by
  simp [line, join]

lemma inline_append {a b : Text} (ha : a.Inline) (hb : b.Inline) : (a ++ ';' :: b).Inline := by
  refine ⟨⟨?_, ?_⟩, ?_⟩
  · cases a with
    | nil => exact fun c hc => by cases hc; decide
    | cons d ds => exact ha.trimmed.1
  · cases hl : b.getLast? with
    | none =>
      have hnil : b = [] := List.getLast?_eq_none_iff.mp hl
      intro c hc
      have hc : c = ';' := by simpa [hnil, eq_comm] using hc
      rw [hc]
      decide
    | some d =>
      intro c hc
      rw [List.getLast?_append, List.getLast?_cons, hl] at hc
      cases hc
      exact hb.trimmed.2 d hl
  · simp [ha.oneLine, hb.oneLine]

/-- Whether a line looks like a header is decided by its outer fields. -/
lemma unbracketed_append {a c : Text} (h : Unbracketed a c) (behind before : Text) :
    Unbracketed (a ++ ';' :: behind) (before ++ ';' :: c) := by
  rintro ⟨hhead, hlast⟩
  refine h ⟨?_, ?_⟩
  · cases a with
    | nil => exact absurd hhead (by simp)
    | cons d ds => exact hhead
  · cases hl : c.getLast? with
    | none =>
      have hnil : c = [] := List.getLast?_eq_none_iff.mp hl
      rw [hnil, List.getLast?_append] at hlast
      exact absurd hlast (by simp)
    | some d =>
      rw [List.getLast?_append, List.getLast?_cons, hl] at hlast
      exact hlast

/-- A line of a written report that stands for itself. -/
structure Content (l : Text) : Prop extends Text.Inline l where
  ne_nil : l ≠ []

/-- A line that is read, in a section, as one record. -/
structure Reads (marker : Text) (s : Section) (l : Text) (x : Record) : Prop
    extends Content l where
  header : Section.ofHeader? l = none
  record : Record.read? marker s (Text.split ';' l) = some x

lemma contentLines_unlines {ls : List Text} (h : ∀ l ∈ ls, Content l) :
    contentLines (ls.flatMap fun l => l ++ ['\n']) = ls := by
  induction ls with
  | nil => decide
  | cons l ls ih =>
    have hl : Content l := h l List.mem_cons_self
    have hne : l.isEmpty = false := by simpa using hl.ne_nil
    have htail := ih fun l' hl' => h l' (List.mem_cons_of_mem l hl')
    rw [List.flatMap_cons, List.append_assoc, List.singleton_append, contentLines,
      split_append_cons hl.oneLine, List.map_cons, trim_eq_self hl.trimmed,
      List.filter_cons_of_pos (by simp [hne])]
    exact congrArg (l :: ·) htail

lemma content_three {a b c : Text} (ha : a.Inline) (hb : b.Inline) (hc : c.Inline) :
    Content (line [a, b, c]) := by
  rw [line_three]
  exact ⟨inline_append ha (inline_append hb hc), by simp⟩

lemma content_two {a b : Text} (ha : a.Inline) (hb : b.Inline) : Content (line [a, b]) := by
  rw [line_two]
  exact ⟨inline_append ha hb, by simp⟩

lemma header_three {a c : Text} (h : Unbracketed a c) (b : Text) :
    Section.ofHeader? (line [a, b, c]) = none := by
  rw [ofHeader?_eq_none_iff, line_three]
  have h := unbracketed_append h (b ++ ';' :: c) (a ++ ';' :: b)
  simpa using h

lemma header_two {a b : Text} (h : Unbracketed a b) :
    Section.ofHeader? (line [a, b]) = none := by
  rw [ofHeader?_eq_none_iff, line_two]
  exact unbracketed_append h b a

lemma split_three {a b : Text} (ha : a.Field) (hb : b.Field) (c : Text) :
    Text.split ';' (line [a, b, c]) = a :: b :: Text.split ';' c := by
  rw [line_three, split_append_cons ha.closed, split_append_cons hb.closed]

lemma split_two {a : Text} (ha : a.Field) (b : Text) :
    Text.split ';' (line [a, b]) = a :: Text.split ';' b := by
  rw [line_two, split_append_cons ha.closed]

lemma trim_join_split {t : Text} (h : t.Inline) :
    trim (join [';'] (Text.split ';' t)) = t := by
  rw [join_split, trim_eq_self h.trimmed]

lemma readDirective?_directiveLine {e : DirectiveEntry} (h : e.Normal) :
    readDirective? (Text.split ';' (directiveLine e)) = some e := by
  have hname : trim e.name = e.name := trim_eq_self h.name.trimmed
  have husage : trim e.usage = e.usage := trim_eq_self h.usage.trimmed
  have hne : e.name.isEmpty = false := by simpa using h.name_ne_nil
  rw [directiveLine, split_three h.name h.usage]
  simp [readDirective?, Fields.trimmed, Fields.remainder, hname, husage, hne,
    trim_join_split h.summary]

lemma content_directiveLine {e : DirectiveEntry} (h : e.Normal) : Content (directiveLine e) :=
  content_three h.name.toInline h.usage.toInline h.summary

lemma reads_directiveLine {marker : Text} {s : Section} {mk : DirectiveEntry → Record}
    (hs : ∀ fields, Record.read? marker s fields = (readDirective? fields).map mk)
    {e : DirectiveEntry} (h : e.Normal) : Reads marker s (directiveLine e) (mk e) where
  toContent := content_directiveLine h
  header := header_three h.unbracketed e.usage
  record := by rw [hs, readDirective?_directiveLine h, Option.map_some]

lemma field_ofNat (n : Nat) : (Text.ofNat n).Field :=
  field_of_forall fun c hc => ⟨isSpace_of_isDigit (isDigit_of_mem_ofNat hc), by
    rintro rfl
    exact not_mem_ofNat n (by decide) hc⟩

lemma reads_fileLine {marker : Text} {f : SourceFile} (h : f.Normal marker) :
    Reads marker .files (fileLine f) (.file f) where
  toContent := content_two (field_ofNat f.index).toInline h.path
  header := by
    apply header_two
    rintro ⟨hhead, _⟩
    exact not_mem_ofNat f.index (by decide) (List.mem_of_mem_head? hhead)
  record := by
    have hindex : readWord? (trim (Text.ofNat f.index)) = some f.index :=
      readWord?_trim_ofNat h.index
    rw [fileLine, split_two (field_ofNat f.index)]
    simp [Record.read?, readFile?, Fields.trimmed, Fields.remainder, hindex,
      trim_join_split h.path, h.flags]

lemma reads_markLine (marker : Text) {m : Mark} (h : m.Normal) :
    Reads marker .marks (markLine m) (.mark m) where
  toContent := content_two h.kind.field.toInline (Span.field_write m.span).toInline
  header := by
    apply header_two
    rintro ⟨_, hlast⟩
    exact Span.not_mem_write m.span (by decide) (by decide) (by decide)
      (List.mem_of_getLast? hlast)
  record := by
    have hne : m.kind.write.isEmpty = false := by simpa using h.kind.ne_nil
    have hspan : Text.split ';' (Span.write m.span) = [Span.write m.span] := by
      rw [split_eq_splitOn, List.splitOn_eq_singleton (Span.field_write m.span).closed]
    rw [markLine, split_two h.kind.field, hspan]
    simp [Record.read?, readMark?, Fields.trimmed, trim_eq_self h.kind.field.trimmed, hne,
      h.kind.read, Span.read?_write h.span]

lemma reads_faultLine (marker : Text) {f : Fault} (h : f.Normal) :
    Reads marker .faults (faultLine f) (.fault f) where
  toContent :=
    content_three h.severity.field.toInline (Span.field_write f.span).toInline h.message
  header := header_three h.unbracketed (Span.write f.span)
  record := by
    rw [faultLine, split_three h.severity.field (Span.field_write f.span)]
    simp [Record.read?, readFault, Fields.remainder, h.severity.read, Span.read?_write h.span,
      trim_join_split h.message]

lemma content_libraryLine {e : LibraryEntry} (h : e.Normal) : Content (libraryLine e) := by
  have hkind : e.kind.write.Inline := by
    cases e.kind <;> exact (field_of_all (by decide)).toInline
  unfold libraryLine
  cases e.arity with
  | none => exact content_three h.library hkind h.name
  | some n =>
    have hline : line ([e.library, e.kind.write, e.name] ++
        ((some n).map Text.ofNat).toList) =
        e.library ++ ';' :: (e.kind.write ++ ';' :: (e.name ++ ';' :: Text.ofNat n)) := by
      simp [line, join]
    rw [hline]
    exact ⟨inline_append h.library (inline_append hkind
      (inline_append h.name (field_ofNat n).toInline)), by simp⟩

/-! ## The written report -/

lemma records_header (marker : Text) (s : Section) {h : Text} {next : Section}
    (hh : Section.ofHeader? h = some next) (rest : List Text) :
    records marker s (h :: rest) = records marker next rest := by
  simp only [records, hh]

/-- A header ends the section in front of it, whatever that section is. -/
theorem records_append_header (marker : Text) (s : Section) (ls : List Text) {h : Text}
    {next : Section} (hh : Section.ofHeader? h = some next) (rest : List Text) :
    records marker s (ls ++ h :: rest) = records marker s ls ++ records marker next rest := by
  induction ls generalizing s with
  | nil => exact records_header marker s hh rest
  | cons l ls ih =>
    cases hl : Section.ofHeader? l with
    | some t => simpa [records, hl] using ih t
    | none => simpa [records, hl] using ih s

lemma records_map {α : Type} {marker : Text} {s : Section} {items : List α}
    {write : α → Text} {mk : α → Record}
    (h : ∀ a ∈ items, Reads marker s (write a) (mk a)) :
    records marker s (items.map write) = items.map mk := by
  induction items with
  | nil => rfl
  | cons a items ih =>
    have ha := h a List.mem_cons_self
    have htail := ih fun b hb => h b (List.mem_cons_of_mem a hb)
    simp [records, ha.header, ha.record, htail]

lemma semicolon_mem_libraryLine (e : LibraryEntry) : ';' ∈ libraryLine e := by
  cases ha : e.arity <;> simp [libraryLine, line, join, ha]

/-- Lines of library entries give library records only, also when one of them reads as a
header. -/
lemma records_libraryLines (marker : Text) (entries : List LibraryEntry) {s : Section}
    (hs : s = .libraries ∨ s = .ignored) :
    ∃ found : List LibraryEntry,
      records marker s (entries.map libraryLine) = found.map .library := by
  induction entries generalizing s with
  | nil => exact ⟨[], rfl⟩
  | cons e entries ih =>
    cases hl : Section.ofHeader? (libraryLine e) with
    | some next =>
      rw [List.map_cons, records_header marker s hl]
      exact ih (Or.inr (ofHeader?_of_semicolon (semicolon_mem_libraryLine e) hl))
    | none =>
      obtain ⟨found, hfound⟩ := ih hs
      simp only [List.map_cons, records, hl, hfound]
      rcases hs with rfl | rfl
      · refine ⟨(readLibrary? (Text.split ';' (libraryLine e))).toList ++ found, ?_⟩
        rw [List.map_append, ← Option.toList_map]
        rfl
      · exact ⟨found, rfl⟩

lemma content_of_mem_writtenLines {marker : Text} {r : Report} (h : r.Normal marker) :
    ∀ l ∈ writtenLines r, Content l := by
  have header : ∀ {t : Text}, (t.all fun c => !isSpace c && c != ';') = true → t ≠ [] →
      Content t := fun ht hne => ⟨(field_of_all ht).toInline, hne⟩
  intro l hl
  simp only [writtenLines, List.mem_append, List.mem_singleton, List.mem_map] at hl
  rcases hl with ((((((((((rfl | ⟨e, he, rfl⟩) | rfl) | ⟨e, he, rfl⟩) | rfl) | ⟨e, he, rfl⟩) |
    rfl) | ⟨f, hf, rfl⟩) | rfl) | ⟨m, hm, rfl⟩) | rfl) | ⟨f, hf, rfl⟩
  · exact header (by decide) (by decide)
  · exact content_libraryLine (h.libraries e he)
  · exact header (by decide) (by decide)
  · exact content_directiveLine (h.directives e he)
  · exact header (by decide) (by decide)
  · exact content_directiveLine (h.preprocessor e he)
  · exact header (by decide) (by decide)
  · exact (reads_fileLine (h.files f hf)).toContent
  · exact header (by decide) (by decide)
  · exact (reads_markLine marker (h.marks m hm)).toContent
  · exact header (by decide) (by decide)
  · exact (reads_faultLine marker (h.faults f hf)).toContent

/-- The records of a written report are, behind those of the libraries, its own records section
by section. -/
theorem records_write {marker : Text} {r : Report} (h : r.Normal marker) :
    records marker .ignored (contentLines r.write) =
      records marker .libraries (r.libraries.map libraryLine) ++ r.directives.map .directive ++
      r.preprocessor.map .preprocessor ++ r.files.map .file ++ r.marks.map .mark ++
      r.faults.map .fault := by
  have headers : Section.ofHeader? "[Libraries]".toList = some .libraries ∧
      Section.ofHeader? "[Directives]".toList = some .directives ∧
      Section.ofHeader? "[PPDirectives]".toList = some .preprocessor ∧
      Section.ofHeader? "[Files]".toList = some .files ∧
      Section.ofHeader? "[Syntax]".toList = some .marks ∧
      Section.ofHeader? "[Errors]".toList = some .faults := by decide
  obtain ⟨hlibraries, hdirectives, hpreprocessor, hfiles, hmarks, hfaults⟩ := headers
  rw [write, contentLines_unlines (content_of_mem_writtenLines h), writtenLines]
  simp only [List.append_assoc, List.cons_append, List.nil_append]
  rw [records_header _ _ hlibraries, records_append_header _ _ _ hdirectives,
    records_append_header _ _ _ hpreprocessor, records_append_header _ _ _ hfiles,
    records_append_header _ _ _ hmarks, records_append_header _ _ _ hfaults,
    records_map fun e he => reads_directiveLine (fun _ => rfl) (h.directives e he),
    records_map fun e he => reads_directiveLine (fun _ => rfl) (h.preprocessor e he),
    records_map fun f hf => reads_fileLine (h.files f hf),
    records_map fun m hm => reads_markLine marker (h.marks m hm),
    records_map fun f hf => reads_faultLine marker (h.faults f hf)]

/-- The spans of all marks and faults. -/
def spans (r : Report) : List Span :=
  r.marks.filterMap (·.span) ++ r.faults.filterMap (·.span)

lemma fits_of_mem_spans {marker : Text} {r : Report} (h : r.Normal marker) :
    ∀ s ∈ r.spans, s.Fits := by
  intro s hs
  rcases List.mem_append.mp hs with hs | hs
  · obtain ⟨m, hm, hms⟩ := List.mem_filterMap.mp hs
    exact (h.marks m hm).span s hms
  · obtain ⟨f, hf, hfs⟩ := List.mem_filterMap.mp hs
    exact (h.faults f hf).span s hfs

/-- Writing what was read and reading it again gives the same directives, files, marks and
faults, and no position leaves 32 bits on the way. -/
theorem read_write_read (marker text : Text) :
    let r := read marker text
    let again := read marker r.write
    (again.directives = r.directives ∧ again.preprocessor = r.preprocessor ∧
      again.files = r.files ∧ again.marks = r.marks ∧ again.faults = r.faults) ∧
    ∀ s ∈ r.spans, s.Fits := by
  intro r again
  have hr : r.Normal marker := read_normal marker text
  obtain ⟨found, hfound⟩ := records_libraryLines marker r.libraries (Or.inl rfl)
  have hagain : again = ofRecords (found.map .library ++ r.directives.map .directive ++
      r.preprocessor.map .preprocessor ++ r.files.map .file ++ r.marks.map .mark ++
      r.faults.map .fault) := by
    rw [← hfound, ← records_write hr]
    rfl
  refine ⟨?_, fits_of_mem_spans hr⟩
  rw [hagain]
  simp [ofRecords, List.filterMap_map]

end Report

end AsmLens
