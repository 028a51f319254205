import AsmLens.Proofs.Report.RoundTrip

/-!
# Library entries of a written report

The line of a library entry is written without the fields that the reader does not keep, so its last
field can be another one than on the line that was read. If what is left starts with an opening and
ends with a closing bracket, it is a header for the reader. It opens an ignored section, and with
the entry all entries behind it are lost. Every other entry is read back, so a written report gives
back its library entries up to the first one in brackets.
-/

namespace AsmLens

open Text

/-- The line of the entry stands in square brackets. A number at its end is no bracket. -/
def LibraryEntry.Bracketed (e : LibraryEntry) : Prop :=
  e.arity = none ∧ e.library.head? = some '[' ∧ e.name.getLast? = some ']'

instance (e : LibraryEntry) : Decidable e.Bracketed := inferInstanceAs (Decidable (_ ∧ _ ∧ _))

/-- The fields of an entry are those of a line: nothing in them ends a field, the name is there, and
the number of parameters has 32 bits. -/
structure LibraryEntry.Fielded (e : LibraryEntry) : Prop where
  library : e.library.Field
  name : e.name.Field
  name_ne_nil : e.name ≠ []
  arity : ∀ n ∈ e.arity, n < Bound.word

namespace Report

lemma readLibrary?_fielded {l : Text} {e : LibraryEntry} (hl : l.Inline)
    (h : readLibrary? (Text.split ';' l) = some e) : e.Fielded := by
  unfold readLibrary? at h
  dsimp only at h
  split at h
  · cases h
  · rename_i hne
    cases h
    exact ⟨field_trimmed hl 0, field_trimmed hl 2, by simpa using hne, fun n hn => readWord?_lt hn⟩

/-- Library entries come from lines of the library section. -/
lemma readLibrary?_of_record {marker : Text} {s : Section} {fields : Fields} {e : LibraryEntry}
    (h : Record.read? marker s fields = some (.library e)) : readLibrary? fields = some e := by
  cases s with
  | libraries =>
    obtain ⟨e', he, heq⟩ := Option.map_eq_some_iff.mp h
    cases heq
    exact he
  | _ => simp [Record.read?] at h

theorem fielded_of_mem_libraries {marker text : Text} {e : LibraryEntry}
    (h : e ∈ (read marker text).libraries) : e.Fielded := by
  obtain ⟨x, hx, hxe⟩ := List.mem_filterMap.mp h
  obtain ⟨l, hl, s, _, hread⟩ := exists_line_of_mem_records hx
  cases x <;> cases hxe
  exact readLibrary?_fielded (inline_of_mem_contentLines hl) (readLibrary?_of_record hread)

/-! ## The line of one entry -/

lemma field_kind (k : EntryKind) : k.write.Field := by
  cases k <;> exact field_of_all (by decide)

lemma read_kind (k : EntryKind) : EntryKind.read k.write = k := by
  cases k <;> decide

lemma libraryLine_none {e : LibraryEntry} (h : e.arity = none) :
    libraryLine e = line [e.library, e.kind.write, e.name] := by
  simp [libraryLine, h]

lemma libraryLine_some {e : LibraryEntry} {n : Nat} (h : e.arity = some n) :
    libraryLine e = e.library ++ ';' :: line [e.kind.write, e.name, Text.ofNat n] := by
  simp [libraryLine, h, line, join]

/-- A line of a library entry is a header exactly when the entry stands in brackets. -/
theorem ofHeader?_libraryLine (e : LibraryEntry) :
    Section.ofHeader? (libraryLine e) = none ↔ ¬ e.Bracketed := by
  cases harity : e.arity with
  | none =>
    rw [libraryLine_none harity]
    constructor
    · rintro hheader ⟨_, hhead, hlast⟩
      refine ofHeader?_eq_none_iff.mp hheader ⟨?_, ?_⟩
      · rw [line_three, List.head?_append, hhead]
        rfl
      · simp [line_three, List.getLast?_append, List.getLast?_cons, hlast]
    · intro hfree
      refine header_three ?_ e.kind.write
      rintro ⟨hhead, hlast⟩
      exact hfree ⟨harity, hhead, hlast⟩
  | some n =>
    have hfree : ¬ e.Bracketed := fun hb => by cases harity.symm.trans hb.1
    refine iff_of_true ?_ hfree
    -- the line ends in a digit
    rw [libraryLine_some harity, line_three, ofHeader?_eq_none_iff]
    have hend : Unbracketed e.library (Text.ofNat n) := fun hb =>
      not_mem_ofNat n (by decide) (List.mem_of_getLast? hb.2)
    have h := unbracketed_append hend (e.kind.write ++ ';' :: (e.name ++ ';' :: Text.ofNat n))
      (e.library ++ ';' :: (e.kind.write ++ ';' :: e.name))
    simpa using h

lemma split_libraryLine {e : LibraryEntry} (h : e.Fielded) :
    Text.split ';' (libraryLine e) =
      [e.library, e.kind.write, e.name] ++ (e.arity.map Text.ofNat).toList := by
  refine split_join ';' _ (by simp) ?_
  intro part hpart
  simp only [List.mem_append, List.mem_cons, List.not_mem_nil, or_false, Option.mem_toList,
    Option.map_eq_some_iff] at hpart
  rcases hpart with (rfl | rfl | rfl) | ⟨n, _, rfl⟩
  · exact h.library.closed
  · exact (field_kind e.kind).closed
  · exact h.name.closed
  · exact (field_ofNat n).closed

/-- An entry is read back from its line. -/
theorem readLibrary?_libraryLine {e : LibraryEntry} (h : e.Fielded) :
    readLibrary? (Text.split ';' (libraryLine e)) = some e := by
  have hlibrary : trim e.library = e.library := trim_eq_self h.library.trimmed
  have hname : trim e.name = e.name := trim_eq_self h.name.trimmed
  have hne : e.name.isEmpty = false := by simpa using h.name_ne_nil
  have harity : readWord? (trim ((e.arity.map Text.ofNat).getD [])) = e.arity := by
    cases ha : e.arity with
    | none => decide
    | some n => exact readWord?_trim_ofNat (h.arity n ha)
  have hlast : Fields.trimmed ([e.library, e.kind.write, e.name] ++
      (e.arity.map Text.ofNat).toList) 3 = trim ((e.arity.map Text.ofNat).getD []) := by
    cases e.arity <;> rfl
  rw [split_libraryLine h]
  simp only [readLibrary?, hlast, harity]
  simp [Fields.trimmed, hname, hne, hlibrary, read_kind]

/-! ## The section -/

/-- Behind an entry in brackets nothing is read. -/
lemma records_ignored_libraryLines (marker : Text) (entries : List LibraryEntry) :
    records marker .ignored (entries.map libraryLine) = [] := by
  induction entries with
  | nil => rfl
  | cons e entries ih =>
    cases hl : Section.ofHeader? (libraryLine e) with
    | none => simpa [records, hl, Record.read?] using ih
    | some next =>
      rw [List.map_cons, records_header marker _ hl,
        ofHeader?_of_semicolon (semicolon_mem_libraryLine e) hl]
      exact ih

/-- The lines of library entries are read back up to the first entry in brackets. -/
theorem records_libraryLines_eq (marker : Text) {entries : List LibraryEntry}
    (h : ∀ e ∈ entries, e.Fielded) :
    records marker .libraries (entries.map libraryLine) =
      (entries.takeWhile fun e => ¬ e.Bracketed).map .library := by
  induction entries with
  | nil => rfl
  | cons e entries ih =>
    have he : e.Fielded := h e List.mem_cons_self
    have hheader := ofHeader?_libraryLine e
    cases hl : Section.ofHeader? (libraryLine e) with
    | none =>
      have hfree : ¬ e.Bracketed := hheader.mp hl
      have htail := ih fun e' he' => h e' (List.mem_cons_of_mem e he')
      simp [records, hl, Record.read?, readLibrary?_libraryLine he, hfree, htail]
    | some next =>
      have hbracketed : e.Bracketed := by
        by_contra hfree
        cases hl.symm.trans (hheader.mpr hfree)
      rw [List.map_cons, records_header marker _ hl,
        ofHeader?_of_semicolon (semicolon_mem_libraryLine e) hl, records_ignored_libraryLines,
        List.takeWhile_cons_of_neg (by simpa using hbracketed), List.map_nil]

/-- Writing what was read and reading it again gives the library entries up to the first one in
brackets, so it gives all of them exactly when none stands in brackets. -/
theorem libraries_read_back (marker text : Text) :
    let r := read marker text
    let again := read marker r.write
    again.libraries = (r.libraries.takeWhile fun e => ¬ e.Bracketed) ∧
    (again.libraries = r.libraries ↔ ∀ e ∈ r.libraries, ¬ e.Bracketed) := by
  intro r again
  have hfielded : ∀ e ∈ r.libraries, e.Fielded := fun e he => fielded_of_mem_libraries he
  have hagain : again.libraries = r.libraries.takeWhile fun e => ¬ e.Bracketed := by
    have hrecords : again = ofRecords (records marker .ignored (contentLines r.write)) := rfl
    rw [hrecords, records_write (read_normal marker text), records_libraryLines_eq marker hfielded]
    simp [ofRecords, List.filterMap_map]
  refine ⟨hagain, ?_⟩
  rw [hagain, List.takeWhile_eq_self_iff]
  simp

/-- An entry whose last field is not kept, in front of another entry. -/
def bracketedLibraries : Text := "[Libraries]\n[m;constant;x];y\nmath;function;sin;1\n".toList

/-- Both entries are lost. -/
theorem bracketedLibraries_lost :
    let r := read SourceFile.bufferMarker bracketedLibraries
    r.libraries = [⟨"[m".toList, .constant, "x]".toList, none⟩,
      ⟨"math".toList, .function, "sin".toList, some 1⟩] ∧
    (read SourceFile.bufferMarker r.write).libraries = [] := by
  decide +kernel

end Report

end AsmLens
