import AsmLens.Assist.Definition
import AsmLens.Proofs.Catalogue.NameIndex
import AsmLens.Proofs.Catalogue.NameSpans

/-!
# A definition is found at its name

What an editor is sent as the place of a definition is the span of the symbol that the name under
the cursor means, in UTF-16 columns of the raw line. The span denotes a name on that line, so the
range cuts this name out of it.
-/

namespace AsmLens

/-- The range cuts the word out of a line of text. -/
def EditorRange.Cuts (range : EditorRange) (line : Nat) (t word : Text) : Prop :=
  ∃ front back, t = front ++ word ++ back ∧
    range = .onLine line (Text.width front) (Text.width (front ++ word))

/-- The editor range of the stretch of a word cuts out the word. -/
theorem Span.cuts_toRange {t word : Text} {column line : Nat} (file : Nat)
    {lineText : Nat → Option Text} (h : t.StandsAt column word) (hline : lineText line = some t) :
    ((Span.onLine file line column (column + word.length)).toRange lineText).Cuts line t word := by
  obtain ⟨front, back, rfl, rfl⟩ := h
  refine ⟨front, back, rfl, ?_⟩
  have hstart : (front ++ word ++ back).take front.length = front := by
    rw [List.append_assoc, List.take_left']
    rfl
  have hstop : (front ++ word ++ back).take (front.length + word.length) = front ++ word := by
    rw [← List.length_append, List.take_left']
    rfl
  simp only [Span.toRange, Span.onLine, Span.editorColumn, hline, Text.unitsOfColumn, hstart, hstop,
    EditorRange.onLine]

/-! ## The symbol that is found -/

namespace Catalogue

theorem mem_of_mem_resolveAll {c : Catalogue} {name : Text} {scope : Nat} {s : Symbol}
    (h : s ∈ c.resolveAll name scope) : s ∈ c.symbols := by
  have hnamed := List.mem_of_mem_filter (List.mem_mergeSort.mp h)
  exact mem_of_mem_named hnamed

theorem mem_of_resolvePath? {c : Catalogue} {path : Text} {scope : Nat} {s : Symbol}
    (h : c.resolvePath? path scope = some s) : s ∈ c.symbols := by
  unfold resolvePath? at h
  dsimp only at h
  split at h
  · exact mem_of_mem_resolveAll (List.mem_of_mem_head? h)
  · exact mem_of_mem_named (List.mem_of_find?_eq_some h)

end Catalogue

theorem Snapshot.mem_of_mem_resolve {snapshot : Snapshot} {name : Text} {line : Nat} {s : Symbol}
    (h : s ∈ snapshot.resolve name line) : s ∈ snapshot.catalogue.symbols := by
  unfold resolve at h
  dsimp only at h
  split at h
  · exact Catalogue.mem_of_resolvePath? (Option.mem_toList.mp h)
  · exact Catalogue.mem_of_mem_resolveAll h

namespace Definition

theorem mem_of_symbol? {snapshot : Snapshot} {row : Nat} {name : Text} {s : Symbol}
    (h : symbol? snapshot row name = some s) :
    s ∈ snapshot.catalogue.symbols ∧ s.isBuiltin = false := by
  refine ⟨Snapshot.mem_of_mem_resolve (List.mem_of_find?_eq_some h), ?_⟩
  simpa using List.find?_some h

/-- A definition is the place of the symbol that the name at the cursor means. -/
theorem exists_symbol {snapshot : Snapshot} {text : Text} {p : Position} {loc : Location}
    (h : provide? snapshot text p = some loc) :
    ∃ spot word s, Spot.at? text p = some spot ∧ spot.identifier? = some word ∧
      symbol? snapshot spot.row (bareName word) = some s ∧ locate? snapshot s = some loc := by
  obtain ⟨spot, hspot, hat⟩ := Option.bind_eq_some_iff.mp h
  obtain ⟨word, hword, hfound⟩ := Option.bind_eq_some_iff.mp hat
  dsimp only at hfound
  split at hfound
  · obtain ⟨s, hs, hloc⟩ := Option.bind_eq_some_iff.mp hfound
    exact ⟨spot, word, s, hspot, hword, hs, hloc⟩
  · cases hfound

/-- The place of a declared symbol of a snapshot cuts out the name that the symbol denotes. -/
theorem locate?_cuts {uri : Uri} {generation : Nat} {buffer : Text} {report : Report}
    {findFile : Text → Option Text} {s : Symbol} {loc : Location}
    (hs : s ∈ (Snapshot.ofReport uri generation buffer report findFile).catalogue.symbols)
    (hdeclared : s.isBuiltin = false)
    (h : locate? (Snapshot.ofReport uri generation buffer report findFile) s = some loc) :
    ∃ o raw, Catalogue.Denotes
        (Snapshot.ofReport uri generation buffer report findFile).catalogue s o ∧
      (Snapshot.ofReport uri generation buffer report findFile).lineText? s.file
        s.span.startLine = some raw ∧
      loc.range.Cuts s.span.startLine raw o.name := by
  obtain ⟨o, hdenotes, hwritten⟩ :=
    Catalogue.declared_denotes (Catalogue.declared_of_not_builtin hs hdeclared)
  obtain ⟨hfile, hspan⟩ := hdenotes.place
  obtain ⟨l, row, hl, hrow, hstands⟩ := hwritten.line
  have hline : (Snapshot.ofReport uri generation buffer report findFile).lineText? s.file
      s.span.startLine = some row.raw := by
    have hfound : (Snapshot.ofReport uri generation buffer report findFile).file? s.file =
        some l := by
      rw [hfile]
      exact hl
    rw [Snapshot.lineText?, hfound, hspan, Option.bind_some, hrow, Option.map_some]
  obtain ⟨target, _, rfl⟩ := Option.map_eq_some_iff.mp h
  refine ⟨o, row.raw, hdenotes, hline, ?_⟩
  have hcuts := Span.cuts_toRange o.file hstands (hspan ▸ hline)
  rw [← hwritten.span] at hcuts
  dsimp only
  rw [hspan]
  exact hcuts

/-- Spans denote names. However the files are surveyed, a declared symbol has a span on one line of
its file that cuts its name out of the raw line, without an at-sign and within the line, so that no
sum of columns exceeds the length of the line; a parameter has the span of the callable that takes
it. Hence a definition that is found in a snapshot cuts the name that its symbol denotes out of the
surveyed line, in the columns of the editor. -/
theorem spans_denote_names :
    (∀ (r : Report) (sheets : List Scope.Sheet),
      let c := Catalogue.build r (Scope.surveyAll {} sheets).1 (Scope.surveyAll {} sheets).2
      (∀ s ∈ c.symbols, s.isBuiltin = false → s.category ≠ .parameter →
        ∃ sheet raw, sheets.find? (·.file == s.file) = some sheet ∧
          Source.line? sheet.text s.span.startLine = some raw ∧
          s.span.file = s.file ∧ s.span.endLine = s.span.startLine ∧
          Text.slice s.span.startColumn s.span.endColumn raw = s.name ∧ '@' ∉ s.name ∧
          s.span.startColumn ≤ s.span.endColumn ∧ s.span.endColumn ≤ raw.length) ∧
      (∀ s ∈ c.symbols, s.category = .parameter →
        ∃ o, o.category ≠ .parameter ∧ Catalogue.Denotes c s o)) ∧
    (∀ (uri : Uri) (generation : Nat) (buffer reportText : Text) (findFile : Text → Option Text)
      (text : Text) (p : Position) (loc : Location),
      let snapshot := Snapshot.build uri generation buffer reportText findFile
      provide? snapshot text p = some loc →
        ∃ spot word s o raw, Spot.at? text p = some spot ∧ spot.identifier? = some word ∧
          symbol? snapshot spot.row (bareName word) = some s ∧
          snapshot.uriOf? s.file = some loc.uri ∧
          Catalogue.Denotes snapshot.catalogue s o ∧
          snapshot.lineText? s.file s.span.startLine = some raw ∧
          loc.range.Cuts s.span.startLine raw o.name) := by
  refine ⟨fun r sheets => ⟨?_, ?_⟩, ?_⟩
  · intro s hs hdeclared hkind
    obtain ⟨o, hdenotes, hwritten⟩ :=
      Catalogue.declared_denotes (Catalogue.declared_of_not_builtin hs hdeclared)
    cases hdenotes.eq_of_ne hkind
    exact hwritten.on_sheet
  · intro s hs hkind
    obtain ⟨o, hdenotes, -⟩ :=
      Catalogue.declared_denotes (Catalogue.declared_of_parameter hs hkind)
    exact ⟨o, hdenotes.category_ne, hdenotes⟩
  · intro uri generation buffer reportText findFile text p loc snapshot h
    obtain ⟨spot, word, s, hspot, hword, hs, hloc⟩ := exists_symbol h
    obtain ⟨hmem, hdeclared⟩ := mem_of_symbol? hs
    obtain ⟨o, raw, hdenotes, hline, hcuts⟩ := locate?_cuts hmem hdeclared hloc
    obtain ⟨target, huri, heq⟩ := Option.map_eq_some_iff.mp hloc
    have htarget : loc.uri = target := by rw [← heq]
    exact ⟨spot, word, s, o, raw, hspot, hword, hs, htarget ▸ huri, hdenotes, hline, hcuts⟩

/-- A hoisted label behind a comment and a tab, with a character of two code units in front of it. -/
def hoistedBuffer : Text := "/*𝄞*/\t@äb: jmp äb".toList

def hoistedReport : Text :=
  ("[Files]\n1;/tmp/kickass-analyzer-1/.kickass-analyzer.source.1.asm\n" ++
    "[Syntax]\ncomment;1,1,1,6,1\nlabel;1,7,1,11,1\n").toList

theorem spans_denote_names_hoisted :
    let uri : Uri := ⟨"file".toList, some {}, .rooted ["a".toList], none, none⟩
    let snapshot := Snapshot.build uri 1 hoistedBuffer hoistedReport fun _ => none
    snapshot.catalogue.symbols.map (·.name) = ["äb".toList] ∧
    ∃ loc, provide? snapshot hoistedBuffer ⟨0, 17⟩ = some loc ∧ loc.range = .onLine 0 8 10 ∧
      ∃ s o raw, Catalogue.Denotes snapshot.catalogue s o ∧
        snapshot.lineText? s.file s.span.startLine = some raw ∧
        loc.range.Cuts s.span.startLine raw o.name := by
  intro uri snapshot
  obtain ⟨hnames, hrange⟩ : snapshot.catalogue.symbols.map (·.name) = ["äb".toList] ∧
      (provide? snapshot hoistedBuffer ⟨0, 17⟩).map (·.range) = some (.onLine 0 8 10) := by
    decide +kernel
  obtain ⟨loc, hloc, hrange⟩ := Option.map_eq_some_iff.mp hrange
  obtain ⟨_, _, s, o, raw, _, _, _, _, hdenotes, hline, hcuts⟩ :=
    spans_denote_names.2 uri 1 hoistedBuffer hoistedReport (fun _ => none) hoistedBuffer ⟨0, 17⟩ loc
      hloc
  exact ⟨hnames, loc, hloc, hrange, s, o, raw, hdenotes, hline, hcuts⟩

end Definition

end AsmLens
