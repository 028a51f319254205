import AsmLens.Assist.Completion
import AsmLens.Proofs.Catalogue.Declared
import AsmLens.Proofs.Cursor.Context
import AsmLens.Proofs.Scope.Forest

/-!
# What a completion offers

Where a directive is started, the directives of the report are offered as they are listed, and each
of them replaces the token in front of the cursor. Everywhere else a name is offered once, and it is
offered exactly when it is a mnemonic and instructions can stand there, or the name of a symbol that
can be seen from the line and is of a category that can stand there.
-/

namespace AsmLens

/-- The range covers the token at the end of the text in front of a cursor: the longest stretch
there without white space. -/
def EditorRange.CoversToken (range : EditorRange) (row : Nat) (left token : Text) : Prop :=
  ∃ front, left = front ++ token ∧ (∀ c ∈ token, Text.isSpace c = false) ∧
    (∀ c ∈ front.getLast?, Text.isSpace c = true) ∧
    range = .onLine row (Text.width front) (Text.width left)

/-- A symbol can be seen from a scope: it is known everywhere, or it stands in the scope or around
it. -/
def Catalogue.CanSee (c : Catalogue) (scope : Nat) (s : Symbol) : Prop :=
  s.isGlobal = true ∨ s.isBuiltin = true ∨ s.scope ∈ c.forest.ancestors scope

theorem Catalogue.mem_visibleFrom_iff {c : Catalogue} {scope : Nat} {s : Symbol} :
    s ∈ c.visibleFrom scope ↔ s ∈ c.symbols ∧ c.CanSee scope s := by
  rw [visibleFrom, List.mem_filter, isVisible, Bool.or_eq_true, Bool.or_eq_true,
    Scope.Forest.sees_iff, CanSee, or_assoc]

namespace Cursor

/-- The token or the character in front of the cursor shows a mark. -/
def Context.Shows (x : Context) (c : Char) : Prop := x.trigger = some c ∨ x.token.head? = some c

lemma opens_iff {x : Context} {c : Char} : x.opens c = true ↔ x.Shows c := by
  rw [Context.opens, Bool.or_eq_true, beq_iff_eq, beq_iff_eq, Context.Shows]

/-- Behind a token no directive starts. -/
lemma placeAfter_ne (c : Catalogue) (r : Report) (token : Text) :
    placeAfter c r token ≠ .preprocessorStart ∧ placeAfter c r token ≠ .directiveStart := by
  unfold placeAfter
  dsimp only
  split_ifs <;> exact ⟨nofun, nofun⟩

variable {c : Catalogue} {r : Report} {x : Context}

lemma place_eq_preprocessorStart_iff :
    place c r x = .preprocessorStart ↔ x.preceding = [] ∧ x.Shows '#' := by
  rw [← opens_iff, ← List.getLast?_eq_none_iff, place]
  cases x.preceding.getLast? with
  | some last => simp [(placeAfter_ne c r last).1]
  | none =>
    by_cases hnumber : x.opens '#' <;> by_cases hpoint : x.opens '.' <;> simp [hnumber, hpoint]

lemma place_eq_directiveStart_iff :
    place c r x = .directiveStart ↔ x.preceding = [] ∧ ¬ x.Shows '#' ∧ x.Shows '.' := by
  rw [← opens_iff, ← opens_iff, ← List.getLast?_eq_none_iff, place]
  cases x.preceding.getLast? with
  | some last => simp [(placeAfter_ne c r last).2]
  | none =>
    by_cases hnumber : x.opens '#' <;> by_cases hpoint : x.opens '.' <;> simp [hnumber, hpoint]

/-- Where no directive starts, only instructions and symbols are offered. -/
lemma offers_apart {place : Place} (hdirective : place ≠ .directiveStart)
    (hpreprocessor : place ≠ .preprocessorStart) :
    ∀ offer ∈ place.offers, offer = .instructions ∨ offer.category?.isSome = true := by
  cases place with
  | directiveStart => exact absurd rfl hdirective
  | preprocessorStart => exact absurd rfl hpreprocessor
  | bare => decide
  | afterInstruction => decide
  | afterSymbol => decide
  | afterPreprocessor directive =>
    rw [Place.offers]
    split <;> decide

/-- The range of the token covers it. -/
theorem coversToken_tokenRange (row : Nat) {line : Text} {cursor : Nat} {x : Context}
    (h : contextAt? line cursor = some x) :
    (Spot.tokenRange ⟨row, line, cursor, x⟩).CoversToken row (line.take cursor) x.token := by
  have hsplits := splits_of_contextAt? h
  -- a cursor past the end of the line has the whole line in front of it
  have hleft : line.take (clamp line cursor) = line.take cursor := by
    rw [clamp, ← List.take_take, List.take_length]
  have hstart := hsplits.start_le.trans (clamp_le line cursor)
  refine ⟨line.take x.tokenStart, ?_, hsplits.token_ink, ?_, rfl⟩
  · have hfront : line.take x.tokenStart = (line.take cursor).take x.tokenStart := by
      rw [← hleft, List.take_take, Nat.min_eq_left hsplits.start_le]
    rw [hfront, hsplits.token, Text.slice, hleft, List.take_append_drop]
  · intro c hc
    rw [getLast?_take_of_le hstart] at hc
    split at hc
    · cases hc
    · rcases hsplits.start with hzero | ⟨d, hd, hspace⟩
      · exact absurd hzero ‹_›
      · cases hd.symm.trans hc
        exact hspace

end Cursor

namespace Completion

def labels (items : List CompletionItem) : List Text := items.map (·.label)

/-- A name can be completed on a line: it is a mnemonic and instructions are offered, or the name of
a symbol that can be seen from the line and whose category is offered. -/
def IsCandidate (snapshot : Snapshot) (row : Nat) (offers : List Cursor.Offer) (label : Text) :
    Prop :=
  Cursor.Offer.instructions ∈ offers ∧ (∃ i ∈ Instruction.all, i.mnemonic.toList = label) ∨
    ∃ s ∈ snapshot.catalogue.symbols, snapshot.catalogue.CanSee (snapshot.scopeAt row) s ∧
      s.name = label ∧ ∃ offer ∈ offers, offer.category? = some s.category

variable {snapshot : Snapshot} {spot : Spot}

lemma labels_ofDirective (range : EditorRange) (entries : List DirectiveEntry) :
    labels (entries.map (CompletionItem.ofDirective range)) = entries.map (·.name) := by
  rw [labels, List.map_map]
  rfl

lemma replaces_of_mem {range : EditorRange} {entries : List DirectiveEntry} {item : CompletionItem}
    (h : item ∈ entries.map (CompletionItem.ofDirective range)) : item.replaces = some range := by
  obtain ⟨entry, _, rfl⟩ := List.mem_map.mp h
  rfl

lemma itemsOf_of_category {offer : Cursor.Offer} {category : Category}
    (h : offer.category? = some category) :
    itemsOf snapshot spot offer =
      (visibleSymbols snapshot spot.row category).map CompletionItem.ofSymbol := by
  cases offer <;> cases h <;> rfl

lemma mem_labels_instructions {label : Text} :
    label ∈ labels (itemsOf snapshot spot .instructions) ↔
      ∃ i ∈ Instruction.all, i.mnemonic.toList = label := by
  rw [labels, itemsOf, List.map_map, List.mem_map]
  rfl

lemma mem_labels_of_category {offer : Cursor.Offer} {category : Category} {label : Text}
    (h : offer.category? = some category) :
    label ∈ labels (itemsOf snapshot spot offer) ↔
      ∃ s ∈ snapshot.catalogue.symbols, snapshot.catalogue.CanSee (snapshot.scopeAt spot.row) s ∧
        s.name = label ∧ s.category = category := by
  rw [labels, itemsOf_of_category h, List.map_map, List.mem_map]
  simp only [visibleSymbols, List.mem_filter, Catalogue.mem_visibleFrom_iff, beq_iff_eq]
  constructor
  · rintro ⟨s, ⟨⟨hs, hsees⟩, hcategory⟩, hlabel⟩
    exact ⟨s, hs, hsees, hlabel, hcategory⟩
  · rintro ⟨s, hs, hsees, hlabel, hcategory⟩
    exact ⟨s, ⟨⟨hs, hsees⟩, hcategory⟩, hlabel⟩

/-- The names of the offers together are the candidates. -/
theorem mem_labels_flatMap {offers : List Cursor.Offer} {label : Text}
    (h : ∀ offer ∈ offers, offer = .instructions ∨ offer.category?.isSome = true) :
    label ∈ labels (offers.flatMap (itemsOf snapshot spot)) ↔
      IsCandidate snapshot spot.row offers label := by
  have hflat : label ∈ labels (offers.flatMap (itemsOf snapshot spot)) ↔
      ∃ offer ∈ offers, label ∈ labels (itemsOf snapshot spot offer) := by
    rw [labels, List.map_flatMap, List.mem_flatMap]
    rfl
  rw [hflat]
  constructor
  · rintro ⟨offer, hoffer, hlabel⟩
    rcases h offer hoffer with rfl | hsome
    · exact Or.inl ⟨hoffer, mem_labels_instructions.mp hlabel⟩
    · obtain ⟨category, hcategory⟩ := Option.isSome_iff_exists.mp hsome
      obtain ⟨s, hs, hsees, hname, rfl⟩ := (mem_labels_of_category hcategory).mp hlabel
      exact Or.inr ⟨s, hs, hsees, hname, offer, hoffer, hcategory⟩
  · rintro (⟨hoffer, hmnemonic⟩ | ⟨s, hs, hsees, hname, offer, hoffer, hcategory⟩)
    · exact ⟨_, hoffer, mem_labels_instructions.mpr hmnemonic⟩
    · exact ⟨offer, hoffer, (mem_labels_of_category hcategory).mpr ⟨s, hs, hsees, hname, rfl⟩⟩

/-! ## The items at a spot -/

lemma atSpot_directiveStart
    (h : Cursor.place snapshot.catalogue snapshot.report spot.context = .directiveStart) :
    atSpot snapshot spot =
      snapshot.report.directives.map (CompletionItem.ofDirective spot.tokenRange) := by
  simp [atSpot, h, keepsRepeats, Cursor.Place.offers, itemsOf]

lemma atSpot_preprocessorStart
    (h : Cursor.place snapshot.catalogue snapshot.report spot.context = .preprocessorStart) :
    atSpot snapshot spot =
      (preprocessorEntries snapshot.report).map (CompletionItem.ofDirective spot.tokenRange) := by
  simp [atSpot, h, keepsRepeats, Cursor.Place.offers, itemsOf]

lemma atSpot_of_ne
    (hdirective : Cursor.place snapshot.catalogue snapshot.report spot.context ≠ .directiveStart)
    (hpreprocessor :
      Cursor.place snapshot.catalogue snapshot.report spot.context ≠ .preprocessorStart) :
    atSpot snapshot spot = firsts (·.label)
      ((Cursor.place snapshot.catalogue snapshot.report spot.context).offers.flatMap
        (itemsOf snapshot spot)) := by
  have hkeeps :
      keepsRepeats (Cursor.place snapshot.catalogue snapshot.report spot.context) ≠ true := by
    cases hplace : Cursor.place snapshot.catalogue snapshot.report spot.context with
    | directiveStart => exact absurd hplace hdirective
    | preprocessorStart => exact absurd hplace hpreprocessor
    | _ => exact nofun
  exact if_neg hkeeps

lemma names_preprocessorEntries (r : Report) :
    (r.preprocessor ≠ [] →
      (preprocessorEntries r).map (·.name) = r.preprocessor.map (·.name)) ∧
    (r.preprocessor = [] →
      (preprocessorEntries r).map (·.name) = PreprocessorDirective.all.map (·.name.toList)) := by
  constructor
  · intro hne
    rw [preprocessorEntries, if_neg (by simpa using hne)]
  · intro hnil
    rw [preprocessorEntries, hnil, if_pos List.isEmpty_nil, List.map_map]
    rfl

theorem provide_of_context {text line : Text} {p : Position} {x : Cursor.Context}
    (hline : Source.line? text p.line = some line)
    (hcontext : Cursor.contextAt? line (Text.columnOfUnits line p.character) = some x) :
    provide snapshot text p =
      atSpot snapshot ⟨p.line, line, Text.columnOfUnits line p.character, x⟩ := by
  simp [provide, Spot.at?, hline, hcontext]

/-- A completion offers what can be seen and what can stand at the cursor, each name once. A
directive starts where nothing stands in front of a token that shows its mark. There the directives
of the report are offered in order, or the known preprocessor directives where the report lists
none, and each of them replaces the token in front of the cursor. Everywhere else no two items have
one name, and the names are the candidates. -/
theorem offers_candidates_once (snapshot : Snapshot) {text line : Text} {p : Position}
    {x : Cursor.Context} (hline : Source.line? text p.line = some line)
    (hcontext : Cursor.contextAt? line (Text.columnOfUnits line p.character) = some x) :
    let place := Cursor.place snapshot.catalogue snapshot.report x
    let items := provide snapshot text p
    (place = .directiveStart ↔ x.preceding = [] ∧ ¬ x.Shows '#' ∧ x.Shows '.') ∧
    (place = .preprocessorStart ↔ x.preceding = [] ∧ x.Shows '#') ∧
    (place = .directiveStart → labels items = snapshot.report.directives.map (·.name)) ∧
    (place = .preprocessorStart →
      (snapshot.report.preprocessor ≠ [] →
        labels items = snapshot.report.preprocessor.map (·.name)) ∧
      (snapshot.report.preprocessor = [] →
        labels items = PreprocessorDirective.all.map (·.name.toList))) ∧
    (place = .directiveStart ∨ place = .preprocessorStart →
      ∀ item ∈ items, ∃ range, item.replaces = some range ∧
        range.CoversToken p.line (line.take (Text.columnOfUnits line p.character)) x.token) ∧
    (place ≠ .directiveStart → place ≠ .preprocessorStart →
      (labels items).Nodup ∧
      ∀ label, label ∈ labels items ↔ IsCandidate snapshot p.line place.offers label) := by
  intro place items
  have hitems : items = atSpot snapshot ⟨p.line, line, Text.columnOfUnits line p.character, x⟩ :=
    provide_of_context hline hcontext
  refine ⟨Cursor.place_eq_directiveStart_iff, Cursor.place_eq_preprocessorStart_iff, ?_, ?_, ?_, ?_⟩
  · intro hplace
    rw [hitems, atSpot_directiveStart hplace, labels_ofDirective]
  · intro hplace
    rw [hitems, atSpot_preprocessorStart hplace, labels_ofDirective]
    exact names_preprocessorEntries snapshot.report
  · intro hplace item hitem
    refine ⟨_, ?_, Cursor.coversToken_tokenRange p.line hcontext⟩
    rw [hitems] at hitem
    rcases hplace with hplace | hplace
    · rw [atSpot_directiveStart hplace] at hitem
      exact replaces_of_mem hitem
    · rw [atSpot_preprocessorStart hplace] at hitem
      exact replaces_of_mem hitem
  · intro hdirective hpreprocessor
    rw [hitems, atSpot_of_ne hdirective hpreprocessor]
    refine ⟨(nodup_firstsFrom CompletionItem.label [] _).1, fun label => ?_⟩
    rw [labels, mem_map_firsts_iff]
    exact mem_labels_flatMap (Cursor.offers_apart hdirective hpreprocessor)

/-- A block that declares a name of the global scope once more and a name of its own, and a
directive that is started behind it. -/
def shadowedBuffer : Text :=
  ".const b = 1\n\x7b\nb:\nc:\n lda \n\x7d\n lda \n .𝄞".toList

def shadowedSnapshot : Snapshot :=
  .ofReport ⟨"file".toList, some {}, .rooted ["a".toList], none, none⟩ 1 shadowedBuffer
    { directives := [⟨".var".toList, [], []⟩, ⟨".byte".toList, [], []⟩, ⟨".var".toList, [], []⟩]
      files := [⟨1, "a".toList, false, true⟩]
      marks := [⟨.directive, some ⟨0, 0, 0, 12, 1⟩⟩, ⟨.label, some ⟨2, 0, 2, 2, 1⟩⟩,
        ⟨.label, some ⟨3, 0, 3, 2, 1⟩⟩] }
    fun _ => none

/-- The context behind a mnemonic. -/
def operandContext : Cursor.Context := ⟨[], 5, ["lda".toList], some ' '⟩

theorem offers_candidates_once_shadowed :
    shadowedSnapshot.catalogue.symbols.map (fun s => (s.name, s.scope)) =
      [("b".toList, 0), ("b".toList, 1), ("c".toList, 1)] ∧
    Cursor.contextAt? " lda ".toList 5 = some operandContext ∧
    labels (provide shadowedSnapshot shadowedBuffer ⟨4, 5⟩) = ["b".toList, "c".toList] ∧
    (labels (provide shadowedSnapshot shadowedBuffer ⟨4, 5⟩)).Nodup ∧
    IsCandidate shadowedSnapshot 4 Cursor.Place.afterInstruction.offers "c".toList ∧
    ¬ IsCandidate shadowedSnapshot 6 Cursor.Place.afterInstruction.offers "c".toList ∧
    labels (provide shadowedSnapshot shadowedBuffer ⟨7, 9⟩) =
      [".var".toList, ".byte".toList, ".var".toList] ∧
    ∀ item ∈ provide shadowedSnapshot shadowedBuffer ⟨7, 9⟩, ∃ range,
      item.replaces = some range ∧ range.CoversToken 7 " .𝄞".toList ".𝄞".toList := by
  obtain ⟨hfour, hsix, hseven⟩ : Source.line? shadowedBuffer 4 = some " lda ".toList ∧
      Source.line? shadowedBuffer 6 = some " lda ".toList ∧
      Source.line? shadowedBuffer 7 = some " .𝄞".toList := by
    decide +kernel
  obtain ⟨hoperand, htoken⟩ : Cursor.contextAt? " lda ".toList 5 = some operandContext ∧
      Cursor.contextAt? " .𝄞".toList 3 = some ⟨".𝄞".toList, 1, [], some '𝄞'⟩ := by
    decide +kernel
  obtain ⟨hsymbols, hplace, hlabels⟩ :
      shadowedSnapshot.catalogue.symbols.map (fun s => (s.name, s.scope)) =
        [("b".toList, 0), ("b".toList, 1), ("c".toList, 1)] ∧
      Cursor.place shadowedSnapshot.catalogue shadowedSnapshot.report operandContext =
        .afterInstruction ∧
      labels (provide shadowedSnapshot shadowedBuffer ⟨4, 5⟩) = ["b".toList, "c".toList] := by
    decide +kernel
  obtain ⟨_, _, _, _, _, hinside⟩ :=
    offers_candidates_once shadowedSnapshot (p := ⟨4, 5⟩) hfour hoperand
  obtain ⟨_, _, _, _, _, hbehind⟩ :=
    offers_candidates_once shadowedSnapshot (p := ⟨6, 5⟩) hsix hoperand
  obtain ⟨hstart, _, hdirectives, _, hcovers, _⟩ :=
    offers_candidates_once shadowedSnapshot (p := ⟨7, 9⟩) hseven htoken
  rw [hplace] at hinside hbehind
  obtain ⟨hnodup, hmem⟩ := hinside nofun nofun
  have hstarts := hstart.mpr ⟨rfl, not_or.mpr ⟨by decide, by decide⟩, Or.inr rfl⟩
  refine ⟨hsymbols, hoperand, hlabels, hnodup, (hmem _).mp ?_, ?_, hdirectives hstarts,
    hcovers (Or.inl hstarts)⟩
  · rw [hlabels]
    decide
  · rw [← (hbehind nofun nofun).2]
    decide +kernel

end Completion

end AsmLens
