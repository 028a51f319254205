import AsmLens.Assist.Signature
import AsmLens.Proofs.Assist.Definition
import AsmLens.Proofs.Catalogue.WellFormed
import AsmLens.Proofs.Symbol.Signature
import AsmLens.Proofs.Text.Column

/-!
# Parameters in a label

A signature writes its label from left to right and notes for each parameter where it starts and
stops, in UTF-16 units. What is written later stands behind, so each pair of columns goes on cutting
out its parameter while the label grows. In the end the label is trimmed. This cuts nothing off as
soon as there are parameters: a list in parentheses ends with one, and the last operand of a
pseudocommand has a name that is not empty and does not end with white space.
-/

namespace AsmLens

/-- The columns of the hint cut the word out of the label. -/
def ParameterHint.Cuts (h : ParameterHint) (label word : Text) : Prop :=
  ∃ front back, label = front ++ word ++ back ∧ h.start = Text.width front ∧
    h.stop = Text.width (front ++ word)

namespace ParameterHint

variable {h : ParameterHint} {label word : Text}

/-- A word goes on being cut out when the label grows. -/
lemma Cuts.append (hcuts : h.Cuts label word) (more : Text) : h.Cuts (label ++ more) word := by
  obtain ⟨front, back, rfl, hstart, hstop⟩ := hcuts
  exact ⟨front, back ++ more, by simp, hstart, hstop⟩

lemma Cuts.stop_eq (hcuts : h.Cuts label word) : h.stop = h.start + Text.width word := by
  obtain ⟨front, back, rfl, hstart, hstop⟩ := hcuts
  rw [hstop, hstart, Text.width_append]

lemma Cuts.stop_le (hcuts : h.Cuts label word) : h.stop ≤ Text.width label := by
  obtain ⟨front, back, rfl, hstart, hstop⟩ := hcuts
  rw [hstop]
  exact Text.width_le_of_isPrefix (List.prefix_append _ back)

end ParameterHint

lemma Text.width_pos {t : Text} (h : t ≠ []) : 0 < width t := by
  obtain ⟨c, cs, rfl⟩ := List.exists_cons_of_ne_nil h
  have hpos := units_pos c
  rw [width]
  omega

namespace SignatureHint

/-! ## Writing parameters -/

section Writing

variable (separator label : Text) (p : Parameter) (ps : List Parameter)

/-- The label behind a parameter, with a separator if another one follows. -/
def behind (separator label : Text) (p : Parameter) (rest : List Parameter) : Text :=
  if rest.isEmpty then label ++ p.shown else label ++ p.shown ++ separator

lemma writeParameters_cons :
    writeParameters separator label (p :: ps) =
      ((writeParameters separator (behind separator label p ps) ps).1,
        ⟨Text.width label, Text.width (label ++ p.shown), note? p⟩ ::
          (writeParameters separator (behind separator label p ps) ps).2) := rfl

lemma isPrefix_behind : label ++ p.shown <+: behind separator label p ps := by
  unfold behind
  split
  · exact List.prefix_rfl
  · exact List.prefix_append _ _

/-- The label is written behind what is there. -/
theorem writeParameters_label :
    (writeParameters separator label ps).1 = label ++ Text.join separator (ps.map (·.shown)) := by
  induction ps generalizing label with
  | nil => simp [writeParameters, Text.join]
  | cons p ps ih =>
    rw [writeParameters_cons, ih]
    cases ps with
    | nil => simp [behind, Text.join]
    | cons q qs =>
      rw [List.map_cons (l := q :: qs), Text.join_cons_of_ne_nil (by simp)]
      simp [behind]

/-- Each pair of columns cuts its parameter out of the label. -/
theorem writeParameters_cuts :
    List.Forall₂ (fun p h => h.Cuts (writeParameters separator label ps).1 p.shown) ps
      (writeParameters separator label ps).2 := by
  induction ps generalizing label with
  | nil => exact .nil
  | cons p ps ih =>
    rw [writeParameters_cons]
    refine .cons ?_ (ih (behind separator label p ps))
    obtain ⟨rest, hrest⟩ : label ++ p.shown <+:
        (writeParameters separator (behind separator label p ps) ps).1 := by
      rw [writeParameters_label]
      exact (isPrefix_behind separator label p ps).trans (List.prefix_append _ _)
    exact ⟨label, rest, hrest.symm, rfl, rfl⟩

lemma width_le_start :
    ∀ h ∈ (writeParameters separator label ps).2, Text.width label ≤ h.start := by
  induction ps generalizing label with
  | nil => nofun
  | cons p ps ih =>
    rw [writeParameters_cons]
    refine List.forall_mem_cons.mpr ⟨le_rfl, fun h hh => ?_⟩
    have hfront := Text.width_le_of_isPrefix (isPrefix_behind separator label p ps)
    have hlater := ih (behind separator label p ps) h hh
    rw [Text.width_append] at hfront
    omega

/-- Between two parameters there is room for the separator. -/
theorem writeParameters_apart :
    (writeParameters separator label ps).2.Pairwise fun a b =>
      a.stop + Text.width separator ≤ b.start := by
  induction ps generalizing label with
  | nil => exact .nil
  | cons p ps ih =>
    rw [writeParameters_cons]
    refine List.pairwise_cons.mpr ⟨fun h hh => ?_, ih (behind separator label p ps)⟩
    have hlater := width_le_start separator (behind separator label p ps) ps h hh
    cases ps with
    | nil => cases hh
    | cons q qs =>
      rw [behind, if_neg (by simp), Text.width_append] at hlater
      exact hlater

end Writing

end SignatureHint

/-! ## Names that can be shown -/

/-- The parameter has a name, and the name does not end with white space. -/
def Parameter.Named (p : Parameter) : Prop := p.name ≠ [] ∧ p.name.NoTrailing

lemma Parameter.Named.shown {p : Parameter} (h : p.Named) :
    p.shown ≠ [] ∧ p.shown.NoTrailing := by
  unfold Parameter.shown
  split
  · refine ⟨List.cons_ne_nil _ _, fun c hc => ?_⟩
    rw [List.getLast?_concat] at hc
    rw [← Option.some.inj hc]
    decide
  · exact h

namespace Catalogue

lemma named_of_readFrom {d : Text} {kind : SymbolKind} (h : kind.ReadFrom d) :
    ∀ p ∈ kind.parameters?.getD [], p.Named := by
  have hnamed : ∀ {stops : Text} {p : Parameter}, p.ReadFrom d stops → p.Named :=
    fun hp => ⟨hp.nonempty, hp.trimmed.2⟩
  cases kind with
  | function ps => exact fun p hp => hnamed (h p hp)
  | macroDef ps => exact fun p hp => hnamed (h p hp)
  | pseudoCommand ps => exact fun p hp => hnamed (h p hp)
  | _ => nofun

lemma named_documented {kind : SymbolKind} (h : ∀ p ∈ kind.parameters?.getD [], p.Named)
    (doc : Option Doc) : ∀ p ∈ (documented kind doc).parameters?.getD [], p.Named := by
  intro p hp
  have hname := List.mem_map_of_mem (f := (·.name)) hp
  rw [parameterNames_documented] at hname
  obtain ⟨q, hq, heq⟩ := List.mem_map.mp hname
  have hnamed := h q hq
  rwa [Parameter.Named, heq] at hnamed

lemma named_of_libraryKind? {e : LibraryEntry} {kind : SymbolKind}
    (h : libraryKind? e = some kind) : ∀ p ∈ kind.parameters?.getD [], p.Named := by
  unfold libraryKind? at h
  split at h
  · cases h
    nofun
  · cases h
    intro p hp
    obtain ⟨i, _, rfl⟩ := List.mem_map.mp hp
    refine ⟨List.append_ne_nil_of_right_ne_nil _ (Text.ofNat_ne_nil _), fun c hc => ?_⟩
    rw [List.getLast?_append_of_ne_nil _ (Text.ofNat_ne_nil _)] at hc
    exact (Text.trimmed_ofNat _).2 c hc
  · cases h

/-- The parameters of a built catalogue can be shown, those of the libraries too. -/
theorem named_of_mem_build {r : Report} {listings : List Scope.Listing} {f : Scope.Forest}
    {s : Symbol} (h : s ∈ (build r listings f).symbols) : ∀ p ∈ s.parameters, p.Named := by
  rcases List.mem_append.mp h with hdeclared | hprovided
  · obtain ⟨l, span, row, d, doc, _, _, hd, hs, _⟩ := exists_declaration hdeclared
    rcases mem_symbolsOf_cases hs with rfl | ⟨body, ps, _, hparameter⟩
    · exact named_documented (named_of_readFrom (Declaration.read?_readFrom hd)) doc
    · obtain ⟨p, _, rfl⟩ := List.mem_map.mp hparameter
      nofun
  · obtain ⟨e, _, he⟩ := List.mem_filterMap.mp hprovided
    obtain ⟨kind, hkind, rfl⟩ := Option.map_eq_some_iff.mp he
    exact named_of_libraryKind? hkind

end Catalogue

namespace SignatureHint

/-! ## The label of a symbol -/

/-- The label of a symbol before it is trimmed, with the hints for its parameters. -/
def written (s : Symbol) : Text × List ParameterHint :=
  let out := writeParameters (punctuation s.category).2.1 (s.name ++ (punctuation s.category).1)
    s.parameters
  (out.1 ++ (punctuation s.category).2.2, out.2)

lemma ofSymbol_eq (s : Symbol) (n : Nat) :
    ofSymbol s n = ⟨Text.trimEnd (written s).1, s.doc, (written s).2,
      min n (s.parameters.length - 1)⟩ := rfl

lemma separator_ne_nil (c : Category) : (punctuation c).2.1 ≠ [] := by
  cases c <;> exact List.cons_ne_nil _ _

lemma closing_cases (c : Category) : (punctuation c).2.2 = [')'] ∨ (punctuation c).2.2 = [] := by
  cases c with
  | pseudoCommand => exact Or.inr rfl
  | _ => exact Or.inl rfl

variable {s : Symbol}

/-- A label with parameters does not end with white space. -/
lemma noTrailing_written (hnamed : ∀ p ∈ s.parameters, p.Named) (hne : s.parameters ≠ []) :
    (written s).1.NoTrailing := by
  dsimp only [written]
  rcases closing_cases s.category with hclosing | hclosing
  · intro c hc
    rw [hclosing, List.getLast?_concat] at hc
    rw [← Option.some.inj hc]
    decide
  · have hshown : ∀ part ∈ s.parameters.map (·.shown),
        part ≠ [] ∧ Text.NoTrailing part := by
      intro part hpart
      obtain ⟨p, hp, rfl⟩ := List.mem_map.mp hpart
      exact (hnamed p hp).shown
    have hjoin : Text.join (punctuation s.category).2.1 (s.parameters.map (·.shown)) ≠ [] := by
      obtain ⟨p, ps, hps⟩ := List.exists_cons_of_ne_nil hne
      obtain ⟨c, cs, hp⟩ := List.exists_cons_of_ne_nil (hshown p.shown (by simp [hps])).1
      exact List.ne_nil_of_mem (Text.mem_join_of_mem _ (by simp [hps]) (hp ▸ List.mem_cons_self))
    intro c hc
    rw [hclosing, List.append_nil, writeParameters_label,
      List.getLast?_append_of_ne_nil _ hjoin] at hc
    exact Text.noTrailing_join hshown c hc

/-- Trimming does not reach the parameters. -/
theorem ofSymbol_cuts (hnamed : ∀ p ∈ s.parameters, p.Named) (n : Nat) :
    List.Forall₂ (fun p h => h.Cuts (ofSymbol s n).label p.shown) s.parameters
      (ofSymbol s n).parameters := by
  rw [ofSymbol_eq]
  dsimp only
  by_cases hne : s.parameters = []
  · rw [written, hne]
    exact .nil
  · rw [Text.trimEnd_eq_self (noTrailing_written hnamed hne)]
    exact (writeParameters_cuts _ _ s.parameters).imp fun p h hcuts => hcuts.append _

lemma ofSymbol_apart (s : Symbol) (n : Nat) :
    (ofSymbol s n).parameters.Pairwise fun a b => a.stop < b.start := by
  have hwidth := Text.width_pos (separator_ne_nil s.category)
  refine (writeParameters_apart (punctuation s.category).2.1 _ s.parameters).imp fun h => ?_
  omega

lemma ofSymbol_active (s : Symbol) (n : Nat) :
    (s.parameters ≠ [] → (ofSymbol s n).active < s.parameters.length) ∧
      (s.parameters = [] → (ofSymbol s n).active = 0) := by
  rw [ofSymbol_eq]
  refine ⟨fun hne => ?_, fun hnil => ?_⟩
  · have hpos := List.length_pos_iff.mpr hne
    dsimp only
    omega
  · simp [hnil]

/-! ## The symbol of a hint -/

lemma exists_of_ofCall? {snapshot : Snapshot} {row : Nat} {callable : Symbol → Bool}
    {call : CallSite} {hint : SignatureHint}
    (h : ofCall? snapshot row callable call = some hint) :
    ∃ s ∈ snapshot.catalogue.symbols, callable s = true ∧ ∃ n, hint = ofSymbol s n := by
  obtain ⟨s, hs, rfl⟩ := Option.map_eq_some_iff.mp h
  exact ⟨s, Snapshot.mem_of_mem_resolve (List.mem_of_find?_eq_some hs), List.find?_some hs, _, rfl⟩

/-- A hint is the signature of a symbol that can be called. -/
theorem exists_of_provide? {snapshot : Snapshot} {text : Text} {p : Position}
    {hint : SignatureHint} (h : provide? snapshot text p = some hint) :
    ∃ s ∈ snapshot.catalogue.symbols, s.category ∈ [Category.macroDef, .function, .pseudoCommand] ∧
      ∃ n, hint = ofSymbol s n := by
  obtain ⟨spot, _, hat⟩ := Option.bind_eq_some_iff.mp h
  simp only [atSpot?, Option.orElse_eq_orElse, Option.orElse_eq_or, Option.or_eq_some_iff] at hat
  rcases hat with hcall | ⟨-, hcommand⟩
  · obtain ⟨call, _, hcall⟩ := List.exists_of_findSome?_eq_some hcall
    obtain ⟨s, hs, hcallable, hhint⟩ := exists_of_ofCall? hcall
    refine ⟨s, hs, ?_, hhint⟩
    simp only [isParenthesised, Bool.or_eq_true, beq_iff_eq] at hcallable
    rcases hcallable with heq | heq <;> simp [heq]
  · obtain ⟨call, _, hcall⟩ := Option.bind_eq_some_iff.mp hcommand
    obtain ⟨s, hs, hcallable, hhint⟩ := exists_of_ofCall? hcall
    have heq : s.category = .pseudoCommand := by simpa [isCommand] using hcallable
    exact ⟨s, hs, by simp [heq], hhint⟩

/-- The catalogue of a snapshot that is built from a report is a built catalogue. -/
lemma exists_catalogue_eq_build (uri : Uri) (generation : Nat) (buffer reportText : Text)
    (findFile : Text → Option Text) :
    ∃ r listings f, (Snapshot.build uri generation buffer reportText findFile).catalogue =
      Catalogue.build r listings f :=
  ⟨_, _, _, rfl⟩

/-! ## Labels and their parameters -/

/-- How a signature shows parameters: each has its columns, which cut its name out of the label, in
brackets if it is optional; they follow each other in order and do not meet or leave the label. -/
structure Shows (hint : SignatureHint) (ps : List Parameter) : Prop where
  count : hint.parameters.length = ps.length
  cuts : ∀ (i : Nat) (p : Parameter) (h : ParameterHint),
    ps[i]? = some p → hint.parameters[i]? = some h →
      h.Cuts hint.label (if p.isOptional then '[' :: p.name ++ [']'] else p.name)
  apart : hint.parameters.Pairwise fun a b => a.stop < b.start
  within : ∀ h ∈ hint.parameters, h.start < h.stop ∧ h.stop ≤ Text.width hint.label

theorem shows_ofSymbol (hnamed : ∀ p ∈ s.parameters, p.Named) (n : Nat) :
    (ofSymbol s n).Shows s.parameters := by
  have hcuts := ofSymbol_cuts hnamed n
  have hget : ∀ {i : Nat} {p : Parameter} {h : ParameterHint}, s.parameters[i]? = some p →
      (ofSymbol s n).parameters[i]? = some h → h.Cuts (ofSymbol s n).label p.shown := by
    intro i p h hp hh
    obtain ⟨hi, rfl⟩ := List.getElem?_eq_some_iff.mp hp
    obtain ⟨hi', rfl⟩ := List.getElem?_eq_some_iff.mp hh
    exact hcuts.get hi hi'
  refine ⟨hcuts.length_eq.symm, fun i p h => hget, ofSymbol_apart s n, fun h hh => ?_⟩
  obtain ⟨i, hi, hh⟩ := List.getElem_of_mem hh
  have hp := List.getElem?_eq_getElem (hcuts.length_eq ▸ hi)
  have hword := hget hp (List.getElem?_eq_some_iff.mpr ⟨hi, hh⟩)
  have hwidth := Text.width_pos (hnamed _ (List.mem_of_getElem? hp)).shown.1
  have hstop := hword.stop_eq
  exact ⟨by omega, hword.stop_le⟩

/-- Labels show their parameters. In the signature of every symbol of a built catalogue, declared or
from a library, the columns of each parameter cut its name out of the trimmed label, in brackets if
it is optional; the columns rise, do not meet and lie within the label. A signature that is given at
a position is that of a macro, function or pseudocommand, and the parameter being typed is an index
of its parameters, or zero where there are none. -/
theorem labels_show_parameters :
    (∀ (r : Report) (listings : List Scope.Listing) (f : Scope.Forest),
      ∀ s ∈ (Catalogue.build r listings f).symbols, ∀ n, (ofSymbol s n).Shows s.parameters) ∧
    ∀ (snapshot : Snapshot) (text : Text) (p : Position) (hint : SignatureHint),
      provide? snapshot text p = some hint →
        ∃ s ∈ snapshot.catalogue.symbols,
          s.category ∈ [Category.macroDef, .function, .pseudoCommand] ∧
          (∃ n, hint = ofSymbol s n) ∧
          (s.parameters ≠ [] → hint.active < s.parameters.length) ∧
          (s.parameters = [] → hint.active = 0) := by
  refine ⟨fun _ _ _ s hs n => shows_ofSymbol (Catalogue.named_of_mem_build hs) n, ?_⟩
  intro snapshot text p hint h
  obtain ⟨s, hs, hcallable, n, rfl⟩ := exists_of_provide? h
  exact ⟨s, hs, hcallable, ⟨n, rfl⟩, ofSymbol_active s n⟩

/-- A pseudocommand whose last operand is optional and has a name with a surrogate pair, and a call
of it. -/
def movBuffer : Text :=
  "// @param [𝄞b] target\n.pseudocommand mov a : 𝄞b \x7b\n\x7d\n mov 1 : ".toList

def movReport : Text :=
  ("[Libraries]\nmath;function;sin;1\n[Files]\n" ++
    "1;/tmp/kickass-analyzer-1/.kickass-analyzer.source.1.asm\n" ++
    "[Syntax]\ndirective;2,1,2,15,1\n").toList

def movSnapshot : Snapshot :=
  Snapshot.build ⟨"file".toList, some {}, .rooted ["a".toList], none, none⟩ 1 movBuffer movReport
    fun _ => none

theorem labels_show_parameters_optional :
    ∃ hint, provide? movSnapshot movBuffer ⟨3, 9⟩ = some hint ∧
      hint.label = "mov a : [𝄞b]".toList ∧
      hint.parameters.map (fun h => (h.start, h.stop)) = [(4, 5), (8, 13)] ∧ hint.active = 1 ∧
      ∃ s ∈ movSnapshot.catalogue.symbols, hint.Shows s.parameters ∧ s.parameters ≠ [] ∧
        hint.active < s.parameters.length := by
  have hprovided : (provide? movSnapshot movBuffer ⟨3, 9⟩).map (fun hint =>
      (hint.label, hint.parameters.map fun h => (h.start, h.stop), hint.active)) =
        some ("mov a : [𝄞b]".toList, [(4, 5), (8, 13)], 1) := by
    decide +kernel
  obtain ⟨hint, hhint, hshown⟩ := Option.map_eq_some_iff.mp hprovided
  simp only [Prod.mk.injEq] at hshown
  obtain ⟨hlabel, hcolumns, hactive⟩ := hshown
  obtain ⟨hlabels, hhints⟩ := labels_show_parameters
  obtain ⟨s, hs, -, ⟨n, rfl⟩, hvalid, hnone⟩ := hhints movSnapshot movBuffer ⟨3, 9⟩ hint hhint
  obtain ⟨r, listings, f, hbuilt⟩ : ∃ r listings f,
      movSnapshot.catalogue = Catalogue.build r listings f := by
    unfold movSnapshot
    exact exists_catalogue_eq_build _ _ _ _ _
  have hshows := hlabels r listings f s (hbuilt ▸ hs) n
  have hne : s.parameters ≠ [] := fun hnil => absurd (hactive.symm.trans (hnone hnil)) (by decide)
  exact ⟨_, hhint, hlabel, hcolumns, hactive, s, hs, hshows, hne, hvalid hne⟩

end SignatureHint

end AsmLens
