import AsmLens.Proofs.Catalogue.Bodies
import AsmLens.Proofs.Catalogue.Outline
import AsmLens.Proofs.Catalogue.Paths
import AsmLens.Proofs.Symbol.Label

/-!
# The block of a label

A label with an opening brace on its line opens a block of its name, as long as its colon follows
the name: the survey takes no other label. The symbol of the label then owns the block. In the
outline the symbols of the block stand below a label of that name and scope, the first one that owns
the block, and a dotted path of the two names finds a symbol of the block, or one of another scope
of the same name that is declared before it.
-/

namespace AsmLens

namespace Outline

/-- The outline of a file has a tree for the symbol `o`, and directly in it all the symbols that
stand in a scope. -/
def Nests (c : Catalogue) (file scope : Nat) (o : Symbol) : Prop :=
  ∃ forest : List Nesting, ofFile c file = forest.map Nesting.outline ∧
    ∃ n ∈ forest.flatMap Nesting.subtrees, n.entry.1 = o ∧
      ∀ s ∈ members c file, s.lexicalScope = scope → s ∈ n.children.map (·.entry.1)

/-- The symbols of an owned scope stand below the first symbol that owns it. -/
theorem nests_of_firstOwner {c : Catalogue} (hf : c.forest.Ordered) {file scope p : Nat}
    {o : Symbol} (howner : FirstOwner c.forest (members c file) scope p)
    (ho : (members c file)[p]? = some o) : Nests c file scope o := by
  have hshows := nest_shows hf (members c file)
  have hmem : (o, p) ∈ (members c file).zipIdx := List.mem_zipIdx_iff_getElem?.mpr ho
  obtain ⟨n, hn, hentry⟩ := List.mem_map.mp (hshows.once.mem_iff.mpr hmem)
  refine ⟨_, ?_, n, hn, congrArg Prod.fst hentry, ?_⟩
  · rw [ofFile, List.map_map]
    exact (List.map_congr_left fun e _ => outline_nest (members c file).length e).symm
  · intro s hs hscope
    obtain ⟨i, hi⟩ := List.mem_iff_getElem?.mp hs
    obtain ⟨outer, houter⟩ := List.head?_eq_some_iff.mp (c.forest.head?_ancestors scope)
    have hstands : StandsUnder c.forest (members c file) s n.entry.2 := by
      refine ⟨[], scope, outer, hscope.symm ▸ houter, hentry ▸ howner, ?_⟩
      intro inner hinner
      cases hinner
    have hentry' : (s, i) ∈ (members c file).zipIdx := List.mem_zipIdx_iff_getElem?.mpr hi
    have hchild := (hshows.children n hn (s, i) hentry').mpr hstands
    obtain ⟨m, hm, hmentry⟩ := List.mem_map.mp hchild
    exact List.mem_map.mpr ⟨m, hm, congrArg Prod.fst hmentry⟩

/-- The marks of a scope are those of every symbol that owns it. -/
lemma node?_of_ownedScope? {f : Scope.Forest} {o : Symbol} {id : Nat}
    (h : ownedScope? f o = some id) :
    ∃ n, f.node? id = some n ∧ ownedKind? o.category = some n.kind ∧ o.lexicalScope = n.parent ∧
      o.name = n.name ∧ o.file = n.file ∧ o.span.startLine ≤ n.line := by
  obtain ⟨kind, hkind, hopened⟩ := Option.bind_eq_some_iff.mp h
  obtain ⟨n, hn, hfile, rfl, hparent, hname, hline⟩ := Scope.Forest.node?_of_openedBy hopened
  exact ⟨n, hn, hkind, hparent.symm, hname.symm, hfile.symm, hline⟩

lemma eq_namedLabel_of_ownedKind? {k : Category} (h : ownedKind? k = some .label) :
    k = .namedLabel := by
  cases k with
  | namedLabel => rfl
  | _ => cases h

end Outline

namespace Catalogue

/-- A label is read at a column of a row, with nothing but white space in front of it, and the row
opens a block. -/
structure LabelsBlock (row : Scope.Row) (column : Nat) (d : Declaration) : Prop where
  front : ∀ c ∈ row.bare.take column, Text.isSpace c = true
  read : Declaration.read? (markedText row column) = some d
  label : d.kind = .namedLabel
  block : Scope.OpensBlock row.bare

/-- The symbol is a label of a name in a scope of a file. -/
structure IsLabelIn (file scope : Nat) (name : Text) (s : Symbol) : Prop where
  name : s.name = name
  category : s.category = .namedLabel
  scope : s.lexicalScope = scope
  file : s.file = file

/-- The symbol `own` is that of the label `d` at a position in a scope. It owns the block `id`, and
the outline nests the symbols of the block in a label of that name and scope, which is `own` unless
there is another such label up to the line. -/
structure OwnsBlock (c : Catalogue) (file line column scope : Nat) (d : Declaration) (id : Nat)
    (own : Symbol) : Prop where
  mem : own ∈ c.symbols
  label : IsLabelIn file scope d.name own
  span : own.span = nameSpan file line column d
  owned : Outline.ownedScope? c.forest own = some id
  nested : ∃ o ∈ c.symbols, IsLabelIn file scope d.name o ∧ o.span.startLine ≤ line ∧
    Outline.Nests c file id o ∧
    ((∀ other ∈ c.symbols, IsLabelIn file scope d.name other → other.span.startLine ≤ line →
      other = own) → o = own)

/-- The dotted path of a scope's name and the name of a symbol in the scope means a symbol of that
name in a scope of that name, and it means one in this scope if there is none in another scope of
that name. -/
def LeadsInto (c : Catalogue) (name : Text) (id : Nat) : Prop :=
  ∀ x ∈ c.symbols, x.lexicalScope = id → ∃ y ∈ c.symbols, y.name = x.name ∧
    c.forest.name? y.lexicalScope = some name ∧
    (∀ scope, c.resolvePath? (name ++ '.' :: x.name) scope = some y) ∧
    ((∀ z ∈ c.symbols, z.name = x.name → c.forest.name? z.lexicalScope = some name →
      z.lexicalScope = id) → y.lexicalScope = id)

/-! ## The symbol of a label -/

/-- A marked declaration has its symbol in the catalogue. -/
lemma exists_ownSymbol {r : Report} {listings : List Scope.Listing} (f : Scope.Forest)
    {l : Scope.Listing} {file line column : Nat} {row : Scope.Row} {d : Declaration}
    (hmarked : MarkedAt r file line column)
    (hlisting : listings.find? (·.file == file) = some l) (hrow : l.row? line = some row)
    (hread : Declaration.read? (markedText row column) = some d) :
    ∃ isMain doc, ownSymbol isMain file line column row.scope d doc ∈
      (build r listings f).symbols := by
  obtain ⟨span, htarget, rfl, rfl, rfl⟩ := exists_target hmarked hlisting
  obtain ⟨front, rest, isMain, doc, hsymbols⟩ :=
    exists_symbols_of_target (f := f) htarget hrow hread
  refine ⟨isMain, doc, ?_⟩
  rw [hsymbols, symbolsOf_eq]
  simp

/-- The symbol of a label owns the scope that is found by the marks of the label. -/
theorem ownsBlock_ownSymbol {c : Catalogue} (hf : c.forest.Ordered)
    {file line column scope id : Nat} {d : Declaration} {isMain : Bool} {doc : Option Doc}
    (hown : ownSymbol isMain file line column scope d doc ∈ c.symbols)
    (hlabel : d.kind = .namedLabel)
    (hnode : c.forest.node? id = some ⟨scope, d.name, .label, line, file⟩)
    (hfound : c.forest.openedBy file scope d.name .label line = some id) :
    OwnsBlock c file line column scope d id (ownSymbol isMain file line column scope d doc) := by
  have hcategory : (ownSymbol isMain file line column scope d doc).category = .namedLabel := by
    refine (category_documented d.kind doc).trans ?_
    rw [hlabel]
    rfl
  have howned : Outline.ownedScope? c.forest (ownSymbol isMain file line column scope d doc) =
      some id := by
    rw [Outline.ownedScope?, hcategory]
    exact hfound
  refine ⟨hown, ⟨rfl, hcategory, rfl, rfl⟩, rfl, howned, ?_⟩
  have hmember : ownSymbol isMain file line column scope d doc ∈ Outline.members c file := by
    refine List.mem_filter.mpr ⟨List.mem_filter.mpr ⟨hown, by simp [ownSymbol]⟩, ?_⟩
    rw [hcategory]
    rfl
  -- whoever comes first among the owners of the block has its marks, as the label has
  obtain ⟨p, hp⟩ := Option.ne_none_iff_exists'.mp fun hnone =>
    Outline.owner?_eq_none_iff.mp hnone _ hmember howned
  obtain ⟨o, ho, hoowned, hbefore⟩ := Outline.owner?_eq_some_iff.mp hp
  have homem : o ∈ c.symbols :=
    List.mem_of_mem_filter (List.mem_of_mem_filter (List.mem_of_getElem? ho))
  obtain ⟨n, hn, hkind, hscope, hname, hofile, hline⟩ := Outline.node?_of_ownedScope? hoowned
  cases hnode.symm.trans hn
  have hlabelIn : IsLabelIn file scope d.name o :=
    ⟨hname, Outline.eq_namedLabel_of_ownedKind? hkind, hscope, hofile⟩
  exact ⟨o, homem, hlabelIn, hline, Outline.nests_of_firstOwner hf ⟨o, ho, hoowned, hbefore⟩ ho,
    fun honly => honly o homem hlabelIn hline⟩

/-! ## Paths into a block -/

lemma carries_singleton_iff {f : Scope.Forest} (hf : f.Ordered) {name : Text} {id : Nat} :
    f.Carries [name] id ↔ f.name? id = some name := by
  rw [← List.nil_append [name], Scope.Forest.carries_concat hf, Scope.Forest.name?_eq_some_iff]
  simp only [Scope.Forest.carries_nil, and_true]

lemma bodyKind?_ne_label (k : SymbolKind) : bodyKind? k ≠ some .label := by
  intro h
  cases k <;> cases h

/-- No parameter stands in the block of a label, so the names there are words. -/
lemma point_notMem_of_label {r : Report} {listings : List Scope.Listing} {f : Scope.Forest}
    {x : Symbol} {n : Scope.Node} (hx : x ∈ (build r listings f).symbols)
    (hnode : f.node? x.lexicalScope = some n) (hkind : n.kind = .label) : '.' ∉ x.name := by
  rcases List.mem_append.mp hx with hdeclared | hprovided
  · obtain ⟨l, span, row, d, doc, _, _, hread, hmem, _⟩ := exists_declaration hdeclared
    rw [symbolsOf_eq] at hmem
    rcases List.mem_append.mp hmem with hparameter | hself
    · split at hparameter
      · rename_i body hbody
        obtain ⟨p, _, rfl⟩ := List.mem_map.mp hparameter
        obtain ⟨kind, hbodyKind, hopened⟩ := Option.bind_eq_some_iff.mp hbody
        obtain ⟨m, hm, _, hmkind, _⟩ := Scope.Forest.node?_of_openedBy hopened
        cases hnode.symm.trans hm
        rw [← hmkind, hkind] at hbodyKind
        exact absurd hbodyKind (bodyKind?_ne_label _)
      · cases hparameter
    · cases List.mem_singleton.mp hself
      intro hpoint
      exact absurd ((Declaration.read?_spelled hread).word _ hpoint) (by decide)
  · rw [provided_lexicalScope hprovided] at hnode
    cases hnode

/-- The path of a label's name and a name in its block leads into a scope of the label's name. -/
theorem leadsInto_of_label {r : Report} {listings : List Scope.Listing} {f : Scope.Forest}
    (hf : f.Ordered) {id : Nat} {n : Scope.Node} (hnode : f.node? id = some n)
    (hkind : n.kind = .label) (hname : '.' ∉ n.name) :
    LeadsInto (build r listings f) n.name id := by
  rintro x hx rfl
  have hdots : ∀ part ∈ [n.name] ++ [x.name], '.' ∉ part := by
    simpa using ⟨hname, point_notMem_of_label hx hnode hkind⟩
  have hmeans := resolvePath?_eq (c := build r listings f) hf (List.cons_ne_nil n.name []) hdots
  have hfound : ((build r listings f).symbols.find? fun s =>
      s.name = x.name ∧ f.Carries [n.name] s.lexicalScope).isSome := by
    rw [List.find?_isSome]
    refine ⟨x, hx, decide_eq_true ⟨rfl, (carries_singleton_iff hf).mpr ?_⟩⟩
    rw [Scope.Forest.name?, hnode]
    rfl
  obtain ⟨y, hy⟩ := Option.isSome_iff_exists.mp hfound
  have hmatch := List.find?_some hy
  rw [decide_eq_true_iff] at hmatch
  obtain ⟨hyname, hycarries⟩ := hmatch
  have hymem := List.mem_of_find?_eq_some hy
  have hyscope := (carries_singleton_iff hf).mp hycarries
  have hpath : Text.join ['.'] ([n.name] ++ [x.name]) = n.name ++ '.' :: x.name := by
    simp [Text.join]
  refine ⟨y, hymem, hyname, hyscope, fun scope => ?_, fun honly => honly y hymem hyname hyscope⟩
  rw [← hpath, hmeans scope]
  exact hy

/-! ## Labels with their blocks -/

/-- A label at the front of a line that opens a block is read by the survey exactly if its colon
follows its name. Then the survey opens one scope on the line, with the name of the label and in the
scope of the line. It is found by its marks, the symbol of a marked label owns it, the symbols in it
stand below that label in the outline, and paths lead into it. -/
theorem build_labels_own_blocks (r : Report) (sheets : List Scope.Sheet) :
    let c := build r (Scope.surveyAll {} sheets).1 (Scope.surveyAll {} sheets).2
    ∀ before s after, sheets = before ++ s :: after → (∀ t ∈ before, t.file ≠ s.file) →
      let start := (Scope.surveyAll {} before).2
      let run := Scope.survey start s.file s.text s.comments
      ∀ line row column d, run.1.row? line = some row → LabelsBlock row column d →
        (Scope.Opening.ofLine? row.bare =
          if row.bare[column + d.column + d.name.length]? = some ':' then some ⟨d.name, .label⟩
          else none) ∧
        (row.bare[column + d.column + d.name.length]? = some ':' →
          ∃ id, Scope.OpenedAs start run.2 c.forest ⟨row.scope, d.name, .label, line, s.file⟩ id ∧
            (MarkedAt r s.file line column →
              ∃ own, OwnsBlock c s.file line column row.scope d id own) ∧
            LeadsInto c d.name id) := by
  rintro c before s after rfl hfirst start run line row column d hrow hlabels
  have hopening := Scope.Opening.ofLine?_of_label hlabels.front hlabels.read hlabels.label
  refine ⟨hopening, fun hcolon => ?_⟩
  rw [if_pos hcolon] at hopening
  obtain ⟨id, hopened⟩ := openedAs_of_opening after hfirst hrow hopening hlabels.block
  have hf : c.forest.Ordered :=
    (Scope.surveyAll_grows Scope.Forest.ordered_empty (before ++ s :: after)).1
  refine ⟨id, hopened, ?_, ?_⟩
  · intro hmarked
    obtain ⟨isMain, doc, hown⟩ := exists_ownSymbol c.forest hmarked
      (Scope.find?_surveyAll_first {} after hfirst) hrow hlabels.read
    exact ⟨_, ownsBlock_ownSymbol hf hown hlabels.label hopened.node hopened.found⟩
  · refine leadsInto_of_label hf hopened.node rfl ?_
    intro hpoint
    exact absurd ((Declaration.read?_spelled hlabels.read).word _ hpoint) (by decide)

/-- A label with a block, and a label in the block. -/
def labReport : Report where
  marks := [⟨.label, some ⟨0, 1, 0, 6, 1⟩⟩, ⟨.label, some ⟨1, 0, 1, 2, 1⟩⟩]

def labSheet : Scope.Sheet := ⟨1, " @lab: \x7b\nx: nop\n\x7d".toList, []⟩

theorem build_labels_own_blocks_lab :
    let run := Scope.surveyAll {} [labSheet]
    let c := build labReport run.1 run.2
    let row : Scope.Row := ⟨0, 0, " @lab: \x7b".toList, " @lab: \x7b".toList⟩
    let d : Declaration := ⟨true, "lab".toList, 1, .namedLabel⟩
    LabelsBlock row 1 d ∧ MarkedAt labReport 1 0 1 ∧
    c.forest.openedBy 1 0 "lab".toList .label 0 = some 1 ∧
    (∃ own, OwnsBlock c 1 0 1 0 d 1 own) ∧
    ∃ y, c.resolvePath? "lab.x".toList 0 = some y ∧ y.name = "x".toList := by
  intro run c row d
  have hlabels : LabelsBlock row 1 d := by
    refine ⟨?_, by decide +kernel, rfl, " @lab: ".toList, [], rfl, by decide⟩
    intro space hspace
    cases List.mem_singleton.mp hspace
    decide
  have hmarked : MarkedAt labReport 1 0 1 :=
    ⟨by decide, _, List.mem_cons_self, rfl, _, rfl, rfl, rfl, rfl⟩
  obtain ⟨id, hopened, howns, hleads⟩ := (build_labels_own_blocks labReport [labSheet] [] labSheet
    [] rfl nofun 0 row 1 d (by decide +kernel) hlabels).2 (by decide)
  have hfound : c.forest.openedBy 1 0 "lab".toList .label 0 = some 1 := by decide +kernel
  cases hfound.symm.trans hopened.found
  obtain ⟨x, hx, hname, hscope⟩ :
      ∃ x ∈ c.symbols, x.name = "x".toList ∧ x.lexicalScope = 1 := by
    decide +kernel
  obtain ⟨y, _, hyname, _, hpath, _⟩ := hleads x hx hscope
  rw [hname] at hpath hyname
  exact ⟨hlabels, hmarked, hfound, howns hmarked, y, hpath 0, hyname⟩

/-- With a space in front of the colon, the label is read at its mark and not by the survey. The
block has no name, and label and block come apart. -/
theorem spaced_label_without_block :
    let run := Scope.surveyAll {} [⟨1, "lab : \x7b\nx: nop\n\x7d".toList, []⟩]
    let marks : List Mark := [⟨.label, some ⟨0, 0, 0, 3, 1⟩⟩, ⟨.label, some ⟨1, 0, 1, 2, 1⟩⟩]
    let c := build { marks := marks } run.1 run.2
    Declaration.read? "lab : \x7b".toList = some ⟨false, "lab".toList, 0, .namedLabel⟩ ∧
    c.symbols.map (·.name) = ["lab".toList, "x".toList] ∧
    c.forest.openedBy 1 0 "lab".toList .label 0 = none ∧ (Outline.ofFile c 1).length = 2 ∧
    c.resolvePath? "lab.x".toList 0 = none := by
  decide +kernel

end Catalogue

end AsmLens
