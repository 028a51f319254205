import AsmLens.Proofs.Numeral.Grammar
import AsmLens.Proofs.Symbol.Opening

/-!
# Signatures are declarations

A signature is a declaration in a normal form: the directive in lower case, one space, the name
without its at-sign, and the value or the parameters with fixed separators. What is read from a
declaration survives this, because a value is trimmed and keeps its number, and the names of
parameters are trimmed, not empty and free of the characters that end them. No other directive
matches the start of a signature, so it is read by the form it was written for.
-/

namespace AsmLens

namespace Text

theorem cut?_eq_some_iff {c : Char} {t front back : Text} :
    cut? c t = some (front, back) ↔ t = front ++ c :: back ∧ c ∉ front := by
  induction t generalizing front with
  | nil => simp [cut?]
  | cons d ds ih =>
    rw [cut?]
    by_cases hd : d = c
    · subst hd
      cases front with
      | nil => simp [eq_comm]
      | cons e es =>
        simp only [if_pos, List.cons_append, List.cons.injEq, List.mem_cons, not_or]
        constructor
        · nofun
        · rintro ⟨⟨rfl, _⟩, hne, _⟩
          exact absurd rfl hne
    · rw [if_neg hd, Option.map_eq_some_iff]
      constructor
      · rintro ⟨⟨a, b⟩, hcut, heq⟩
        cases heq
        obtain ⟨rfl, ha⟩ := ih.mp hcut
        exact ⟨rfl, by simp [Ne.symm hd, ha]⟩
      · rintro ⟨heq, hfront⟩
        cases front with
        | nil => exact absurd (List.cons.inj heq).1 hd
        | cons e es =>
          obtain ⟨rfl, rfl⟩ := List.cons.inj heq
          exact ⟨(es, back), ih.mpr ⟨rfl, fun hmem => hfront (List.mem_cons_of_mem d hmem)⟩, rfl⟩

lemma blank_nil : Blank [] := nofun

lemma blank_space : Blank [' '] := by
  intro c hc
  rw [List.mem_singleton.mp hc]
  rfl

lemma trimEnd_of_blank {t : Text} (h : Blank t) : trimEnd t = [] := by
  rw [trimEnd_eq_rdropWhile, List.rdropWhile_eq_nil_iff]
  exact h

/-- Trimming the end leaves a part in front alone that ends without white space. -/
lemma trimEnd_append {front : Text} (h : NoTrailing front) (t : Text) :
    trimEnd (front ++ t) = front ++ trimEnd t := by
  induction t using List.reverseRecOn with
  | nil =>
    rw [List.append_nil, trimEnd_eq_self h]
    exact (List.append_nil front).symm
  | append_singleton t c ih =>
    rw [← List.append_assoc]
    simp only [trimEnd_eq_rdropWhile] at ih ⊢
    by_cases hc : isSpace c = true
    · rw [List.rdropWhile_concat_pos _ _ _ hc, List.rdropWhile_concat_pos _ _ _ hc, ih]
    · rw [List.rdropWhile_concat_neg _ _ _ hc, List.rdropWhile_concat_neg _ _ _ hc,
        List.append_assoc]

/-- A trimmed text is what trimming leaves of it between white space. -/
lemma trim_padded {gap t trail : Text} (hgap : Blank gap) (ht : Trimmed t)
    (htrail : Blank trail) : trim (gap ++ (t ++ trail)) = t := by
  by_cases hnil : t = []
  · subst hnil
    have hblank : Blank (gap ++ trail) := fun c hc =>
      (List.mem_append.mp hc).elim (hgap c) (htrail c)
    have hstart : Blank (trimStart (gap ++ trail)) := fun c hc =>
      hblank c ((List.dropWhile_suffix isSpace).subset hc)
    exact trimEnd_of_blank hstart
  · have hleading : NoLeading (t ++ trail) := by
      obtain ⟨c, cs, rfl⟩ := List.exists_cons_of_ne_nil hnil
      exact ht.1
    rw [trim, trimStart_append hgap hleading, trimEnd_append ht.2, trimEnd_of_blank htrail,
      List.append_nil]

/-- Joined parts end as the last of them. -/
lemma noTrailing_join {sep : Text} {parts : List Text}
    (h : ∀ part ∈ parts, part ≠ [] ∧ NoTrailing part) : NoTrailing (join sep parts) := by
  induction parts with
  | nil => nofun
  | cons part parts ih =>
    cases parts with
    | nil =>
      rw [join, List.intercalate_singleton]
      exact (h part List.mem_cons_self).2
    | cons next parts =>
      have hrest := ih fun q hq => h q (List.mem_cons_of_mem part hq)
      have hne : join sep (next :: parts) ≠ [] := by
        obtain ⟨c, cs, rfl⟩ :=
          List.exists_cons_of_ne_nil (h next (List.mem_cons_of_mem part List.mem_cons_self)).1
        exact List.ne_nil_of_mem (mem_join_of_mem sep List.mem_cons_self List.mem_cons_self)
      intro c hc
      rw [join_cons_of_ne_nil (List.cons_ne_nil next parts),
        List.getLast?_append_of_ne_nil _ hne] at hc
      exact hrest c hc

end Text

/-! ## What is read from a declaration -/

/-- A value as it is read from a text: not empty, trimmed and with its number. -/
structure AssignedValue.ReadFrom (d : Text) (v : AssignedValue) : Prop where
  nonempty : v.text ≠ []
  trimmed : v.text.Trimmed
  number : v.number = Numeral.value? v.text
  written : v.text ⊆ d

/-- A parameter as it is read from a list in a text: it has a name and nothing else, and the name is
not empty, trimmed and free of the characters `stops`. -/
structure Parameter.ReadFrom (d stops : Text) (p : Parameter) : Prop where
  plain : p = { name := p.name }
  nonempty : p.name ≠ []
  trimmed : p.name.Trimmed
  free : ∀ c ∈ stops, c ∉ p.name
  written : p.name ⊆ d

/-- A kind as it is read from a text. A declaration never reads as a parameter. -/
def SymbolKind.ReadFrom (d : Text) : SymbolKind → Prop
  | .label v | .constant v | .var v => ∀ a ∈ v, a.ReadFrom d
  | .function ps | .macroDef ps => ∀ p ∈ ps, p.ReadFrom d [',', ')']
  | .pseudoCommand ps => ∀ p ∈ ps, p.ReadFrom d [':', '\x7b']
  | .parameter _ => False
  | .namedLabel | .nameSpace | .flag => True

namespace Declaration

/-- What follows a name at the end of `d` determines kinds that are read from `d`. -/
def ReadsFrom (d : Text) (kind? : Text → Option SymbolKind) : Prop :=
  ∀ tail kind, tail <:+ d → kind? tail = some kind → kind.ReadFrom d

variable {d : Text}

lemma assigned?_readFrom {t : Text} (ht : t ⊆ d) {v : AssignedValue} (h : assigned? t = some v) :
    v.ReadFrom d := by
  unfold assigned? at h
  dsimp only at h
  split at h
  · cases h
  · rename_i hne
    cases h
    exact ⟨by simpa using hne, Text.trimmed_trim t, rfl, fun c hc => ht (Text.mem_of_mem_trim hc)⟩

lemma readsFrom_assignment? (make : Option AssignedValue → SymbolKind)
    (hmake : ∀ v, (∀ a ∈ v, a.ReadFrom d) → (make v).ReadFrom d) :
    ReadsFrom d (assignment? make) := by
  intro tail kind htail h
  unfold assignment? at h
  split at h
  · cases h
    exact hmake none nofun
  · rename_i value hvalue
    cases h
    refine hmake _ fun a ha => assigned?_readFrom ?_ ha
    have hsuffix : '=' :: value <:+ tail := hvalue ▸ List.dropWhile_suffix Text.isSpace
    exact ((List.suffix_cons '=' value).trans (hsuffix.trans htail)).subset
  · cases h

lemma parameterNames_readFrom {sep : Char} {stops t : Text} (ht : t ⊆ d)
    (hstops : ∀ c ∈ stops, c = sep ∨ c ∉ t) {p : Parameter} (h : p ∈ parameterNames sep t) :
    p.ReadFrom d stops := by
  obtain ⟨name, hname, hp⟩ := List.mem_filterMap.mp h
  obtain ⟨part, hpart, rfl⟩ := List.mem_map.mp hname
  split at hp
  · cases hp
  · rename_i hne
    cases hp
    refine ⟨rfl, by simpa using hne, Text.trimmed_trim part, ?_, ?_⟩
    · intro c hc hmem
      have hmem := Text.mem_of_mem_trim hmem
      rcases hstops c hc with rfl | hout
      · exact Text.not_mem_of_mem_split hpart hmem
      · exact hout (Text.mem_of_mem_split hpart hmem)
    · intro c hc
      exact ht (Text.mem_of_mem_split hpart (Text.mem_of_mem_trim hc))

lemma parenthesised_readFrom {tail : Text} (htail : tail <:+ d) {p : Parameter}
    (h : p ∈ parenthesised tail) : p.ReadFrom d [',', ')'] := by
  unfold parenthesised at h
  split at h
  · rename_i rest hrest
    split at h
    · rename_i inside back hcut
      obtain ⟨rfl, hclose⟩ := Text.cut?_eq_some_iff.mp hcut
      have hsuffix : '(' :: (inside ++ ')' :: back) <:+ tail :=
        hrest ▸ List.dropWhile_suffix Text.isSpace
      refine parameterNames_readFrom ?_ ?_ h
      · intro c hc
        exact (hsuffix.trans htail).subset (by simp [hc])
      · simpa using hclose
    · cases h
  · cases h

lemma operands_readFrom {tail : Text} (htail : tail <:+ d) {p : Parameter}
    (h : p ∈ operands tail) : p.ReadFrom d [':', '\x7b'] := by
  refine parameterNames_readFrom ?_ ?_ h
  · exact fun c hc => htail.subset ((List.takeWhile_prefix _).subset hc)
  · have hbrace : '\x7b' ∉ tail.takeWhile (· != '\x7b') := by
      intro hmem
      exact absurd (List.mem_takeWhile_imp hmem) (by decide)
    simpa using hbrace

lemma named?_readFrom {rest : Text} {kind? : Text → Option SymbolKind} {x : Declaration}
    (hkind : ReadsFrom d kind?) (hrest : rest <:+ d) (h : named? d rest kind? = some x) :
    x.kind.ReadFrom d := by
  simp only [named?, Source.takeName_eq] at h
  split at h
  · cases h
  · obtain ⟨kind, htail, rfl⟩ := Option.map_eq_some_iff.mp h
    exact hkind _ kind ((List.dropWhile_suffix _).trans ((Source.takeAt_isSuffix rest).trans hrest))
      htail

lemma directive?_readFrom {keyword : String} {kind? : Text → Option SymbolKind} {x : Declaration}
    (hkind : ReadsFrom d kind?) (h : directive? d keyword kind? = some x) : x.kind.ReadFrom d := by
  obtain ⟨rest, hkeyword, hnamed⟩ := Option.bind_eq_some_iff.mp h
  exact named?_readFrom hkind (Source.afterKeywordSpace?_isSuffix hkeyword) hnamed

lemma evalVar?_readFrom {x : Declaration} (h : evalVar? d = some x) : x.kind.ReadFrom d := by
  obtain ⟨behind, heval, hvar⟩ := Option.bind_eq_some_iff.mp h
  obtain ⟨rest, hrest, hnamed⟩ := Option.bind_eq_some_iff.mp hvar
  exact named?_readFrom (readsFrom_assignment? .var fun _ h => h)
    ((Source.afterKeywordSpace?_isSuffix hrest).trans (Source.afterKeywordSpace?_isSuffix heval))
    hnamed

lemma label?_readFrom {x : Declaration} (h : label? d = some x) : x.kind.ReadFrom d := by
  refine named?_readFrom ?_ List.suffix_rfl h
  intro tail kind _ hkind
  dsimp only at hkind
  split at hkind
  · cases hkind
    trivial
  · cases hkind

/-- What the kind of a declaration carries is as it was read from the text. -/
theorem read?_readFrom {x : Declaration} (h : read? d = some x) : x.kind.ReadFrom d := by
  have hplain : ∀ make : Text → SymbolKind, (∀ tail, tail <:+ d → (make tail).ReadFrom d) →
      ReadsFrom d fun tail => some (make tail) := by
    intro make hmake tail kind htail hkind
    cases hkind
    exact hmake tail htail
  rw [read?] at h
  split at h
  · cases h
  · revert h
    iterate 3 refine of_orElse (directive?_readFrom (readsFrom_assignment? _ fun _ h => h)) ?_
    refine of_orElse evalVar?_readFrom ?_
    refine of_orElse (directive?_readFrom (hplain _ fun _ _ => trivial)) ?_
    iterate 2
      refine of_orElse (directive?_readFrom (hplain _ fun _ htail _ hp =>
        parenthesised_readFrom htail hp)) ?_
    refine of_orElse (directive?_readFrom (hplain _ fun _ htail _ hp =>
      operands_readFrom htail hp)) ?_
    iterate 2 refine of_orElse (directive?_readFrom (hplain _ fun _ _ => trivial)) ?_
    exact label?_readFrom

/-! ## Forms and their keywords -/

/-- The forms with a keyword, in the order in which they are tried. -/
def forms : List (String × (Text → Option Declaration)) :=
  [(".label", (directive? · ".label" (assignment? .label))),
    (".const", (directive? · ".const" (assignment? .constant))),
    (".var", (directive? · ".var" (assignment? .var))),
    (".eval", evalVar?),
    ("#define", (directive? · "#define" fun _ => some .flag)),
    (".macro", (directive? · ".macro" fun tail => some (.macroDef (parenthesised tail)))),
    (".function", (directive? · ".function" fun tail => some (.function (parenthesised tail)))),
    (".pseudocommand",
      (directive? · ".pseudocommand" fun tail => some (.pseudoCommand (operands tail)))),
    (".namespace", (directive? · ".namespace" fun _ => some .nameSpace)),
    (".filenamespace", (directive? · ".filenamespace" fun _ => some .nameSpace))]

lemma read?_eq (d : Text) :
    read? d = if d.head? = some '!' then none
      else forms.foldr (fun p rest => p.2 d <|> rest) (label? d) := rfl

/-- The keywords of the forms. -/
def keywords : List String := forms.map Prod.fst

/-- No text starts with the keywords of two forms. -/
lemma keywords_apart :
    keywords.Pairwise fun k l => ¬k.toList <+: l.toList ∧ ¬l.toList <+: k.toList := by
  decide

/-- A keyword is a point or a number sign with lower-case letters behind it. -/
lemma keywords_spelled : ∀ k ∈ keywords,
    (k.toList.head? = some '.' ∨ k.toList.head? = some '#') ∧
      (k.toList.all fun c => decide (Source.Plain c) && Source.foldsTo c c) = true := by
  decide

lemma afterKeyword?_of_directive? {keyword : String} {kind? : Text → Option SymbolKind}
    {x : Declaration} (h : directive? d keyword kind? = some x) :
    ∃ u, Source.afterKeyword? keyword.toList d = some u := by
  obtain ⟨rest, hrest, _⟩ := Option.bind_eq_some_iff.mp h
  obtain ⟨u, hu, _⟩ := Option.bind_eq_some_iff.mp hrest
  exact ⟨u, hu⟩

/-- What a form reads starts with its keyword. -/
lemma afterKeyword?_of_form : ∀ p ∈ forms, ∀ x, p.2 d = some x →
    ∃ u, Source.afterKeyword? p.1.toList d = some u := by
  have heval : ∀ x, evalVar? d = some x →
      ∃ u, Source.afterKeyword? ".eval".toList d = some u := by
    intro x h
    obtain ⟨behind, hbehind, _⟩ := Option.bind_eq_some_iff.mp h
    obtain ⟨u, hu, _⟩ := Option.bind_eq_some_iff.mp hbehind
    exact ⟨u, hu⟩
  have hdirective : ∀ keyword kind? x, directive? d keyword kind? = some x →
      ∃ u, Source.afterKeyword? keyword.toList d = some u :=
    fun _ _ _ => afterKeyword?_of_directive?
  simp only [forms, List.forall_mem_cons]
  exact ⟨hdirective _ _, hdirective _ _, hdirective _ _, heval, hdirective _ _, hdirective _ _,
    hdirective _ _, hdirective _ _, hdirective _ _, hdirective _ _, nofun⟩

/-- A text that starts with a keyword starts with a point or a number sign. -/
lemma head?_of_keyword {keyword : String} (hmem : keyword ∈ keywords) {u : Text}
    (h : Source.afterKeyword? keyword.toList d = some u) :
    d.head? = some '.' ∨ d.head? = some '#' := by
  rcases (keywords_spelled keyword hmem).1 with hmark | hmark
  · obtain ⟨ks, hks⟩ := List.head?_eq_some_iff.mp hmark
    rw [hks] at h
    exact Or.inl (Source.head?_of_afterKeyword? (by decide) h)
  · obtain ⟨ks, hks⟩ := List.head?_eq_some_iff.mp hmark
    rw [hks] at h
    exact Or.inr (Source.head?_of_afterKeyword? (by decide) h)

/-- A declaration is read by the form whose keyword it starts with. -/
theorem read?_of_form {p : String × (Text → Option Declaration)} (hmem : p ∈ forms)
    {x : Declaration} (h : p.2 d = some x) : read? d = some x := by
  obtain ⟨u, hu⟩ := afterKeyword?_of_form p hmem x h
  have hkeyword : ∀ q ∈ forms, q.1 ∈ keywords := fun q hq => List.mem_map_of_mem hq
  have hplain : ∀ q ∈ forms, ∀ c ∈ q.1.toList, Source.Plain c := by
    intro q hq c hc
    have hall := List.all_eq_true.mp (keywords_spelled q.1 (hkeyword q hq)).2 c hc
    exact of_decide_eq_true (Bool.and_eq_true_iff.mp hall).1
  have hmark : d.head? ≠ some '!' := by
    rcases head?_of_keyword (hkeyword p hmem) hu with hhead | hhead <;> rw [hhead] <;> decide
  obtain ⟨front, back, hsplit⟩ := List.append_of_mem hmem
  rw [read?_eq, if_neg hmark]
  apply Scope.Opening.foldr_orElse_of_findSome?
  rw [List.findSome?_eq_some_iff]
  refine ⟨front, p, back, hsplit, h, ?_⟩
  intro q hq
  have hqmem : q ∈ forms := hsplit ▸ List.mem_append_left _ hq
  have hapart := keywords_apart
  rw [keywords, hsplit, List.map_append, List.map_cons, List.pairwise_append] at hapart
  obtain ⟨hforward, hbackward⟩ := hapart.2.2 q.1 (List.mem_map_of_mem hq) p.1 List.mem_cons_self
  rw [Option.eq_none_iff_forall_ne_some]
  intro y hy
  obtain ⟨v, hv⟩ := afterKeyword?_of_form q hqmem y hy
  rcases Source.isPrefix_or_isPrefix_of_afterKeyword? (hplain q hqmem) (hplain p hmem) hv hu with
    hprefix | hprefix
  · exact hforward hprefix
  · exact hbackward hprefix

/-- A text that starts with none of the marks can only be a label. -/
theorem read?_eq_label? (hmark : ∀ c ∈ d.head?, c ≠ '!' ∧ c ≠ '.' ∧ c ≠ '#') :
    read? d = label? d := by
  have hnone : ∀ p ∈ forms, p.2 d = none := by
    intro p hp
    rw [Option.eq_none_iff_forall_ne_some]
    intro x hx
    obtain ⟨u, hu⟩ := afterKeyword?_of_form p hp x hx
    rcases head?_of_keyword (List.mem_map_of_mem hp) hu with hhead | hhead
    · exact (hmark _ hhead).2.1 rfl
    · exact (hmark _ hhead).2.2 rfl
  have hbang : d.head? ≠ some '!' := fun hhead => (hmark _ hhead).1 rfl
  rw [read?_eq, if_neg hbang, Scope.Opening.foldr_orElse_of_none _ hnone]

/-! ## Reading a signature -/

section Name

variable {name : Text} (hne : name ≠ []) (hword : ∀ c ∈ name, Text.isWord c = true)

include hne hword

lemma exists_head_of_name :
    ∃ c cs, name = c :: cs ∧ Text.isSpace c = false ∧ c ≠ '@' ∧ c ≠ '!' ∧ c ≠ '.' ∧ c ≠ '#' := by
  obtain ⟨c, cs, rfl⟩ := List.exists_cons_of_ne_nil hne
  have hc := hword c List.mem_cons_self
  refine ⟨c, cs, rfl, ?_, ?_, ?_, ?_, ?_⟩
  · rw [Bool.eq_false_iff]
    intro hspace
    rw [Text.isWord_of_isSpace hspace] at hc
    cases hc
  all_goals
    rintro rfl
    exact absurd hc (by decide)

lemma takeAt_name (tail : Text) : Source.takeAt (name ++ tail) = (false, name ++ tail) := by
  obtain ⟨c, cs, rfl, _, hc, _⟩ := exists_head_of_name hne hword
  simp [Source.takeAt, hc]

omit hne in
/-- A name ends in front of what cannot belong to it. -/
lemma takeName_name {tail : Text} (htail : ∀ c ∈ tail.head?, Text.isWord c = false) :
    Source.takeName (name ++ tail) = (name, tail) := by
  have hstop : tail.takeWhile Text.isWord = [] ∧ tail.dropWhile Text.isWord = tail := by
    cases tail with
    | nil => exact ⟨rfl, rfl⟩
    | cons c cs =>
      have hc := htail c rfl
      simp [hc]
  rw [Source.takeName_eq, List.takeWhile_append_of_pos hword, List.dropWhile_append_of_pos hword,
    hstop.1, hstop.2, List.append_nil]

/-- The name at the start of a text, with what cannot belong to it behind it. -/
lemma named?_written {d tail : Text} {kind? : Text → Option SymbolKind} {kind : SymbolKind}
    (htail : ∀ c ∈ tail.head?, Text.isWord c = false) (hkind : kind? tail = some kind) :
    named? d (name ++ tail) kind? =
      some ⟨false, name, d.length - (name ++ tail).length, kind⟩ := by
  simp only [named?, takeAt_name hne hword, takeName_name hword htail, hkind, Option.map_some]
  rw [if_neg (by simpa using hne)]

/-- A directive in lower case is read with the name behind it. -/
theorem read?_written (keyword : String) (kind? : Text → Option SymbolKind) (tail : Text)
    (hform : (keyword, (directive? · keyword kind?)) ∈ forms) {kind : SymbolKind}
    (htail : ∀ c ∈ tail.head?, Text.isWord c = false) (hkind : kind? tail = some kind) :
    ∃ column, read? (keyword.toList ++ ' ' :: (name ++ tail)) =
      some ⟨false, name, column, kind⟩ := by
  have hfolds : ∀ ks rest : Text, (∀ c ∈ ks, Source.foldsTo c c = true) →
      Source.afterKeyword? ks (ks ++ rest) = some rest := by
    intro ks rest hks
    induction ks with
    | nil => rfl
    | cons k ks ih =>
      rw [List.cons_append, Source.afterKeyword?, if_pos (hks k List.mem_cons_self)]
      exact ih fun c hc => hks c (List.mem_cons_of_mem k hc)
  have hself : ∀ c ∈ keyword.toList, Source.foldsTo c c = true := by
    intro c hc
    have hall := List.all_eq_true.mp (keywords_spelled keyword (List.mem_map_of_mem hform)).2 c hc
    exact (Bool.and_eq_true_iff.mp hall).2
  have hspace : Source.afterSpace? (' ' :: (name ++ tail)) = some (name ++ tail) := by
    obtain ⟨c, cs, rfl, hc, _⟩ := exists_head_of_name hne hword
    have hblank : Text.isSpace ' ' = true := by decide
    rw [Source.afterSpace?, if_pos hblank]
    exact congrArg some (Text.trimStart_eq_self fun d hd => Option.some.inj hd ▸ hc)
  have hbehind : Source.afterKeywordSpace? keyword.toList
      (keyword.toList ++ ' ' :: (name ++ tail)) = some (name ++ tail) := by
    rw [Source.afterKeywordSpace?, hfolds _ _ hself, Option.bind_some, hspace]
  have hread := named?_written (d := keyword.toList ++ ' ' :: (name ++ tail)) hne hword htail hkind
  refine ⟨_, read?_of_form hform (Eq.trans ?_ hread)⟩
  dsimp only
  rw [directive?, hbehind, Option.bind_some]

end Name

/-- A value is read back behind an equals sign. -/
lemma assignment?_written {make : Option AssignedValue → SymbolKind} {v : Option AssignedValue}
    (h : ∀ a ∈ v, a.ReadFrom d) :
    assignment? make (v.elim [] fun a => " = ".toList ++ a.text) = some (make v) := by
  cases v with
  | none => rfl
  | some a =>
    obtain ⟨hne, htrimmed, hnumber, _⟩ := h a rfl
    have hvalue : assigned? (' ' :: a.text) = some a := by
      have htrim : Text.trim (' ' :: a.text) = a.text := by
        simpa using Text.trim_padded Text.blank_space htrimmed Text.blank_nil
      rw [assigned?, htrim, if_neg (by simpa using hne), ← hnumber]
    have hstart : Text.trimStart (" = ".toList ++ a.text) = '=' :: ' ' :: a.text := rfl
    simp only [assignment?, Option.elim_some, hstart, hvalue]

/-! ## Lists of names -/

lemma parameterNames_of_notMem {sep : Char} {t : Text} (h : sep ∉ t) :
    parameterNames sep t = if (Text.trim t).isEmpty then [] else [{ name := Text.trim t }] := by
  have hsplit : Text.split sep t = [t] := by
    have hjoin := Text.split_join sep [t] (List.cons_ne_nil t []) (by simpa using h)
    rwa [Text.join, List.intercalate_singleton] at hjoin
  rw [parameterNames, hsplit]
  split <;> simp_all

lemma parameterNames_append {sep : Char} {t : Text} (h : sep ∉ t) (rest : Text) :
    parameterNames sep (t ++ sep :: rest) = parameterNames sep t ++ parameterNames sep rest := by
  have hrest : parameterNames sep (t ++ sep :: rest) =
      (if (Text.trim t).isEmpty then [] else [{ name := Text.trim t }]) ++
        parameterNames sep rest := by
    rw [parameterNames, Text.split_append_cons h, List.map_cons, List.filterMap_cons]
    split <;> simp_all [parameterNames]
  rw [hrest, parameterNames_of_notMem h]

/-- A name between white space is the only one there. -/
lemma parameterNames_padded {sep : Char} {stops gap trail : Text} {p : Parameter}
    (hsep : Text.isSpace sep = false) (hstop : sep ∈ stops) (hp : p.ReadFrom d stops)
    (hgap : Text.Blank gap) (htrail : Text.Blank trail) :
    sep ∉ gap ++ (p.name ++ trail) ∧ parameterNames sep (gap ++ (p.name ++ trail)) = [p] := by
  have hblank : ∀ t : Text, t.Blank → sep ∉ t := by
    intro t ht hmem
    rw [ht sep hmem] at hsep
    cases hsep
  have hout : sep ∉ gap ++ (p.name ++ trail) := by
    simp only [List.mem_append, not_or]
    exact ⟨hblank gap hgap, hp.free sep hstop, hblank trail htrail⟩
  refine ⟨hout, ?_⟩
  have hne : ¬p.name.isEmpty = true := by simpa using hp.nonempty
  rw [parameterNames_of_notMem hout, Text.trim_padded hgap hp.trimmed htrail, if_neg hne,
    ← hp.plain]

/-- Names that are joined with a separator between white space are read back. -/
theorem parameterNames_join (sep : Char) (left right : Text) {stops : Text}
    (hsep : Text.isSpace sep = false) (hstop : sep ∈ stops) (hleft : Text.Blank left)
    (hright : Text.Blank right) {ps : List Parameter} (h : ∀ p ∈ ps, p.ReadFrom d stops)
    {gap : Text} (hgap : Text.Blank gap) :
    parameterNames sep (gap ++ Text.join (left ++ sep :: right) (ps.map (·.name))) = ps := by
  induction ps generalizing gap with
  | nil =>
    have hout : sep ∉ gap := by
      intro hmem
      rw [hgap sep hmem] at hsep
      cases hsep
    have htrim : Text.trim gap = [] := by
      have hnil : Text.Trimmed [] := Text.trimmed_of_forall nofun
      simpa using Text.trim_padded hgap hnil Text.blank_nil
    rw [List.map_nil, Text.join, List.intercalate_nil, List.append_nil,
      parameterNames_of_notMem hout, htrim]
    rfl
  | cons p ps ih =>
    have hp := h p List.mem_cons_self
    have hrest := ih (fun q hq => h q (List.mem_cons_of_mem p hq)) hright
    cases ps with
    | nil =>
      have hsingle := parameterNames_padded hsep hstop hp hgap Text.blank_nil
      rw [List.append_nil] at hsingle
      rw [List.map_singleton, Text.join, List.intercalate_singleton]
      exact hsingle.2
    | cons q qs =>
      obtain ⟨hout, hsingle⟩ := parameterNames_padded hsep hstop hp hgap hleft
      have hjoin : gap ++ Text.join (left ++ sep :: right) ((p :: q :: qs).map (·.name)) =
          gap ++ (p.name ++ left) ++
            sep :: (right ++ Text.join (left ++ sep :: right) ((q :: qs).map (·.name))) := by
        rw [List.map_cons, Text.join_cons_of_ne_nil (by simp)]
        simp
      rw [hjoin, parameterNames_append hout, hsingle, hrest]
      rfl

lemma notMem_parameterList {sep : String} {stops : Text} {c : Char} {ps : List Parameter}
    (h : ∀ p ∈ ps, p.ReadFrom d stops) (hstop : c ∈ stops) (hsep : c ∉ sep.toList) :
    c ∉ Symbol.parameterList sep ps := by
  intro hmem
  rcases Text.mem_join hmem with hmem | ⟨part, hpart, hmem⟩
  · exact hsep hmem
  · obtain ⟨p, hp, rfl⟩ := List.mem_map.mp hpart
    exact (h p hp).free c hstop hmem

/-- A list in parentheses is read back. -/
lemma parenthesised_written {ps : List Parameter} (h : ∀ p ∈ ps, p.ReadFrom d [',', ')']) :
    parenthesised ('(' :: (Symbol.parameterList ", " ps ++ [')'])) = ps := by
  have hcut : Text.cut? ')' (Symbol.parameterList ", " ps ++ [')']) =
      some (Symbol.parameterList ", " ps, []) :=
    Text.cut?_eq_some_iff.mpr ⟨rfl, notMem_parameterList h (by simp) (by decide)⟩
  have hstart : ∀ t : Text, Text.trimStart ('(' :: t) = '(' :: t := fun _ => rfl
  simp only [parenthesised, hstart, hcut]
  exact parameterNames_join ',' [] [' '] (by decide) (by simp) Text.blank_nil Text.blank_space h
    Text.blank_nil

/-- The operands of a pseudocommand are read back. Without any, no space is left behind the name. -/
lemma operands_written {ps : List Parameter} (h : ∀ p ∈ ps, p.ReadFrom d [':', '\x7b']) :
    operands (Text.trimEnd (' ' :: Symbol.parameterList " : " ps)) = ps := by
  by_cases hps : ps = []
  · subst hps
    rfl
  · have hbrace : ∀ c ∈ ' ' :: Symbol.parameterList " : " ps, (c != '\x7b') = true := by
      intro c hc
      rw [bne_iff_ne]
      rintro rfl
      rcases List.mem_cons.mp hc with hspace | hmem
      · exact absurd hspace (by decide)
      · exact notMem_parameterList h (by simp) (by decide) hmem
    have hlast : Text.NoTrailing (' ' :: Symbol.parameterList " : " ps) := by
      have hnames : ∀ part ∈ ps.map (·.name), part ≠ [] ∧ Text.NoTrailing part := by
        intro part hpart
        obtain ⟨p, hp, rfl⟩ := List.mem_map.mp hpart
        exact ⟨(h p hp).nonempty, (h p hp).trimmed.2⟩
      have hne : Symbol.parameterList " : " ps ≠ [] := by
        obtain ⟨p, rest, rfl⟩ := List.exists_cons_of_ne_nil hps
        obtain ⟨c, cs, hname⟩ := List.exists_cons_of_ne_nil (h p List.mem_cons_self).nonempty
        exact List.ne_nil_of_mem (Text.mem_join_of_mem _ (List.mem_map_of_mem List.mem_cons_self)
          (hname ▸ List.mem_cons_self))
      intro c hc
      rw [← List.singleton_append, List.getLast?_append_of_ne_nil _ hne] at hc
      exact Text.noTrailing_join hnames c hc
    rw [Text.trimEnd_eq_self hlast, operands, List.takeWhile_eq_self_iff.mpr hbrace]
    exact parameterNames_join ':' [' '] [' '] (by decide) (by simp) Text.blank_space
      Text.blank_space h Text.blank_space

/-! ## Signatures -/

lemma assignment_eq (directive : String) (name : Text) (v : Option AssignedValue) :
    Symbol.assignment directive name v =
      directive.toList ++ ' ' :: (name ++ v.elim [] fun a => " = ".toList ++ a.text) := by
  cases v <;> simp [Symbol.assignment]

section Written

variable {name : Text} (hne : name ≠ []) (hword : ∀ c ∈ name, Text.isWord c = true)

include hne hword

lemma read?_assignment (keyword : String) (make : Option AssignedValue → SymbolKind)
    (hform : (keyword, (directive? · keyword (assignment? make))) ∈ forms)
    {v : Option AssignedValue} (hv : ∀ a ∈ v, a.ReadFrom d) :
    ∃ column, read? (Symbol.assignment keyword name v) = some ⟨false, name, column, make v⟩ := by
  rw [assignment_eq]
  refine read?_written hne hword keyword (assignment? make) _ hform ?_ (assignment?_written hv)
  cases v with
  | none => nofun
  | some a =>
    rintro c ⟨⟩
    decide

lemma read?_bare (keyword : String) (kind : SymbolKind)
    (hform : (keyword, (directive? · keyword fun _ => some kind)) ∈ forms) :
    ∃ column, read? (keyword.toList ++ ' ' :: name) = some ⟨false, name, column, kind⟩ := by
  have hread := read?_written hne hword keyword (fun _ => some kind) [] hform nofun rfl
  rwa [List.append_nil] at hread

lemma read?_parenthesised (keyword : String) (make : List Parameter → SymbolKind)
    (hform : (keyword, (directive? · keyword fun tail => some (make (parenthesised tail)))) ∈ forms)
    {ps : List Parameter} (hps : ∀ p ∈ ps, p.ReadFrom d [',', ')']) :
    ∃ column, read? ((keyword.toList ++ [' ']) ++ name ++ '(' :: Symbol.parameterList ", " ps ++
      [')']) = some ⟨false, name, column, make ps⟩ := by
  have htext : (keyword.toList ++ [' ']) ++ name ++ '(' :: Symbol.parameterList ", " ps ++ [')'] =
      keyword.toList ++ ' ' :: (name ++ '(' :: (Symbol.parameterList ", " ps ++ [')'])) := by
    simp
  rw [htext]
  refine read?_written hne hword keyword _ _ hform ?_ ?_
  · rintro c ⟨⟩
    decide
  · rw [parenthesised_written hps]

lemma read?_pseudoCommand {ps : List Parameter} (hps : ∀ p ∈ ps, p.ReadFrom d [':', '\x7b']) :
    ∃ column, read? (Symbol.signatureOf name (.pseudoCommand ps)) =
      some ⟨false, name, column, .pseudoCommand ps⟩ := by
  have hfront : Text.NoTrailing (".pseudocommand ".toList ++ name) := by
    intro c hc
    rw [List.getLast?_append_of_ne_nil _ hne] at hc
    rw [Bool.eq_false_iff]
    intro hspace
    have hc' := hword c (List.mem_of_getLast? hc)
    rw [Text.isWord_of_isSpace hspace] at hc'
    cases hc'
  have htext : Symbol.signatureOf name (.pseudoCommand ps) = ".pseudocommand".toList ++
      ' ' :: (name ++ Text.trimEnd (' ' :: Symbol.parameterList " : " ps)) :=
    (Text.trimEnd_append hfront _).trans (List.append_assoc _ _ _)
  rw [htext]
  refine read?_written hne hword _ _ _ (List.mem_of_getElem? (i := 7) rfl) ?_ ?_
  · -- the first character is the space, if any is left
    intro c hc
    obtain ⟨rest, hrest⟩ : Text.trimEnd (' ' :: Symbol.parameterList " : " ps) <+:
        ' ' :: Symbol.parameterList " : " ps := List.rdropWhile_prefix _ _
    cases htrim : Text.trimEnd (' ' :: Symbol.parameterList " : " ps) with
    | nil =>
      rw [htrim] at hc
      cases hc
    | cons e es =>
      rw [htrim] at hc hrest
      rw [← Option.some.inj hc, (List.cons.inj hrest).1]
      decide
  · rw [operands_written hps]

lemma read?_label : ∃ column, read? (name ++ [':']) = some ⟨false, name, column, .namedLabel⟩ := by
  have hmark : ∀ c ∈ (name ++ [':']).head?, c ≠ '!' ∧ c ≠ '.' ∧ c ≠ '#' := by
    obtain ⟨c, cs, rfl, _, _, hc⟩ := exists_head_of_name hne hword
    rintro e ⟨⟩
    exact hc
  have htail : ∀ c ∈ [':'].head?, Text.isWord c = false := by
    rintro c ⟨⟩
    decide
  rw [read?_eq_label? hmark]
  exact ⟨_, named?_written hne hword htail rfl⟩

/-- A signature is read as the declaration it was written for. -/
theorem read?_signatureOf {kind : SymbolKind} (hkind : kind.ReadFrom d) :
    ∃ column, read? (Symbol.signatureOf name kind) = some ⟨false, name, column, kind⟩ := by
  cases kind with
  | label v =>
    exact read?_assignment hne hword ".label" .label (List.mem_of_getElem? (i := 0) rfl) hkind
  | constant v =>
    exact read?_assignment hne hword ".const" .constant (List.mem_of_getElem? (i := 1) rfl) hkind
  | var v => exact read?_assignment hne hword ".var" .var (List.mem_of_getElem? (i := 2) rfl) hkind
  | flag => exact read?_bare hne hword "#define" .flag (List.mem_of_getElem? (i := 4) rfl)
  | macroDef ps =>
    exact read?_parenthesised hne hword ".macro" .macroDef (List.mem_of_getElem? (i := 5) rfl) hkind
  | function ps =>
    exact read?_parenthesised hne hword ".function" .function (List.mem_of_getElem? (i := 6) rfl)
      hkind
  | pseudoCommand ps => exact read?_pseudoCommand hne hword hkind
  | nameSpace =>
    exact read?_bare hne hword ".namespace" .nameSpace (List.mem_of_getElem? (i := 8) rfl)
  | namedLabel => exact read?_label hne hword
  | parameter p => exact hkind.elim

end Written

lemma feed_notMem_assignment (keyword : String) {name : Text} {v : Option AssignedValue}
    (hkeyword : '\n' ∉ keyword.toList) (hname : '\n' ∉ name) (hd : '\n' ∉ d)
    (hv : ∀ a ∈ v, a.ReadFrom d) : '\n' ∉ Symbol.assignment keyword name v := by
  cases v with
  | none => simp [Symbol.assignment, hkeyword, hname]
  | some a =>
    have ha : '\n' ∉ a.text := fun hmem => hd ((hv a rfl).written hmem)
    simp [Symbol.assignment, hkeyword, hname, ha]

lemma feed_notMem_parameterList (sep : String) {stops : Text} {ps : List Parameter}
    (hsep : '\n' ∉ sep.toList) (hd : '\n' ∉ d) (hps : ∀ p ∈ ps, p.ReadFrom d stops) :
    '\n' ∉ Symbol.parameterList sep ps := by
  intro hmem
  rcases Text.mem_join hmem with hmem | ⟨part, hpart, hmem⟩
  · exact hsep hmem
  · obtain ⟨p, hp, rfl⟩ := List.mem_map.mp hpart
    exact hd ((hps p hp).written hmem)

/-- The signature of what is read from a line is a line. -/
theorem feed_notMem_signatureOf {name : Text} (hword : ∀ c ∈ name, Text.isWord c = true)
    {kind : SymbolKind} (hkind : kind.ReadFrom d) (hd : '\n' ∉ d) :
    '\n' ∉ Symbol.signatureOf name kind := by
  have hname : '\n' ∉ name := fun hmem => absurd (hword _ hmem) (by decide)
  cases kind with
  | label v => exact feed_notMem_assignment ".label" (by decide) hname hd hkind
  | constant v => exact feed_notMem_assignment ".const" (by decide) hname hd hkind
  | var v => exact feed_notMem_assignment ".var" (by decide) hname hd hkind
  | flag =>
    change '\n' ∉ "#define ".toList ++ name
    simp [hname]
  | macroDef ps =>
    have hlist := feed_notMem_parameterList ", " (by decide) hd hkind
    change '\n' ∉ ".macro ".toList ++ name ++ '(' :: Symbol.parameterList ", " ps ++ [')']
    simp [hname, hlist]
  | function ps =>
    have hlist := feed_notMem_parameterList ", " (by decide) hd hkind
    change '\n' ∉ ".function ".toList ++ name ++ '(' :: Symbol.parameterList ", " ps ++ [')']
    simp [hname, hlist]
  | pseudoCommand ps =>
    have hlist := feed_notMem_parameterList " : " (by decide) hd hkind
    intro hmem
    have hwhole := (List.rdropWhile_prefix _ _).subset hmem
    simp [hname, hlist] at hwhole
  | nameSpace =>
    change '\n' ∉ ".namespace ".toList ++ name
    simp [hname]
  | namedLabel =>
    change '\n' ∉ name ++ [':']
    simp [hname]
  | parameter p => exact hkind.elim

/-- Signatures read back. The signature of a symbol with the name and kind of a declaration is
again a declaration of this name and kind, with the same value and the same parameters, and it is
one line if the declaration is one. The name is no longer hoisted. -/
theorem signature_reads_back {d : Text} {x : Declaration} (h : read? d = some x) (s : Symbol)
    (hname : s.name = x.name) (hkind : s.kind = x.kind) :
    (∃ y, read? s.signature = some y ∧ y.name = x.name ∧ y.kind = x.kind ∧ y.hoisted = false) ∧
      ('\n' ∉ d → '\n' ∉ s.signature) := by
  have hspelled := read?_spelled h
  have hread := read?_readFrom h
  rw [Symbol.signature, hname, hkind]
  refine ⟨?_, feed_notMem_signatureOf hspelled.word hread⟩
  obtain ⟨column, hback⟩ := read?_signatureOf hspelled.nonempty hspelled.word hread
  exact ⟨_, hback, rfl, rfl, rfl⟩

/-- A hoisted pseudocommand in capitals, with an empty operand and spaces around the others. -/
def looseText : Text := ".PSEUDOCOMMAND  @mov :src:  : dst \x7b".toList

def looseDeclaration : Declaration :=
  ⟨true, "mov".toList, 17, .pseudoCommand [{ name := "src".toList }, { name := "dst".toList }]⟩

def looseSymbol : Symbol where
  name := looseDeclaration.name
  kind := looseDeclaration.kind
  scope := 0
  lexicalScope := 2
  file := 1
  span := Span.onLine 1 0 17 20
  doc := none
  isGlobal := true
  isMain := true
  isBuiltin := false

theorem signature_reads_back_operands :
    read? looseText = some looseDeclaration ∧
    looseSymbol.signature = ".pseudocommand mov src : dst".toList ∧
    (∃ y, read? looseSymbol.signature = some y ∧ y.name = looseDeclaration.name ∧
      y.kind = looseDeclaration.kind ∧ y.hoisted = false) ∧
    '\n' ∉ looseText ∧ '\n' ∉ looseSymbol.signature := by
  have hread : read? looseText = some looseDeclaration := by decide +kernel
  obtain ⟨hback, hline⟩ := signature_reads_back hread looseSymbol rfl rfl
  have hfeed : '\n' ∉ looseText := by decide
  exact ⟨hread, by decide +kernel, hback, hfeed, hline hfeed⟩

end Declaration

end AsmLens
