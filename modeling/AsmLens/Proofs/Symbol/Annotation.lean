import AsmLens.Proofs.Catalogue.Comments
import AsmLens.Proofs.Symbol.Signature

/-!
# Annotated parameters

A line of documentation that names a parameter behind its keyword is read as a note on that
parameter: it is taken out of the text, and the words behind the name become the description of the
parameter. Nothing else changes. The one exception is a parameter with the name of a kind: there the
word is taken for the kind, and the next word for the name.
-/

namespace AsmLens

namespace Text

/-- A run of characters without white space. -/
def IsRun (w : Text) : Prop := w ≠ [] ∧ ∀ c ∈ w, isSpace c = false

/-- A run of characters that may stand in a name. -/
def IsName (w : Text) : Prop := w ≠ [] ∧ ∀ c ∈ w, isWord c = true

-- the tests walk over the text, and not over all characters there are
instance (w : Text) : Decidable (IsRun w) :=
  @instDecidableAnd _ _ inferInstance (List.decidableBAll _ w)

instance (w : Text) : Decidable (IsName w) :=
  @instDecidableAnd _ _ inferInstance (List.decidableBAll _ w)

lemma IsName.isRun {w : Text} (h : IsName w) : IsRun w := by
  refine ⟨h.1, fun c hc => Bool.eq_false_iff.mpr fun hspace => ?_⟩
  exact absurd ((isWord_of_isSpace hspace).symm.trans (h.2 c hc)) Bool.false_ne_true

lemma words_append_space (s : Text) {c : Char} (hc : isSpace c = true) (t : Text) :
    words (s ++ c :: t) = words s ++ words t := by
  rw [words, words, words, splitBy_eq_splitOnP, splitBy_eq_splitOnP, splitBy_eq_splitOnP,
    List.splitOnP_append_cons s t hc, List.filter_append]

lemma words_of_isRun {w : Text} (h : IsRun w) : words w = [w] := by
  rw [words, splitBy_eq_splitOnP, List.splitOnP_eq_singleton h.2]
  simpa using h.1

/-- The words of joined words are these. -/
theorem words_join {ws : List Text} (h : ∀ w ∈ ws, IsRun w) : words (join [' '] ws) = ws := by
  induction ws with
  | nil => rfl
  | cons w ws ih =>
    have hw : IsRun w := h w List.mem_cons_self
    have hrest := ih fun v hv => h v (List.mem_cons_of_mem w hv)
    by_cases hnil : ws = []
    · rw [hnil, join, List.intercalate_singleton, words_of_isRun hw]
    · rw [join_cons_of_ne_nil hnil, List.append_assoc, List.singleton_append,
        words_append_space w (by decide), words_of_isRun hw, hrest, List.singleton_append]

lemma join_ne_nil {ws : List Text} (hne : ws ≠ []) (h : ∀ w ∈ ws, IsRun w) :
    join [' '] ws ≠ [] := by
  intro hnil
  have hwords := words_join h
  rw [hnil] at hwords
  exact hne hwords.symm

lemma length_join_lt {w : Text} (hw : w ≠ []) (ws : List Text) :
    (join [' '] ws).length < (join [' '] (w :: ws)).length := by
  have hpos : 0 < w.length := List.length_pos_iff.mpr hw
  by_cases hnil : ws = []
  · rw [hnil, join, join, List.intercalate_singleton]
    exact hpos
  · rw [join_cons_of_ne_nil hnil, List.length_append, List.length_append]
    omega

end Text

open Text

namespace ParameterNote

/-! ## Reading a line -/

/-- The spellings of the keyword. -/
def keywords : List Text := ["@param".toList, "@parameter".toList]

/-- The words that are taken for a kind, in any case of their letters. -/
def kindWords : List Text := ["string".toList, "file".toList]

/-- The line that annotates a parameter: a keyword, the name and more words, with spaces between. -/
def written (keyword name : Text) (ws : List Text) : Text := join [' '] (keyword :: name :: ws)

variable {keyword name : Text} {ws : List Text}

lemma body?_append (hkeyword : keyword ∈ keywords) (rest : Text) :
    body? (keyword ++ ' ' :: rest) = some (' ' :: rest) := by
  simp only [keywords, List.mem_cons, List.not_mem_nil, or_false] at hkeyword
  rcases hkeyword with rfl | rfl
  · rfl
  · rfl

lemma isRun_of_mem_keywords (h : keyword ∈ keywords) : IsRun keyword := by
  have hall : ∀ w ∈ keywords, IsRun w := by decide
  exact hall keyword h

/-- A line with a keyword and words is read as its words say: the first one may be that of a kind,
then comes the name. -/
theorem read?_written (hkeyword : keyword ∈ keywords) (hname : IsRun name)
    (hws : ∀ w ∈ ws, IsRun w) :
    read? (written keyword name ws) =
      ofWords? (kindWord? name) (if (kindWord? name).isSome then ws else name :: ws) := by
  have hall : ∀ w ∈ name :: ws, IsRun w := List.forall_mem_cons.mpr ⟨hname, hws⟩
  have hrun : IsRun keyword := isRun_of_mem_keywords hkeyword
  have hline : written keyword name ws = keyword ++ ' ' :: join [' '] (name :: ws) := by
    rw [written, join_cons_of_ne_nil (List.cons_ne_nil name ws), List.append_assoc]
    rfl
  have htrim : trim (written keyword name ws) = keyword ++ ' ' :: join [' '] (name :: ws) := by
    rw [← hline]
    refine trim_eq_self ⟨?_, ?_⟩
    · obtain ⟨c, cs, rfl⟩ := List.exists_cons_of_ne_nil hrun.1
      rw [hline]
      exact (trimmed_of_forall hrun.2).1
    · refine noTrailing_join fun w hw => ?_
      have hw : IsRun w := (List.mem_cons.mp hw).elim (· ▸ hrun) (hall w)
      exact ⟨hw.1, (trimmed_of_forall hw.2).2⟩
  have hwords : words (' ' :: join [' '] (name :: ws)) = name :: ws :=
    (words_append_space [] (by decide) _).trans (words_join hall)
  have hspace : ∀ rest, ((' ' :: rest).isEmpty || ((' ' :: rest).head?.map isSpace).getD false) =
      true := fun _ => rfl
  rw [read?, htrim, body?_append hkeyword]
  simp only [hspace, if_true, hwords]
  cases kindWord? name with
  | some kind => rfl
  | none => rfl

lemma kindWord?_eq_none_iff {w : Text} : kindWord? w = none ↔ lower w ∉ kindWords := by
  rw [kindWord?, kindWords]
  split_ifs <;> simp_all

/-- A name has no brackets. -/
lemma bareName_of_isName (h : IsName name) : bareName name = (name, false) := by
  have hnone : after? ['['] name = none := by
    rw [Option.eq_none_iff_forall_ne_some]
    intro rest hrest
    have hbracket : isWord '[' = true := h.2 '[' (after?_eq_some_iff.mp hrest ▸ List.mem_cons_self)
    exact absurd hbracket (by decide +kernel)
  rw [bareName, hnone]
  rfl

/-- A name that is no kind word stands for itself, and what follows is the description. -/
theorem read?_written_of_name (hkeyword : keyword ∈ keywords) (hname : IsName name)
    (hkind : kindWord? name = none) (hne : ws ≠ []) (hws : ∀ w ∈ ws, IsRun w) :
    read? (written keyword name ws) = some ⟨name, none, false, some (join [' '] ws)⟩ := by
  have hdescription : ¬ (join [' '] ws).isEmpty = true := by simpa using join_ne_nil hne hws
  rw [read?_written hkeyword hname.isRun hws, hkind]
  simp [ofWords?, bareName_of_isName hname, hdescription]

/-- The description that words give is not longer than what stands behind the first of them. -/
lemma description_of_ofWords? {kind : Option ParameterKind} {w d : Text} {a : ParameterNote}
    (h : ofWords? kind (w :: ws) = some a) (hd : a.description = some d) : d = join [' '] ws := by
  cases h
  simp only [Option.ite_none_left_eq_some, Option.some.injEq] at hd
  exact hd.2.symm

/-! ## Folding a note in -/

variable {a : ParameterNote} {ps : List Parameter} {i : Nat}

/-- A note on a parameter changes this one. -/
theorem apply_eq_modify (hnames : (ps.map (·.name)).Nodup)
    (hname : (ps.map (·.name))[i]? = some a.name) : a.apply ps = ps.modify i a.merge := by
  induction ps generalizing i with
  | nil => cases hname
  | cons p ps ih =>
    obtain ⟨hfirst, hrest⟩ := List.nodup_cons.mp hnames
    cases i with
    | zero =>
      have heq : p.name = a.name := Option.some.inj hname
      rw [apply, if_pos heq]
      rfl
    | succ i =>
      have hneq : p.name ≠ a.name := by
        intro heq
        have hmem : a.name ∈ ps.map (·.name) := List.mem_of_getElem? hname
        rw [← heq] at hmem
        exact hfirst hmem
      rw [apply, if_neg hneq, ih hrest hname]
      rfl

/-- A note leaves each parameter alone or is merged into it. -/
lemma getElem?_apply (a : ParameterNote) {q : Parameter} (h : (a.apply ps)[i]? = some q) :
    ∃ p, ps[i]? = some p ∧ (q = p ∨ q = a.merge p) := by
  induction ps generalizing i with
  | nil => cases h
  | cons p ps ih =>
    rw [apply] at h
    split at h
    · cases i with
      | zero => exact ⟨p, rfl, Or.inr (Option.some.inj h).symm⟩
      | succ i => exact ⟨q, h, Or.inl rfl⟩
    · cases i with
      | zero => exact ⟨p, rfl, Or.inl (Option.some.inj h).symm⟩
      | succ i => exact ih h

end ParameterNote

namespace Doc

open ParameterNote

/-! ## Lines of a comment -/

/-- A note folded in between others. -/
lemma annotate_append {line : Text} {a : ParameterNote} (hread : read? line = some a)
    (style : DocStyle) (before after : List Text) (ps : List Parameter) :
    annotate ⟨style, before ++ line :: after⟩ ps =
      annotate ⟨style, after⟩ (a.apply (annotate ⟨style, before⟩ ps)) := by
  simp only [annotate, notes, List.filterMap_append, List.filterMap_cons, hread, List.foldl_append,
    List.foldl_cons]

/-- A note is no part of the text. -/
lemma text?_append {line : Text} {a : ParameterNote} (hread : read? line = some a)
    (style : DocStyle) (before after : List Text) :
    text? ⟨style, before ++ line :: after⟩ = text? ⟨style, before ++ after⟩ := by
  have hprose : prose ⟨style, before ++ line :: after⟩ = prose ⟨style, before ++ after⟩ := by
    simp [prose, hread]
  rw [text?, text?, hprose]

lemma map_name_annotate (d : Doc) (ps : List Parameter) :
    (d.annotate ps).map (·.name) = ps.map (·.name) := by
  have hnames := congrArg (List.map (·.name)) (d.map_undocumented_annotate ps)
  rwa [List.map_map, List.map_map] at hnames

variable {keyword : Text} {ps : List Parameter} {i : Nat} {p : Parameter}

section Line

variable {ws : List Text} (hkeyword : keyword ∈ keywords) (hname : IsName p.name)
  (hws : ∀ w ∈ ws, IsRun w)

include hkeyword hname hws

/-- The line for a parameter is a note, whatever its name. -/
lemma exists_read?_written (hne : ws ≠ []) : ∃ a, read? (written keyword p.name ws) = some a := by
  obtain ⟨w, rest, rfl⟩ := List.exists_cons_of_ne_nil hne
  rw [read?_written hkeyword hname.isRun hws]
  split
  · exact ⟨_, rfl⟩
  · exact ⟨_, rfl⟩

/-- The line for a parameter describes it, between other lines. -/
theorem annotate_written (hne : ws ≠ []) (hnames : (ps.map (·.name)).Nodup) (hp : ps[i]? = some p)
    (hkind : kindWord? p.name = none) (style : DocStyle) (before after : List Text) :
    annotate ⟨style, before ++ written keyword p.name ws :: after⟩ ps =
      annotate ⟨style, after⟩ ((annotate ⟨style, before⟩ ps).modify i
        fun q => { q with description := some (join [' '] ws) }) := by
  have hnote := read?_written_of_name hkeyword hname hkind hne hws
  have hplace : (ps.map (·.name))[i]? = some p.name := by
    rw [List.getElem?_map, hp]
    rfl
  -- the lines in front leave the names of the parameters as they are
  have hkept := map_name_annotate ⟨style, before⟩ ps
  rw [annotate_append hnote, apply_eq_modify (hkept ▸ hnames) (hkept ▸ hplace)]
  congr 2
  funext q
  simp [merge]

/-- A kind word for a name is taken for the kind, and the description loses its first word. -/
theorem annotate_written_of_kind (hne : ws ≠ []) {kind : ParameterKind}
    (hkind : kindWord? p.name = some kind) (hp : ps[i]? = some p)
    (hother : p.description ≠ some (join [' '] ws)) (style : DocStyle) {q : Parameter}
    (hq : (annotate ⟨style, [written keyword p.name ws]⟩ ps)[i]? = some q) :
    q.description ≠ some (join [' '] ws) := by
  obtain ⟨a, ha⟩ := exists_read?_written hkeyword hname hws hne
  have hline : annotate ⟨style, [written keyword p.name ws]⟩ ps = a.apply ps :=
    annotate_append ha style [] [] ps
  rw [hline] at hq
  obtain ⟨p', hp', hcases⟩ := getElem?_apply a hq
  cases hp.symm.trans hp'
  rcases hcases with rfl | rfl
  · exact hother
  · rw [read?_written hkeyword hname.isRun hws, hkind] at ha
    obtain ⟨w, rest, rfl⟩ := List.exists_cons_of_ne_nil hne
    cases hd : a.description with
    | none =>
      rw [merge, hd]
      exact hother
    | some d =>
      have hrest : d = join [' '] rest := description_of_ofWords? ha hd
      have hshorter := length_join_lt (hws w List.mem_cons_self).1 rest
      intro heq
      rw [merge, hd, hrest] at heq
      rw [← Option.some.inj heq] at hshorter
      exact lt_irrefl _ hshorter

end Line

/-- A line on a parameter describes it. In a comment, the line for a parameter whose name is a word,
but no kind word, gives that parameter its words as the description and changes nothing else about
the parameters, wherever in the comment it stands, and it is no part of the text. With a kind word
for a name the line is no part of the text either, but it does not give this description. -/
theorem annotation_describes_parameter (hkeyword : keyword ∈ keywords)
    (hnames : (ps.map (·.name)).Nodup) (hp : ps[i]? = some p) (hname : IsName p.name)
    (ws : List Text) (hne : ws ≠ []) (hws : ∀ w ∈ ws, IsRun w) (style : DocStyle) :
    (lower p.name ∉ kindWords →
      annotate ⟨style, [written keyword p.name ws]⟩ ps =
        ps.set i { p with description := some (join [' '] ws) } ∧
      ∀ before after, annotate ⟨style, before ++ written keyword p.name ws :: after⟩ ps =
        annotate ⟨style, after⟩ ((annotate ⟨style, before⟩ ps).modify i
          fun q => { q with description := some (join [' '] ws) })) ∧
    (∀ before after, text? ⟨style, before ++ written keyword p.name ws :: after⟩ =
      text? ⟨style, before ++ after⟩) ∧
    (lower p.name ∈ kindWords → p.description ≠ some (join [' '] ws) → ∀ q,
      (annotate ⟨style, [written keyword p.name ws]⟩ ps)[i]? = some q →
        q.description ≠ some (join [' '] ws)) := by
  refine ⟨?_, ?_, ?_⟩
  · intro hkind
    have hline := annotate_written hkeyword hname hws hne hnames hp
      (kindWord?_eq_none_iff.mpr hkind) style
    refine ⟨(hline [] []).trans ?_, hline⟩
    refine (List.modify_eq_set_getElem? _ i ps).trans ?_
    rw [hp]
    rfl
  · intro before after
    obtain ⟨a, ha⟩ := exists_read?_written hkeyword hname hws hne
    exact text?_append ha style before after
  · intro hkind hother q hq
    obtain ⟨kind, hsome⟩ := Option.ne_none_iff_exists'.mp
      fun hnone => kindWord?_eq_none_iff.mp hnone hkind
    exact annotate_written_of_kind hkeyword hname hws hne hsome hp hother style hq

/-- The parameters of a macro, the last one with the name of a kind. -/
def copyParameters : List Parameter :=
  [{ name := "to".toList }, { name := "size".toList, isOptional := true },
    { name := "file".toList }]

theorem annotation_describes_parameter_copy :
    annotate ⟨.block, ["@parameter size  bytes".toList, "Copies.".toList,
        "@param size number of bytes".toList]⟩ copyParameters =
      copyParameters.set 1 { copyParameters[1] with
        description := some "number of bytes".toList } ∧
    text? ⟨.block, ["Copies.".toList, "@param size number of bytes".toList]⟩ =
      some "Copies.".toList ∧
    ∀ q, (annotate ⟨.block, ["@param file to read".toList]⟩ copyParameters)[2]? = some q →
      q.description ≠ some "to read".toList := by
  have hnames : (copyParameters.map (·.name)).Nodup := by decide
  have hkeyword : "@param".toList ∈ keywords := List.mem_cons_self
  obtain ⟨hsize, htext, -⟩ := annotation_describes_parameter (i := 1) hkeyword hnames rfl
    (by decide +kernel) ["number".toList, "of".toList, "bytes".toList] (by decide)
    (by decide +kernel) .block
  obtain ⟨-, -, hfile⟩ := annotation_describes_parameter (i := 2) hkeyword hnames rfl
    (by decide +kernel) ["to".toList, "read".toList] (by decide) (by decide +kernel) .block
  have hline := (hsize (by decide)).2 ["@parameter size  bytes".toList, "Copies.".toList] []
  refine ⟨hline.trans ?_, (htext ["Copies.".toList] []).trans ?_, hfile (by decide) (by decide)⟩
  · decide +kernel
  · decide +kernel

/-- A parameter with the name of a kind is not described by the line that names it: what the line
says goes to another one. -/
theorem kind_word_not_described :
    annotate ⟨.block, ["@param file to read".toList]⟩ copyParameters =
      [{ name := "to".toList, kind := .file, description := some "read".toList },
        { name := "size".toList, isOptional := true }, { name := "file".toList }] := by
  decide +kernel

end Doc

end AsmLens
