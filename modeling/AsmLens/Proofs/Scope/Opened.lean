import AsmLens.Proofs.Scope.Survey
import Mathlib.Order.Interval.Set.Basic

/-!
# The scope that a declaration opens

A line with a declaration and an opening brace that no closing brace precedes opens one scope, which
has the name and kind of the declaration and stands in the scope in which the line starts. The scope
is found again by its five marks, because no scope of the file with an earlier number lies on the
line or below it.
-/

namespace AsmLens.Scope

/-- An opening brace stands in the text, and no closing brace in front of it. -/
def OpensBlock (bare : Text) : Prop := ∃ front back, bare = front ++ '\x7b' :: back ∧ '\x7d' ∉ front

namespace Walk

variable {file number : Nat} {w : Walk} {bare : Text}

lemma find?_brace (h : OpensBlock bare) :
    bare.find? (fun c => c == '\x7b' || c == '\x7d') = some '\x7b' := by
  obtain ⟨front, back, rfl, hfront⟩ := h
  induction front with
  | nil => rfl
  | cons c cs ih =>
    have hclose : c ≠ '\x7d' := fun hc => hfront (hc ▸ List.mem_cons_self)
    have hrest := ih fun hmem => hfront (List.mem_cons_of_mem c hmem)
    by_cases hopen : c = '\x7b'
    · rw [hopen]
      rfl
    · rw [List.cons_append, List.find?_cons_of_neg (by simp [hopen, hclose])]
      exact hrest

lemma ofLine_of_opensBlock (h : OpensBlock bare) :
    (Braces.ofLine bare).closesFirst = false ∧ (Braces.ofLine bare).opens = true := by
  have hline : Braces.ofLine bare = if '\x7d' ∈ bare then .openFirst else .onlyOpen := by
    simp only [Braces.ofLine, find?_brace h]
  rw [hline]
  split
  · exact ⟨rfl, rfl⟩
  · exact ⟨rfl, rfl⟩

/-- The scope that such a line opens. -/
theorem forest_step_of_opening {o : Opening} (hopening : Opening.ofLine? bare = some o)
    (h : OpensBlock bare) :
    (w.step file number bare).forest =
      w.forest.add ⟨w.current, o.name, o.kind, number, file⟩ := by
  obtain ⟨hcloses, hopens⟩ := ofLine_of_opensBlock h
  have hleft : (w.takeUp bare).leaveFirst bare = w.takeUp bare := by
    rw [leaveFirst, hcloses, if_neg Bool.false_ne_true]
  have hpending : (w.takeUp bare).pending = some o := by
    rw [takeUp, hopening]
    rfl
  rw [step_eq, forest_leaveLast, hleft, enterNext, hopens, Bool.true_or, if_pos rfl, enter,
    hpending]
  rfl

/-- Every row starts where the walk stands, and its line is the next step of the walk. -/
theorem exists_step_of_row (hw : w.Sound file number) {lines : List (Text × Text)} {i : Nat}
    {row : Row} (h : (rows file number w lines).1[i]? = some row) :
    ∃ v : Walk, v.Sound file (number + i) ∧ v.current = row.scope ∧
      w.forest.nodes <+: v.forest.nodes ∧
      (v.step file (number + i) row.bare).forest.nodes <+:
        (rows file number w lines).2.forest.nodes := by
  induction lines generalizing number w i with
  | nil => cases h
  | cons line rest ih =>
    cases i with
    | zero =>
      cases h
      exact ⟨w, hw, rfl, List.prefix_rfl, nodes_isPrefix_rows file (number + 1) _ rest⟩
    | succ i =>
      obtain ⟨v, hsound, hcurrent, hbefore, hbehind⟩ := ih (hw.step line.2) h
      have hstep : w.forest.nodes <+: (w.step file number line.2).forest.nodes :=
        nodes_isPrefix_rows file number w [line]
      have hnumber : number + (i + 1) = number + 1 + i := by omega
      rw [hnumber]
      exact ⟨v, hsound, hcurrent, hstep.trans hbefore, hbehind⟩

end Walk

/-- A survey opens its scopes in the order of their lines. -/
theorem line_lt_of_opened {start f : Forest} {s : Sheet}
    (hgrown : (survey start s.file s.text s.comments).2.nodes <+: f.nodes) {a b : Nat} {n m : Node}
    (ha : start.size ≤ a) (hab : a < b) (hb : b < (survey start s.file s.text s.comments).2.size)
    (hn : f.node? a = some n) (hm : f.node? b = some m) : n.line < m.line := by
  obtain ⟨opened, hnodes, _, hlines⟩ := Walk.rows_opened s.file 0 (.ofForest start) s.lines
  have hstart : start.size = start.nodes.length + 1 := rfl
  have hsize : (survey start s.file s.text s.comments).2.size =
      start.nodes.length + opened.length + 1 := by
    rw [Forest.size, ← List.length_append]
    exact congrArg (List.length · + 1) hnodes
  have hopened : ∀ {id : Nat} {k : Node}, start.size ≤ id →
      id < (survey start s.file s.text s.comments).2.size → f.node? id = some k →
      opened[id - start.size]? = some k := by
    intro id k hle hlt hk
    obtain ⟨k', hk'⟩ := Forest.exists_node? (by omega) hlt
    cases hk.symm.trans (Forest.node?_of_isPrefix hgrown hk')
    obtain ⟨i, rfl⟩ : ∃ i, id = i + 1 := ⟨id - 1, by omega⟩
    have hget : (start.nodes ++ opened)[i]? = some k := hnodes ▸ hk'
    rw [List.getElem?_append_right (by omega)] at hget
    rw [hstart, Nat.add_sub_add_right]
    exact hget
  obtain ⟨hi, hni⟩ := List.getElem?_eq_some_iff.mp (hopened ha (by omega) hn)
  obtain ⟨hj, hmj⟩ := List.getElem?_eq_some_iff.mp (hopened (by omega) hb hm)
  have hlt := List.pairwise_iff_getElem.mp hlines _ _ hi hj (by omega)
  rwa [hni, hmj] at hlt

/-- The scopes of a project stand in the files that were surveyed. -/
lemma exists_sheet_of_mem_nodes {f : Forest} {sheets : List Sheet} {n : Node}
    (h : n ∈ (surveyAll f sheets).2.nodes) : n ∈ f.nodes ∨ ∃ s ∈ sheets, n.file = s.file := by
  induction sheets generalizing f with
  | nil => exact Or.inl h
  | cons s sheets ih =>
    rw [surveyAll_cons] at h
    rcases ih h with hmem | ⟨t, ht, hfile⟩
    · obtain ⟨opened, hnodes, hmark, _⟩ := Walk.rows_opened s.file 0 (.ofForest f) s.lines
      rw [survey_eq, hnodes] at hmem
      rcases List.mem_append.mp hmem with hold | hopened
      · exact Or.inl hold
      · exact Or.inr ⟨s, List.mem_cons_self, (hmark n hopened).1⟩
    · exact Or.inr ⟨t, List.mem_cons_of_mem s ht, hfile⟩

/-! ## The search for a scope -/

namespace Forest

variable {f : Forest}

theorem mem_of_earliest {nodes : List (Node × Nat)} {e : Node × Nat}
    (h : earliest nodes = some e) : e ∈ nodes := by
  induction nodes with
  | nil => cases h
  | cons first rest ih =>
    rw [earliest] at h
    split at h
    · cases h
      exact List.mem_cons_self
    · rename_i best hbest
      split at h
      · cases h
        exact List.mem_cons_self
      · cases h
        exact List.mem_cons_of_mem first (ih hbest)

lemma earliest_cons {e : Node × Nat} {rest : List (Node × Nat)}
    (h : ∀ e' ∈ rest, e.1.line ≤ e'.1.line) : earliest (e :: rest) = some e := by
  rw [earliest]
  cases hbest : earliest rest with
  | none => rfl
  | some best => exact if_pos (h best (mem_of_earliest hbest))

theorem node?_of_mem_numbered {n : Node} {id : Nat} (h : (n, id) ∈ f.numbered) :
    f.node? id = some n := by
  obtain ⟨i, hi⟩ := List.mem_iff_getElem?.mp h
  rw [getElem?_numbered] at hi
  obtain ⟨m, hm, heq⟩ := Option.map_eq_some_iff.mp hi
  cases heq
  exact hm

/-- A scope that is found has the marks that were looked for. -/
theorem node?_of_openedBy {file parent line id : Nat} {name : Text} {kind : Kind}
    (h : f.openedBy file parent name kind line = some id) :
    ∃ n, f.node? id = some n ∧ n.file = file ∧ n.kind = kind ∧ n.parent = parent ∧
      n.name = name ∧ line ≤ n.line := by
  obtain ⟨⟨n, _⟩, hearliest, rfl⟩ := Option.map_eq_some_iff.mp h
  obtain ⟨hmem, hmatch⟩ := List.mem_filter.mp (mem_of_earliest hearliest)
  simp only [Bool.and_eq_true, beq_iff_eq, decide_eq_true_eq] at hmatch
  obtain ⟨⟨⟨⟨hfile, hkind⟩, hparent⟩, hname⟩, hline⟩ := hmatch
  exact ⟨n, node?_of_mem_numbered hmem, hfile, hkind, hparent, hname, hline⟩

/-- A scope is found by its marks when no earlier scope of its file lies on its line or below. -/
theorem openedBy_eq {id : Nat} {n : Node} (hn : f.node? id = some n)
    (hfirst : ∀ a m, a < id → f.node? a = some m → m.file = n.file → m.line < n.line) :
    f.openedBy n.file n.parent n.name n.kind n.line = some id := by
  cases id with
  | zero => cases hn
  | succ i =>
    have hget : f.numbered[i]? = some (n, i + 1) := by
      rw [getElem?_numbered, hn]
      rfl
    obtain ⟨hlt, hi⟩ := List.getElem?_eq_some_iff.mp hget
    have hsplit : f.numbered = f.numbered.take i ++ (n, i + 1) :: f.numbered.drop (i + 1) := by
      rw [← hi, ← List.drop_eq_getElem_cons hlt, List.take_append_drop]
    have hearlier : ∀ e ∈ f.numbered.take i, e.1.file = n.file → ¬n.line ≤ e.1.line := by
      intro e he hfile
      obtain ⟨j, hj, rfl⟩ := List.mem_take_iff_getElem.mp he
      have hej := List.getElem?_eq_getElem (Nat.lt_of_lt_of_le hj (Nat.min_le_right _ _))
      rw [getElem?_numbered] at hej
      obtain ⟨m, hm, hpair⟩ := Option.map_eq_some_iff.mp hej
      rw [← hpair] at hfile ⊢
      exact Nat.not_le_of_lt (hfirst (j + 1) m (by omega) hm hfile)
    rw [openedBy, hsplit, List.filter_append, List.filter_eq_nil_iff.mpr ?_, List.nil_append,
      List.filter_cons_of_pos (by simp), earliest_cons ?_]
    · rfl
    · intro e he
      have hmatch := (List.mem_filter.mp he).2
      simp only [Bool.and_eq_true, decide_eq_true_eq] at hmatch
      exact hmatch.2
    · intro e he hmatch
      simp only [Bool.and_eq_true, beq_iff_eq, decide_eq_true_eq] at hmatch
      exact hearlier e he hmatch.1.1.1.1 hmatch.2

end Forest

/-- The scope `id` is the only one that the survey between two forests has opened on the line of
`n`. In the forest `f` it is `n`, and it is found there by the marks of `n`. -/
structure OpenedAs (start behind f : Forest) (n : Node) (id : Nat) : Prop where
  opened : id ∈ Set.Ico start.size behind.size
  node : f.node? id = some n
  only : ∀ other ∈ Set.Ico start.size behind.size, ∀ m, f.node? other = some m →
    m.line = n.line → other = id
  found : f.openedBy n.file n.parent n.name n.kind n.line = some id

theorem survey_openedAs {start f : Forest} (hstart : start.Ordered) {s : Sheet}
    (hgrown : (survey start s.file s.text s.comments).2.nodes <+: f.nodes)
    (hothers : ∀ n ∈ start.nodes, n.file ≠ s.file) {line : Nat} {row : Row} {o : Opening}
    (hrow : (survey start s.file s.text s.comments).1.row? line = some row)
    (hopening : Opening.ofLine? row.bare = some o) (hblock : OpensBlock row.bare) :
    ∃ id, OpenedAs start (survey start s.file s.text s.comments).2 f
      ⟨row.scope, o.name, o.kind, line, s.file⟩ id := by
  obtain ⟨v, hsound, hcurrent, hbefore, hbehind⟩ :=
    Walk.exists_step_of_row (Walk.Sound.start hstart s.file 0) hrow
  rw [Nat.zero_add, Walk.forest_step_of_opening hopening hblock, hcurrent] at hbehind
  have hnode : (survey start s.file s.text s.comments).2.node? v.forest.size =
      some ⟨row.scope, o.name, o.kind, line, s.file⟩ := by
    refine Forest.node?_of_isPrefix hbehind ?_
    rw [Forest.node?_add_size, hsound.attached_eq hcurrent.symm]
  have hle : start.size ≤ v.forest.size := Forest.size_le_of_isPrefix hbefore
  have hlt := Forest.node?_lt_size hnode
  have hf := Forest.node?_of_isPrefix hgrown hnode
  refine ⟨v.forest.size, ⟨hle, hlt⟩, hf, ?_, Forest.openedBy_eq hf ?_⟩
  · rintro other ⟨hother, hotherlt⟩ m hm hline
    rcases Nat.lt_trichotomy other v.forest.size with hsmall | heq | hlarge
    · have := line_lt_of_opened hgrown hother hsmall hlt hm hf
      omega
    · exact heq
    · have := line_lt_of_opened hgrown hle hlarge hotherlt hf hm
      omega
  · intro a m ha hm hfile
    by_cases hold : a < start.size
    · obtain ⟨m', hm'⟩ := Forest.exists_node? (Forest.ne_zero_of_node? hm) hold
      have hkept : start.nodes <+: f.nodes :=
        (Walk.nodes_isPrefix_rows s.file 0 (.ofForest start) s.lines).trans hgrown
      cases hm.symm.trans (Forest.node?_of_isPrefix hkept hm')
      exact absurd hfile (hothers m (Forest.mem_nodes_of_node? hm'))
    · exact line_lt_of_opened hgrown (Nat.le_of_not_lt hold) ha hlt hm hf

end AsmLens.Scope
