import AsmLens.Proofs.Scope.Forest
import AsmLens.Scope.Survey

/-!
# The stack of open scopes

While a file is surveyed, the stack of open scopes with the global scope under it is the walk
outwards from the innermost one. A line takes up its declaration, leaves a scope, opens one and leaves
one again, each at most once, and the stack is a walk behind each of these phases, however the braces
stand. From this follows where the scopes of the rows and the new nodes of the forest lie.
-/

namespace AsmLens.Scope

namespace Walk

/-- The declaration of a line waits for a brace. -/
def takeUp (bare : Text) (w : Walk) : Walk :=
  { w with pending := Opening.ofLine? bare <|> w.pending }

/-- A closing brace in front leaves a scope. -/
def leaveFirst (bare : Text) (w : Walk) : Walk :=
  if (Braces.ofLine bare).closesFirst then w.close else w

/-- An opening brace or a file namespace opens a scope. -/
def enterNext (file number : Nat) (bare : Text) (w : Walk) : Walk :=
  if (Braces.ofLine bare).opens || Opening.isFileNamespace bare then w.enter file number else w

/-- A closing brace behind an opening one leaves the scope again. -/
def leaveLast (bare : Text) (w : Walk) : Walk :=
  if Braces.ofLine bare = .openFirst then w.close else w

theorem step_eq (file number : Nat) (w : Walk) (bare : Text) :
    w.step file number bare =
      (((w.takeUp bare).leaveFirst bare).enterNext file number bare).leaveLast bare := rfl

/-- The walks at the starts of the lines. -/
def starts (file : Nat) : Nat → Walk → List (Text × Text) → List Walk
  | _, _, [] => []
  | number, w, (_, bare) :: rest => w :: starts file (number + 1) (w.step file number bare) rest

/-- The walk before a line and behind each of its phases. -/
def phases (file number : Nat) (w : Walk) (bare : Text) : List Walk :=
  [w, w.takeUp bare, (w.takeUp bare).leaveFirst bare,
    ((w.takeUp bare).leaveFirst bare).enterNext file number bare, w.step file number bare]

/-- The walk at every moment of a survey. -/
def trace (file : Nat) : Nat → Walk → List (Text × Text) → List Walk
  | _, w, [] => [w]
  | number, w, (_, bare) :: rest =>
    w.phases file number bare ++ trace file (number + 1) (w.step file number bare) rest

/-- What holds of the walk through a file at every moment up to a line. -/
structure Sound (file number : Nat) (w : Walk) : Prop where
  ordered : w.forest.Ordered
  chain : w.stack ++ [0] = w.forest.ancestors w.current
  opened : ∀ id ∈ w.stack, ∃ n, w.forest.node? id = some n ∧ n.file = file ∧ n.line < number

variable {file number : Nat} {w : Walk}

lemma Sound.start {f : Forest} (hf : f.Ordered) (file number : Nat) :
    Sound file number ⟨f, [], none⟩ where
  ordered := hf
  chain := (Forest.ancestors_zero f).symm
  opened := fun _ h => by cases h

lemma Sound.mono (h : w.Sound file number) {later : Nat} (hle : number ≤ later) :
    w.Sound file later where
  ordered := h.ordered
  chain := h.chain
  opened := fun id hid => by
    obtain ⟨n, hn, hfile, hline⟩ := h.opened id hid
    exact ⟨n, hn, hfile, Nat.lt_of_lt_of_le hline hle⟩

/-- The innermost scope is the global one or on the stack. -/
lemma current_cases (w : Walk) : w.current = 0 ∨ w.current ∈ w.stack := by
  unfold current
  cases w.stack with
  | nil => exact Or.inl rfl
  | cons id rest => exact Or.inr List.mem_cons_self

lemma Sound.current_lt (h : w.Sound file number) : w.current < w.forest.size := by
  rcases w.current_cases with hzero | hmem
  · rw [hzero]
    exact Nat.succ_pos _
  · obtain ⟨n, hn, _⟩ := h.opened _ hmem
    exact Forest.node?_lt_size hn

/-- The innermost scope is one of the forest, so that a scope opened in it is attached there and
never to the global scope in its place. -/
lemma Sound.attached_eq (h : w.Sound file number) {n : Node} (hn : n.parent = w.current) :
    w.forest.attached n = n :=
  Forest.attached_eq (hn ▸ h.current_lt)

lemma Sound.close (h : w.Sound file number) : w.close.Sound file number := by
  refine ⟨h.ordered, ?_, fun id hid => h.opened id (List.mem_of_mem_tail hid)⟩
  have hchain := h.chain
  have hopened := h.opened
  rcases w with ⟨forest, stack, pending⟩
  cases stack with
  | nil => exact hchain
  | cons id rest =>
    obtain ⟨n, hn, _⟩ := hopened id List.mem_cons_self
    have htail : rest ++ [0] = forest.ancestors n.parent := by
      have hknown := Forest.ancestors_known h.ordered hn
      exact (List.cons.inj (hchain.trans hknown)).2
    have hparent : n.parent = rest.headD 0 := by
      have hhead := Forest.head?_ancestors forest n.parent
      rw [← htail] at hhead
      cases rest with
      | nil => exact (Option.some.inj hhead).symm
      | cons outer _ => exact (Option.some.inj hhead).symm
    rw [hparent] at htail
    exact htail

lemma Sound.enter (h : w.Sound file number) : (w.enter file number).Sound file (number + 1) := by
  have hlt := h.current_lt
  refine ⟨h.ordered.add _, ?_, ?_⟩
  · have hadd := Forest.ancestors_add_size h.ordered
      (n := ⟨w.current, (w.pending.getD Opening.anonymous).name,
        (w.pending.getD Opening.anonymous).kind, number, file⟩) hlt
    rw [← h.chain] at hadd
    exact hadd.symm
  · intro id hid
    rcases List.mem_cons.mp hid with rfl | hid
    · exact ⟨_, Forest.node?_add_size _ _, rfl, Nat.lt_succ_self number⟩
    · obtain ⟨n, hn, hfile, hline⟩ := h.opened id hid
      exact ⟨n, Forest.node?_of_isPrefix (Forest.nodes_isPrefix_add _ _) hn, hfile,
        Nat.lt_succ_of_lt hline⟩

lemma Sound.takeUp (h : w.Sound file number) (bare : Text) :
    (w.takeUp bare).Sound file number := ⟨h.ordered, h.chain, h.opened⟩

lemma Sound.leaveFirst (h : w.Sound file number) (bare : Text) :
    (w.leaveFirst bare).Sound file number := by
  unfold Walk.leaveFirst
  split
  · exact h.close
  · exact h

lemma Sound.enterNext (h : w.Sound file number) (bare : Text) :
    (w.enterNext file number bare).Sound file (number + 1) := by
  unfold Walk.enterNext
  split
  · exact h.enter
  · exact h.mono (Nat.le_succ number)

lemma Sound.leaveLast (h : w.Sound file number) (bare : Text) :
    (w.leaveLast bare).Sound file number := by
  unfold Walk.leaveLast
  split
  · exact h.close
  · exact h

theorem Sound.step (h : w.Sound file number) (bare : Text) :
    (w.step file number bare).Sound file (number + 1) := by
  rw [step_eq]
  exact (((h.takeUp bare).leaveFirst bare).enterNext bare).leaveLast bare

/-- The walk is sound before a line and behind each of its phases. -/
theorem Sound.phases (h : w.Sound file number) (bare : Text) :
    ∀ v ∈ w.phases file number bare, v.Sound file (number + 1) := by
  have later := Nat.le_succ number
  have left := (h.takeUp bare).leaveFirst bare
  intro v hv
  simp only [Walk.phases, List.mem_cons, List.not_mem_nil, or_false] at hv
  rcases hv with rfl | rfl | rfl | rfl | rfl
  · exact h.mono later
  · exact (h.takeUp bare).mono later
  · exact left.mono later
  · exact left.enterNext bare
  · exact h.step bare

/-- The walk is sound at every moment of a survey. -/
theorem Sound.trace (h : w.Sound file number) (lines : List (Text × Text)) :
    ∀ v ∈ w.trace file number lines, v.Sound file (number + lines.length) := by
  induction lines generalizing number w with
  | nil =>
    intro v hv
    rw [List.mem_singleton.mp hv]
    exact h
  | cons line rest ih =>
    intro v hv
    have hlength : number + (line :: rest).length = number + 1 + rest.length := by
      rw [List.length_cons]
      omega
    rw [hlength]
    rcases List.mem_append.mp hv with hv | hv
    · exact (h.phases line.2 v hv).mono (Nat.le_add_right _ _)
    · exact ih (h.step line.2) v hv

/-! ## The forest behind a line -/

lemma forest_leaveFirst (bare : Text) (w : Walk) : (w.leaveFirst bare).forest = w.forest := by
  unfold leaveFirst
  split <;> rfl

lemma forest_leaveLast (bare : Text) (w : Walk) : (w.leaveLast bare).forest = w.forest := by
  unfold leaveLast
  split <;> rfl

lemma forest_enter (file number : Nat) (w : Walk) :
    ∃ n : Node, (w.enter file number).forest.nodes = w.forest.nodes ++ [n] ∧ n.file = file ∧
      n.line = number :=
  ⟨w.forest.attached ⟨w.current, (w.pending.getD Opening.anonymous).name,
    (w.pending.getD Opening.anonymous).kind, number, file⟩, rfl, rfl, rfl⟩

/-- A line opens at most one scope, and that scope is marked with the line. -/
theorem forest_step (file number : Nat) (w : Walk) (bare : Text) :
    (w.step file number bare).forest = w.forest ∨
      ∃ n : Node, (w.step file number bare).forest.nodes = w.forest.nodes ++ [n] ∧
        n.file = file ∧ n.line = number := by
  rw [step_eq, forest_leaveLast]
  have hleft : ((w.takeUp bare).leaveFirst bare).forest = w.forest := forest_leaveFirst bare _
  unfold enterNext
  split
  · obtain ⟨n, hforest, hfile, hline⟩ :=
      forest_enter file number ((w.takeUp bare).leaveFirst bare)
    exact Or.inr ⟨n, hleft ▸ hforest, hfile, hline⟩
  · exact Or.inl hleft

/-- The scopes that a file opens stand behind all others, in the order of their lines. -/
theorem rows_opened (file number : Nat) (w : Walk) (lines : List (Text × Text)) :
    ∃ opened, (rows file number w lines).2.forest.nodes = w.forest.nodes ++ opened ∧
      (∀ n ∈ opened, n.file = file ∧ number ≤ n.line) ∧
      opened.Pairwise fun n m => n.line < m.line := by
  induction lines generalizing number w with
  | nil => exact ⟨[], (List.append_nil _).symm, (fun _ h => nomatch h), List.Pairwise.nil⟩
  | cons line rest ih =>
    obtain ⟨opened, hnodes, hmark, hlines⟩ := ih (number + 1) (w.step file number line.2)
    have hlast : (rows file number w (line :: rest)).2 =
        (rows file (number + 1) (w.step file number line.2) rest).2 := rfl
    rw [hlast, hnodes]
    rcases forest_step file number w line.2 with hsame | ⟨n, hadd, hfile, hline⟩
    · rw [hsame]
      exact ⟨opened, rfl, fun m hm => ⟨(hmark m hm).1, Nat.le_of_succ_le (hmark m hm).2⟩, hlines⟩
    · refine ⟨n :: opened, ?_, ?_, ?_⟩
      · rw [hadd]
        exact List.append_assoc _ [n] opened
      · intro m hm
        rcases List.mem_cons.mp hm with rfl | hm
        · exact ⟨hfile, Nat.le_of_eq hline.symm⟩
        · exact ⟨(hmark m hm).1, Nat.le_of_succ_le (hmark m hm).2⟩
      · refine List.pairwise_cons.mpr ⟨fun m hm => ?_, hlines⟩
        have := (hmark m hm).2
        omega

lemma nodes_isPrefix_rows (file number : Nat) (w : Walk) (lines : List (Text × Text)) :
    w.forest.nodes <+: (rows file number w lines).2.forest.nodes := by
  obtain ⟨opened, hnodes, _⟩ := rows_opened file number w lines
  exact ⟨opened, hnodes.symm⟩

theorem Sound.rows (h : w.Sound file number) (lines : List (Text × Text)) :
    (Walk.rows file number w lines).2.Sound file (number + lines.length) := by
  induction lines generalizing number w with
  | nil => exact h
  | cons line rest ih =>
    have hlength : number + (line :: rest).length = number + 1 + rest.length := by
      rw [List.length_cons]
      omega
    rw [hlength]
    exact ih (h.step line.2)

/-- Every row starts where the walk stands at its line. -/
theorem Sound.row (h : w.Sound file number) {lines : List (Text × Text)} {i : Nat} {row : Row}
    (hrow : (Walk.rows file number w lines).1[i]? = some row) :
    row.number = number + i ∧ ∃ v, (w.starts file number lines)[i]? = some v ∧
      v.current = row.scope ∧ v.Sound file row.number ∧
      v.forest.nodes <+: (Walk.rows file number w lines).2.forest.nodes := by
  induction lines generalizing number w i with
  | nil => cases hrow
  | cons line rest ih =>
    cases i with
    | zero =>
      cases hrow
      exact ⟨rfl, w, rfl, rfl, h, nodes_isPrefix_rows file number w (line :: rest)⟩
    | succ i =>
      obtain ⟨hnumber, v, hv, hcurrent, hsound, hgrown⟩ := ih (h.step line.2) hrow
      refine ⟨?_, v, hv, hcurrent, hsound, hgrown⟩
      omega

/-- However the forest grows, the open scopes stay the walk outwards from the innermost one. -/
lemma Sound.ancestors_current (h : w.Sound file number) {f : Forest} (hf : f.Ordered)
    (hgrown : w.forest.nodes <+: f.nodes) : f.ancestors w.current = w.stack ++ [0] := by
  rw [Forest.ancestors_of_isPrefix hf hgrown h.current_lt, h.chain]

/-- The depth of the innermost scope is the number of open ones. -/
lemma Sound.depth_current (h : w.Sound file number) {f : Forest} (hf : f.Ordered)
    (hgrown : w.forest.nodes <+: f.nodes) : f.depth w.current = w.stack.length := by
  rw [Forest.depth, h.ancestors_current hf hgrown, List.length_append, List.length_singleton,
    Nat.add_sub_cancel]

end Walk

/-- The lines of a sheet, raw and without comments. -/
def Sheet.lines (s : Sheet) : List (Text × Text) :=
  (Source.lines s.text).zip (Source.blank (Source.lines s.text) s.comments)

/-- The walk with which the survey of a file starts. -/
def Walk.ofForest (f : Forest) : Walk := ⟨f, [], none⟩

lemma survey_eq (f : Forest) (s : Sheet) :
    survey f s.file s.text s.comments =
      (⟨s.file, (Walk.rows s.file 0 (.ofForest f) s.lines).1⟩,
        (Walk.rows s.file 0 (.ofForest f) s.lines).2.forest) := rfl

lemma surveyAll_cons (f : Forest) (s : Sheet) (sheets : List Sheet) :
    surveyAll f (s :: sheets) =
      ((survey f s.file s.text s.comments).1 ::
          (surveyAll (survey f s.file s.text s.comments).2 sheets).1,
        (surveyAll (survey f s.file s.text s.comments).2 sheets).2) := rfl

lemma surveyAll_append (f : Forest) (first second : List Sheet) :
    surveyAll f (first ++ second) =
      ((surveyAll f first).1 ++ (surveyAll (surveyAll f first).2 second).1,
        (surveyAll (surveyAll f first).2 second).2) := by
  induction first generalizing f with
  | nil => rfl
  | cons s first ih => simp only [List.cons_append, surveyAll_cons, ih]

lemma length_surveyAll (f : Forest) (sheets : List Sheet) :
    (surveyAll f sheets).1.length = sheets.length := by
  induction sheets generalizing f with
  | nil => rfl
  | cons s sheets ih => simp only [surveyAll_cons, List.length_cons, ih]

/-- A survey keeps the forest ordered and only adds to it. -/
theorem survey_grows {f : Forest} (hf : f.Ordered) (s : Sheet) :
    (survey f s.file s.text s.comments).2.Ordered ∧
      f.nodes <+: (survey f s.file s.text s.comments).2.nodes := by
  rw [survey_eq]
  have hstart : (Walk.ofForest f).Sound s.file 0 := Walk.Sound.start hf s.file 0
  exact ⟨(hstart.rows s.lines).ordered, Walk.nodes_isPrefix_rows s.file 0 (.ofForest f) s.lines⟩

theorem surveyAll_grows {f : Forest} (hf : f.Ordered) (sheets : List Sheet) :
    (surveyAll f sheets).2.Ordered ∧ f.nodes <+: (surveyAll f sheets).2.nodes := by
  induction sheets generalizing f with
  | nil => exact ⟨hf, List.prefix_rfl⟩
  | cons s sheets ih =>
    obtain ⟨hone, hgrown⟩ := survey_grows hf s
    obtain ⟨hall, hrest⟩ := ih hone
    exact ⟨hall, hgrown.trans hrest⟩

/-- The scopes behind the survey of one file keep their numbers in the forest of the project. -/
theorem survey_isPrefix_surveyAll {f : Forest} (hf : f.Ordered) (before : List Sheet) (s : Sheet)
    (after : List Sheet) :
    (survey (surveyAll f before).2 s.file s.text s.comments).2.nodes <+:
      (surveyAll f (before ++ s :: after)).2.nodes := by
  have hstart := (surveyAll_grows hf before).1
  have hone := (survey_grows hstart s).1
  rw [surveyAll_append, surveyAll_cons]
  exact (surveyAll_grows hone after).2

/-- What the survey of one file says in the forest `final` of the project, when it starts from the
forest `start`. -/
structure Surveyed (start final : Forest) (s : Sheet) (listing : Listing) : Prop where
  /-- The stack with the global scope under it is at every moment the walk outwards from its top. -/
  chain : ∀ v ∈ (Walk.ofForest start).trace s.file 0 s.lines,
    v.stack ++ [0] = v.forest.ancestors v.current
  /-- The scopes opened by the file lie side by side, at most one to a line, in the order of their
  lines. -/
  opened : ∃ opened later, (survey start s.file s.text s.comments).2.nodes = start.nodes ++ opened ∧
    final.nodes = start.nodes ++ opened ++ later ∧ (∀ n ∈ opened, n.file = s.file) ∧
    opened.Pairwise fun n m => n.line < m.line
  /-- A row starts in a scope of the forest, which is the global one or was opened further up in the
  same file, and its depth is the number of scopes open there. -/
  row : ∀ (i : Nat) (row : Row), listing.rows[i]? = some row → row.number = i ∧
    row.scope < final.size ∧
    (row.scope ≠ 0 →
      ∃ n, final.node? row.scope = some n ∧ n.file = s.file ∧ n.line < row.number) ∧
    ∃ v : Walk, ((Walk.ofForest start).starts s.file 0 s.lines)[i]? = some v ∧
      v.current = row.scope ∧ final.depth row.scope = v.stack.length

theorem surveyed {start final : Forest} (hstart : start.Ordered) (hfinal : final.Ordered)
    (s : Sheet)
    (hgrown : (survey start s.file s.text s.comments).2.nodes <+: final.nodes) :
    Surveyed start final s (survey start s.file s.text s.comments).1 := by
  have hw : (Walk.ofForest start).Sound s.file 0 := Walk.Sound.start hstart s.file 0
  refine ⟨fun v hv => (hw.trace s.lines v hv).chain, ?_, ?_⟩
  · obtain ⟨opened, hnodes, hmark, hlines⟩ :=
      Walk.rows_opened s.file 0 (.ofForest start) s.lines
    obtain ⟨later, hlater⟩ := hgrown
    refine ⟨opened, later, hnodes, ?_, fun n hn => (hmark n hn).1, hlines⟩
    rw [← hlater]
    exact congrArg (· ++ later) hnodes
  · intro i row hrow
    obtain ⟨hnumber, v, hv, hcurrent, hsound, hbefore⟩ := hw.row hrow
    have hall : v.forest.nodes <+: final.nodes := hbefore.trans hgrown
    refine ⟨by omega, ?_, ?_, v, hv, hcurrent, ?_⟩
    · rw [← hcurrent]
      exact Nat.lt_of_lt_of_le hsound.current_lt (Forest.size_le_of_isPrefix hall)
    · intro hzero
      rcases v.current_cases with hglobal | hmem
      · exact absurd (hcurrent.symm.trans hglobal) hzero
      · rw [← hcurrent]
        obtain ⟨n, hn, hmark⟩ := hsound.opened _ hmem
        exact ⟨n, Forest.node?_of_isPrefix hall hn, hmark⟩
    · rw [← hcurrent]
      exact hsound.depth_current hfinal hall

/-- The scopes of a project form a forest. However many files are surveyed, and whatever stands in
them, scopes are numbered in the order of the nodes and stand in earlier ones; every file is
surveyed with its stack on a walk outwards; walks outwards end, at the global scope and without
meeting a scope twice; and sight is a partial order. -/
theorem surveyAll_forest (sheets : List Sheet) :
    let f := (surveyAll {} sheets).2
    (f.node? 0 = none ∧ (∀ i, f.numbered[i]? = (f.node? (i + 1)).map fun n => (n, i + 1)) ∧
      ∀ id n, f.node? id = some n → n.parent < id) ∧
    (∀ before s after, sheets = before ++ s :: after → ∃ listing,
      (surveyAll {} sheets).1[before.length]? = some listing ∧
      Surveyed (surveyAll {} before).2 f s listing) ∧
    (∀ id, (f.ancestors id).Nodup ∧ (f.ancestors id).getLast? = some 0 ∧
      ∃ outer, f.climb (id + 1) id = some (id :: outer) ∧ f.ancestors id =
        if (id :: outer).getLast? = some 0 then id :: outer else id :: outer ++ [0]) ∧
    (∀ a, f.sees a a = true) ∧
    (∀ a b c, f.sees a b = true → f.sees b c = true → f.sees a c = true) ∧
    (∀ a b, f.sees a b = true → f.sees b a = true → a = b) := by
  intro f
  have hf : f.Ordered := (surveyAll_grows Forest.ordered_empty sheets).1
  refine ⟨⟨rfl, f.getElem?_numbered, hf⟩, ?_, ?_, f.sees_refl, fun a b c => Forest.sees_trans hf,
    fun a b => Forest.sees_antisymm⟩
  · rintro before s after rfl
    have hstart := (surveyAll_grows Forest.ordered_empty before).1
    have hone := (survey_grows hstart s).1
    have hall : surveyAll {} (before ++ s :: after) = _ := surveyAll_append {} before (s :: after)
    refine ⟨(survey (surveyAll {} before).2 s.file s.text s.comments).1, ?_, ?_⟩
    · rw [hall, surveyAll_cons, ← length_surveyAll {} before]
      simp
    · apply surveyed hstart hf s
      have hrest := (surveyAll_grows hone after).2
      rw [show f = (surveyAll {} (before ++ s :: after)).2 from rfl, hall]
      exact hrest
  · intro id
    exact ⟨f.nodup_ancestors id, f.getLast?_ancestors id, Forest.climb_eq hf (Nat.lt_succ_self id)⟩

end AsmLens.Scope
