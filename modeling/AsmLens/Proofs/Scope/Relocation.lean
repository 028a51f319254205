import AsmLens.Proofs.Scope.Survey

/-!
# Surveys are relocatable

A survey adds its scopes behind those that are there and never looks at the earlier ones. Surveyed
into a forest of any size, a file opens the same scopes and has the same rows as when it is surveyed
alone; only the numbers of its scopes move up, and the global scope keeps its number. The walk from
the global scope therefore meets scopes with the same names, kinds and lines wherever the file
stands in a project.
-/

namespace AsmLens.Scope

/-- The number in a forest of `size` scopes that the scope `id` of a file surveyed alone gets. -/
def relocate (size id : Nat) : Nat := if id = 0 then 0 else id + size - 1

def Node.relocate (size : Nat) (n : Node) : Node :=
  { n with parent := Scope.relocate size n.parent }

def Row.relocate (size : Nat) (r : Row) : Row := { r with scope := Scope.relocate size r.scope }

def Listing.relocate (size : Nat) (l : Listing) : Listing :=
  ⟨l.file, l.rows.map (Row.relocate size)⟩

/-- A forest with the scopes of another one behind its own. -/
def Forest.extend (f g : Forest) : Forest := ⟨f.nodes ++ g.nodes.map (Node.relocate f.size)⟩

def Walk.relocate (f : Forest) (w : Walk) : Walk where
  forest := f.extend w.forest
  stack := w.stack.map (Scope.relocate f.size)
  pending := w.pending

@[simp] lemma relocate_zero (size : Nat) : relocate size 0 = 0 := rfl

lemma relocate_of_ne {id : Nat} (size : Nat) (h : id ≠ 0) : relocate size id = id + size - 1 :=
  if_neg h

lemma relocate_lt_relocate_iff (size a b : Nat) :
    relocate (size + 1) a < relocate (size + 1) b ↔ a < b := by
  simp only [relocate]
  split <;> split <;> omega

lemma Listing.row?_relocate (size : Nat) (l : Listing) (line : Nat) :
    (l.relocate size).row? line = (l.row? line).map (Row.relocate size) :=
  List.getElem?_map ..

lemma Listing.scopeAt_relocate (size : Nat) (l : Listing) (line : Nat) :
    (l.relocate size).scopeAt line = Scope.relocate size (l.scopeAt line) := by
  rw [scopeAt, scopeAt, row?_relocate]
  cases l.row? line with
  | none => rfl
  | some row => rfl

namespace Forest

lemma size_extend (f g : Forest) : (f.extend g).size = Scope.relocate f.size g.size := by
  have hsize : g.size ≠ 0 := Nat.succ_ne_zero _
  rw [relocate_of_ne _ hsize]
  simp only [size, extend, List.length_append, List.length_map]
  omega

/-- A scope that is unknown in a forest is still unknown when the forest moves. -/
lemma attached_relocate (f g : Forest) (n : Node) :
    (f.extend g).attached (n.relocate f.size) = (g.attached n).relocate f.size := by
  have hknown : (n.relocate f.size).parent < (f.extend g).size ↔ n.parent < g.size := by
    rw [size_extend]
    exact relocate_lt_relocate_iff f.nodes.length n.parent g.size
  by_cases h : n.parent < g.size
  · rw [attached_eq h, attached_eq (hknown.mpr h)]
  · rw [attached, attached, if_neg h, if_neg (mt hknown.mp h)]
    rfl

lemma extend_add (f g : Forest) (n : Node) :
    f.extend (g.add n) = (f.extend g).add (n.relocate f.size) := by
  rw [add, add, attached_relocate]
  simp only [extend, List.map_append, List.map_singleton, List.append_assoc]

/-- The scopes that were there keep their numbers. -/
lemma node?_extend_of_lt {f : Forest} (g : Forest) {id : Nat} (h : id < f.size) :
    (f.extend g).node? id = f.node? id := by
  cases id with
  | zero => rfl
  | succ i => exact List.getElem?_append_left (Nat.lt_of_succ_lt_succ h)

/-- The scopes behind them are those of the other forest under their new numbers. -/
lemma node?_extend_relocate (f g : Forest) {id : Nat} (h : id ≠ 0) :
    (f.extend g).node? (Scope.relocate f.size id) = (g.node? id).map (Node.relocate f.size) := by
  obtain ⟨i, rfl⟩ := Nat.exists_eq_succ_of_ne_zero h
  have hmoved : Scope.relocate f.size (i + 1) = f.nodes.length + i + 1 := by
    rw [relocate_of_ne _ h]
    simp only [size]
    omega
  rw [hmoved, node?, extend, List.getElem?_append_right (Nat.le_add_right _ _),
    Nat.add_sub_cancel_left, List.getElem?_map]
  rfl

end Forest

/-! ## One line -/

namespace Walk

variable (f : Forest) (w : Walk)

lemma current_relocate : (w.relocate f).current = Scope.relocate f.size w.current := by
  rcases w with ⟨forest, stack, pending⟩
  cases stack with
  | nil => rfl
  | cons id rest => rfl

lemma close_relocate : (w.relocate f).close = w.close.relocate f := by
  rw [close, relocate, relocate, close, List.map_tail]

/-- The scope that is opened stands where the walk stands and gets the next number. -/
lemma enter_relocate (file number : Nat) :
    (w.relocate f).enter file number = (w.enter file number).relocate f := by
  have hcurrent := w.current_relocate f
  have hsize := f.size_extend w.forest
  simp only [enter, relocate, Forest.extend_add, List.map_cons, ← hsize]
  rw [relocate] at hcurrent
  rw [hcurrent]
  rfl

theorem step_relocate (file number : Nat) (bare : Text) :
    (w.relocate f).step file number bare = (w.step file number bare).relocate f := by
  have htake : (w.relocate f).takeUp bare = (w.takeUp bare).relocate f := rfl
  have hfirst : ∀ v : Walk, (v.relocate f).leaveFirst bare = (v.leaveFirst bare).relocate f := by
    intro v
    unfold leaveFirst
    split
    · exact v.close_relocate f
    · rfl
  have henter : ∀ v : Walk,
      (v.relocate f).enterNext file number bare = (v.enterNext file number bare).relocate f := by
    intro v
    unfold enterNext
    split
    · exact v.enter_relocate f file number
    · rfl
  have hlast : ∀ v : Walk, (v.relocate f).leaveLast bare = (v.leaveLast bare).relocate f := by
    intro v
    unfold leaveLast
    split
    · exact v.close_relocate f
    · rfl
  rw [step_eq, step_eq, htake, hfirst, henter, hlast]

/-! ## A whole file -/

theorem rows_relocate (file number : Nat) (lines : List (Text × Text)) :
    rows file number (w.relocate f) lines =
      ((rows file number w lines).1.map (Row.relocate f.size),
        (rows file number w lines).2.relocate f) := by
  induction lines generalizing number w with
  | nil => rfl
  | cons line rest ih =>
    simp only [rows, step_relocate, ih, current_relocate, List.map_cons, Row.relocate]

end Walk

/-- A file surveyed into a forest opens the scopes and has the rows that it has alone, under the
numbers that follow those of the forest. -/
theorem survey_relocate (f : Forest) (s : Sheet) :
    survey f s.file s.text s.comments =
      ((survey {} s.file s.text s.comments).1.relocate f.size,
        f.extend (survey {} s.file s.text s.comments).2) := by
  have hstart : Walk.ofForest f = (Walk.ofForest {}).relocate f := by
    simp [Walk.ofForest, Walk.relocate, Forest.extend]
  rw [survey_eq, survey_eq, hstart, Walk.rows_relocate]
  rfl

/-! ## Chains of scopes -/

/-- What the scopes on the walk from a scope say of themselves: their names, kinds and lines. The
global scope says nothing. -/
def Forest.chain (f : Forest) (id : Nat) : List (Option (Text × Kind × Nat)) :=
  (f.ancestors id).map fun a => (f.node? a).map fun n => (n.name, n.kind, n.line)

namespace Forest

variable {start g f : Forest}

lemma node?_relocate (hgrown : (start.extend g).nodes <+: f.nodes) {id : Nat} {n : Node}
    (hn : g.node? id = some n) :
    f.node? (Scope.relocate start.size id) = some (n.relocate start.size) := by
  apply node?_of_isPrefix hgrown
  rw [node?_extend_relocate start g (ne_zero_of_node? hn), hn, Option.map_some]

/-- In a forest with relocated scopes, the walk from one of them is the relocated walk. -/
theorem ancestors_relocate (hg : g.Ordered) (hgrown : (start.extend g).nodes <+: f.nodes) {id : Nat}
    (hid : id < g.size) :
    f.ancestors (Scope.relocate start.size id) =
      (g.ancestors id).map (Scope.relocate start.size) := by
  induction id using Nat.strongRecOn with
  | ind id ih =>
    by_cases hzero : id = 0
    · simp [hzero]
    · obtain ⟨n, hn⟩ := exists_node? hzero hid
      have hparent := hg id n hn
      have hlt : (n.relocate start.size).parent < Scope.relocate start.size id :=
        (relocate_lt_relocate_iff start.nodes.length n.parent id).mpr hparent
      rw [ancestors, node?_relocate hgrown hn, ancestors_known hg hn, List.map_cons,
        ← ih n.parent hparent (hparent.trans hid)]
      exact if_pos hlt

theorem chain_relocate (hg : g.Ordered) (hgrown : (start.extend g).nodes <+: f.nodes) {id : Nat}
    (hid : id < g.size) : f.chain (Scope.relocate start.size id) = g.chain id := by
  rw [chain, chain, ancestors_relocate hg hgrown hid, List.map_map]
  refine List.map_congr_left ?_
  intro a ha
  by_cases hzero : a = 0
  · rw [hzero]
    rfl
  · have hlt : a < g.size := Nat.lt_of_le_of_lt (le_of_mem_ancestors ha) hid
    obtain ⟨n, hn⟩ := exists_node? hzero hlt
    rw [Function.comp_apply, node?_relocate hgrown hn, hn]
    rfl

end Forest

end AsmLens.Scope
