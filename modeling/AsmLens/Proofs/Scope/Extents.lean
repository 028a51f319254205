import AsmLens.Proofs.Scope.Opened
import Mathlib.Data.Set.Lattice
import Mathlib.Order.CompletePartialOrder
import Mathlib.Order.Interval.Set.Basic

/-!
# The extents of scopes

The extent of a scope is the set of lines that start in it or in a scope inside it. A scope enters
the stack at the line that opens it and is never put back once it has left, so its extent is one
stretch of lines that starts right behind its brace. Two scopes with a line in common lie on the
walk outwards from that line, so one of them encloses the other.
-/

namespace AsmLens.Scope

/-- The lines of a surveyed file that lie in a scope. -/
def Listing.extent (l : Listing) (f : Forest) (id : Nat) : Set Nat :=
  { line | ∃ row, l.row? line = some row ∧ id ∈ f.ancestors row.scope }

/-! ## One line -/

namespace Walk

variable {file number : Nat} {w : Walk}

/-- A scope that is open behind a line was open before it or is opened by it. -/
theorem mem_stack_step {bare : Text} {id : Nat} (h : id ∈ (w.step file number bare).stack) :
    id ∈ w.stack ∨
      ∃ n, (w.step file number bare).forest.node? id = some n ∧ n.line = number := by
  have hleft : ((w.takeUp bare).leaveFirst bare).stack ⊆ w.stack := by
    unfold leaveFirst
    split
    · exact List.tail_subset w.stack
    · exact List.Subset.refl _
  have hentered : id ∈ (((w.takeUp bare).leaveFirst bare).enterNext file number bare).stack := by
    rw [step_eq, leaveLast] at h
    split at h
    · exact List.mem_of_mem_tail h
    · exact h
  rw [step_eq, forest_leaveLast]
  unfold enterNext at hentered ⊢
  split
  · rename_i hopens
    rw [if_pos hopens] at hentered
    rcases List.mem_cons.mp hentered with rfl | hmem
    · exact Or.inr ⟨_, Forest.node?_add_size _ _, rfl⟩
    · exact Or.inl (hleft hmem)
  · rename_i hopens
    rw [if_neg hopens] at hentered
    exact Or.inl (hleft hentered)

theorem getElem?_starts_succ {lines : List (Text × Text)} {i : Nat} {v : Walk}
    (h : (w.starts file number lines)[i + 1]? = some v) :
    ∃ u bare, (w.starts file number lines)[i]? = some u ∧ v = u.step file (number + i) bare := by
  induction lines generalizing number w i with
  | nil => cases h
  | cons line rest ih =>
    cases i with
    | zero =>
      cases rest with
      | nil => cases h
      | cons next rest =>
        cases h
        exact ⟨w, line.2, rfl, rfl⟩
    | succ i =>
      obtain ⟨u, bare, hu, hv⟩ := ih h
      have hnumber : number + (i + 1) = number + 1 + i := by omega
      rw [hnumber]
      exact ⟨u, bare, hu, hv⟩

end Walk

/-! ## The extent of one scope -/

/-- A bounded set of lines that can only be entered at its first line is a stretch of lines. -/
lemma exists_eq_Ico {S : Set Nat} {first bound : Nat} (hfirst : ∀ i ∈ S, first ≤ i)
    (hbound : ∀ i ∈ S, i < bound) (hstep : ∀ i, i + 1 ∈ S → i ∈ S ∨ i + 1 = first) :
    ∃ stop, S = Set.Ico first stop := by
  induction bound with
  | zero =>
    refine ⟨first, ?_⟩
    rw [Set.Ico_self, Set.eq_empty_iff_forall_notMem]
    intro i hi
    exact absurd (hbound i hi) (Nat.not_lt_zero i)
  | succ bound ih =>
    by_cases hlast : bound ∈ S
    · have hdown : ∀ k, first + k ≤ bound → bound - k ∈ S := by
        intro k
        induction k with
        | zero => exact fun _ => hlast
        | succ k ihk =>
          intro hk
          have hsucc : bound - (k + 1) + 1 = bound - k := by omega
          rcases hstep (bound - (k + 1)) (hsucc ▸ ihk (by omega)) with hmem | heq
          · exact hmem
          · omega
      refine ⟨bound + 1, ?_⟩
      ext i
      constructor
      · intro hi
        exact ⟨hfirst i hi, hbound i hi⟩
      · rintro ⟨hle, hlt⟩
        have hi := hdown (bound - i) (by omega)
        have heq : bound - (bound - i) = i := by omega
        exact heq ▸ hi
    · refine ih fun i hi => ?_
      have hlt := hbound i hi
      have hne : i ≠ bound := fun heq => hlast (heq ▸ hi)
      omega

section Extent

variable {start f : Forest} {s : Sheet} (hstart : start.Ordered) (hf : f.Ordered)
  (hgrown : (survey start s.file s.text s.comments).2.nodes <+: f.nodes)

include hstart hf hgrown

/-- A line lies in the scopes that are open where it starts. -/
theorem exists_start_of_mem_extent {id line : Nat} (hid : id ≠ 0)
    (h : line ∈ (survey start s.file s.text s.comments).1.extent f id) :
    ∃ v, ((Walk.ofForest start).starts s.file 0 s.lines)[line]? = some v ∧ id ∈ v.stack ∧
      v.Sound s.file line ∧ v.forest.nodes <+: f.nodes := by
  obtain ⟨row, hrow, hmem⟩ := h
  have hw : (Walk.ofForest start).Sound s.file 0 := Walk.Sound.start hstart s.file 0
  obtain ⟨hnumber, v, hv, hcurrent, hsound, hbefore⟩ := hw.row hrow
  have hall : v.forest.nodes <+: f.nodes := hbefore.trans hgrown
  rw [← hcurrent, hsound.ancestors_current hf hall, List.mem_append, List.mem_singleton] at hmem
  have hline : row.number = line := by omega
  exact ⟨v, hv, hmem.resolve_right hid, hline ▸ hsound, hall⟩

theorem mem_extent_of_mem_stack {id line : Nat} {v : Walk}
    (hv : ((Walk.ofForest start).starts s.file 0 s.lines)[line]? = some v) (hmem : id ∈ v.stack)
    (hline : line < (survey start s.file s.text s.comments).1.rows.length) :
    line ∈ (survey start s.file s.text s.comments).1.extent f id := by
  have hw : (Walk.ofForest start).Sound s.file 0 := Walk.Sound.start hstart s.file 0
  have hrow := List.getElem?_eq_getElem hline
  obtain ⟨_, u, hu, hcurrent, hsound, hbefore⟩ := hw.row hrow
  cases hu.symm.trans hv
  refine ⟨_, hrow, ?_⟩
  rw [← hcurrent, hsound.ancestors_current hf (hbefore.trans hgrown)]
  exact List.mem_append_left _ hmem

/-- The extent of a scope is a stretch of lines that starts behind the line of its brace. -/
theorem extent_eq_Ico {id : Nat} {n : Node} (hn : f.node? id = some n) :
    ∃ stop, (survey start s.file s.text s.comments).1.extent f id =
      Set.Ico (n.line + 1) stop := by
  have hid := Forest.ne_zero_of_node? hn
  have hfirst : ∀ line ∈ (survey start s.file s.text s.comments).1.extent f id,
      n.line + 1 ≤ line := by
    intro line hline
    obtain ⟨v, _, hmem, hsound, hall⟩ := exists_start_of_mem_extent hstart hf hgrown hid hline
    obtain ⟨m, hm, _, hlt⟩ := hsound.opened id hmem
    cases hn.symm.trans (Forest.node?_of_isPrefix hall hm)
    exact hlt
  have hbound : ∀ line ∈ (survey start s.file s.text s.comments).1.extent f id,
      line < (survey start s.file s.text s.comments).1.rows.length := by
    rintro line ⟨row, hrow, _⟩
    exact (List.getElem?_eq_some_iff.mp hrow).1
  refine exists_eq_Ico hfirst hbound ?_
  -- a line whose scope was not open before it follows the brace
  intro line hline
  obtain ⟨v, hv, hmem, _, hall⟩ := exists_start_of_mem_extent hstart hf hgrown hid hline
  obtain ⟨u, bare, hu, rfl⟩ := Walk.getElem?_starts_succ hv
  rw [Nat.zero_add] at hmem hall
  rcases Walk.mem_stack_step hmem with hopen | ⟨m, hm, hmline⟩
  · have hlt := hbound (line + 1) hline
    exact Or.inl (mem_extent_of_mem_stack hstart hf hgrown hu hopen (by omega))
  · cases hn.symm.trans (Forest.node?_of_isPrefix hall hm)
    exact Or.inr (by omega)

end Extent

/-! ## Two scopes -/

/-- The lines inside a scope lie inside the scopes around it. -/
lemma extent_subset {f : Forest} (hf : f.Ordered) (l : Listing) {a b : Nat}
    (h : a ∈ f.ancestors b) : l.extent f b ⊆ l.extent f a := by
  rintro line ⟨row, hrow, hb⟩
  exact ⟨row, hrow, (Forest.ancestors_isSuffix hf hb).subset h⟩

/-- Scopes are contiguous and properly nested in the source. Whatever was surveyed before and is
surveyed after a file, the extent of every scope that the file opens is one stretch of lines, which
starts behind the line of the scope if there is any, and of two scopes with an extent either no line
lies in both, or one of them encloses the other and has strictly more lines. -/
theorem survey_extents_nested (before : List Sheet) (s : Sheet) (after : List Sheet) :
    let start := (surveyAll {} before).2
    let run := survey start s.file s.text s.comments
    let f := (surveyAll {} (before ++ s :: after)).2
    (∀ id ∈ Set.Ico start.size run.2.size,
      ∃ n stop, f.node? id = some n ∧ run.1.extent f id = Set.Ico (n.line + 1) stop) ∧
    (∀ a ∈ Set.Ico start.size run.2.size, ∀ b ∈ Set.Ico start.size run.2.size, a ≠ b →
      (run.1.extent f a).Nonempty → (run.1.extent f b).Nonempty →
      Disjoint (run.1.extent f a) (run.1.extent f b) ∨
      (run.1.extent f b ⊂ run.1.extent f a ∧ a ∈ f.ancestors b) ∨
      (run.1.extent f a ⊂ run.1.extent f b ∧ b ∈ f.ancestors a)) := by
  intro start run f
  have hstart : start.Ordered := (surveyAll_grows Forest.ordered_empty before).1
  have hf : f.Ordered := (surveyAll_grows Forest.ordered_empty (before ++ s :: after)).1
  have hgrown : run.2.nodes <+: f.nodes :=
    survey_isPrefix_surveyAll Forest.ordered_empty before s after
  have hextent : ∀ id ∈ Set.Ico start.size run.2.size,
      ∃ n stop, f.node? id = some n ∧ run.1.extent f id = Set.Ico (n.line + 1) stop := by
    rintro id ⟨hle, hlt⟩
    have hid : id ≠ 0 := Nat.ne_of_gt (Nat.lt_of_lt_of_le (Nat.succ_pos _) hle)
    obtain ⟨n, hn⟩ := Forest.exists_node? hid (hlt.trans_le (Forest.size_le_of_isPrefix hgrown))
    obtain ⟨stop, hstop⟩ := extent_eq_Ico hstart hf hgrown hn
    exact ⟨n, stop, hn, hstop⟩
  -- the first line of the outer scope lies above the brace of the inner one
  have hstrict : ∀ a ∈ Set.Ico start.size run.2.size, ∀ b ∈ Set.Ico start.size run.2.size,
      a ≠ b → (run.1.extent f a).Nonempty → a ∈ f.ancestors b →
      run.1.extent f b ⊂ run.1.extent f a := by
    intro a ha b hb hne hnonempty hab
    obtain ⟨n, stop, hn, hna⟩ := hextent a ha
    obtain ⟨m, stop', hm, hmb⟩ := hextent b hb
    have hlt : a < b := lt_of_le_of_ne (Forest.le_of_mem_ancestors hab) hne
    have hline := line_lt_of_opened hgrown ha.1 hlt hb.2 hn hm
    refine (Set.ssubset_iff_of_subset (extent_subset hf run.1 hab)).mpr ⟨n.line + 1, ?_, ?_⟩
    · rw [hna] at hnonempty ⊢
      exact Set.left_mem_Ico.mpr (Set.nonempty_Ico.mp hnonempty)
    · rw [hmb]
      rintro ⟨hle, _⟩
      omega
  refine ⟨hextent, ?_⟩
  intro a ha b hb hne hnonempty hnonempty'
  by_cases hdisjoint : Disjoint (run.1.extent f a) (run.1.extent f b)
  · exact Or.inl hdisjoint
  · obtain ⟨line, ⟨row, hrow, hrowa⟩, ⟨row', hrow', hrowb⟩⟩ := Set.not_disjoint_iff.mp hdisjoint
    cases hrow.symm.trans hrow'
    rcases Forest.mem_ancestors_or_mem_ancestors hf hrowa hrowb with hab | hba
    · exact Or.inr (Or.inl ⟨hstrict a ha b hb hne hnonempty hab, hab⟩)
    · exact Or.inr (Or.inr ⟨hstrict b hb a ha hne.symm hnonempty' hba, hba⟩)

end AsmLens.Scope
