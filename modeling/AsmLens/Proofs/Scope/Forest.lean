import AsmLens.Scope.Forest
import Mathlib.Data.List.Infix
import Mathlib.Data.List.Nodup

/-!
# Walks to the global scope

A forest is ordered when every scope was opened in an earlier one. Then the numbers fall along every
walk outwards, so the walk ends, meets no scope twice and stops at the global scope, and the scopes
that enclose a scope on the walk have the rest of it as their own walk. Nothing here depends on how a
forest came about.
-/

namespace AsmLens.Scope.Forest

/-- Every scope stands in an earlier one. -/
def Ordered (f : Forest) : Prop := ∀ id n, f.node? id = some n → n.parent < id

/-- The plain walk outwards: a scope, the scope around it and so on, as long as there is one. It has
no result when the fuel is used up first. -/
def climb (f : Forest) : Nat → Nat → Option (List Nat)
  | 0, _ => none
  | fuel + 1, id =>
    match f.parent? id with
    | none => some [id]
    | some parent => (f.climb fuel parent).map (id :: ·)

variable {f : Forest}

@[simp] lemma node?_zero (f : Forest) : f.node? 0 = none := rfl

@[simp] lemma ancestors_zero (f : Forest) : f.ancestors 0 = [0] := by
  rw [ancestors, node?_zero]
  rfl

lemma ancestors_unknown {id : Nat} (h : f.node? id = none) (hid : id ≠ 0) :
    f.ancestors id = [id, 0] := by
  rw [ancestors, h]
  exact if_neg hid

lemma ancestors_known (hf : f.Ordered) {id : Nat} {n : Node} (h : f.node? id = some n) :
    f.ancestors id = id :: f.ancestors n.parent := by
  rw [ancestors, h]
  exact if_pos (hf id n h)

lemma head?_ancestors (f : Forest) (id : Nat) : (f.ancestors id).head? = some id := by
  rw [ancestors]
  split
  · split
    · rename_i h
      rw [h]
      rfl
    · rfl
  · split <;> rfl

lemma mem_ancestors_self (f : Forest) (id : Nat) : id ∈ f.ancestors id :=
  List.mem_of_mem_head? (head?_ancestors f id)

lemma zero_mem_ancestors (f : Forest) (id : Nat) : 0 ∈ f.ancestors id := by
  fun_induction ancestors f id with
  | case1 => exact List.mem_singleton_self 0
  | case2 => simp
  | case3 id n h hlt ih => exact List.mem_cons_of_mem id ih
  | case4 => simp

/-- A walk ends at the global scope. -/
theorem getLast?_ancestors (f : Forest) (id : Nat) : (f.ancestors id).getLast? = some 0 := by
  fun_induction ancestors f id with
  | case1 => rfl
  | case2 => rfl
  | case3 id n h hlt ih => rw [List.getLast?_cons, ih, Option.getD_some]
  | case4 => rfl

lemma ne_zero_of_node? {id : Nat} {n : Node} (h : f.node? id = some n) : id ≠ 0 := by
  rintro rfl
  cases h

lemma le_of_mem_ancestors {a id : Nat} (h : a ∈ f.ancestors id) : a ≤ id := by
  fun_induction ancestors f id with
  | case1 => exact Nat.le_of_eq (List.mem_singleton.mp h)
  | case2 id _ hid =>
    simp only [List.mem_cons, List.not_mem_nil, or_false] at h
    omega
  | case3 id n hn hlt ih =>
    rcases List.mem_cons.mp h with rfl | h
    · exact Nat.le_refl a
    · have := ih h
      omega
  | case4 id n hn hlt =>
    simp only [List.mem_cons, List.not_mem_nil, or_false] at h
    omega

/-- A walk meets no scope twice. -/
theorem nodup_ancestors (f : Forest) (id : Nat) : (f.ancestors id).Nodup := by
  fun_induction ancestors f id with
  | case1 => simp
  | case2 id h hid => simp [hid]
  | case3 id n h hlt ih =>
    refine List.nodup_cons.mpr ⟨?_, ih⟩
    intro hmem
    have := le_of_mem_ancestors hmem
    omega
  | case4 id n h hlt =>
    simp [ne_zero_of_node? h]

/-- The walk from a scope on a walk is the rest of that walk. -/
theorem ancestors_isSuffix (hf : f.Ordered) {a id : Nat} (h : a ∈ f.ancestors id) :
    f.ancestors a <:+ f.ancestors id := by
  induction id using Nat.strongRecOn with
  | ind id ih =>
    cases hn : f.node? id with
    | none =>
      by_cases hid : id = 0
      · subst hid
        rw [ancestors_zero, List.mem_singleton] at h
        rw [h]
      · rw [ancestors_unknown hn hid] at h ⊢
        simp only [List.mem_cons, List.not_mem_nil, or_false] at h
        rcases h with rfl | rfl
        · rw [ancestors_unknown hn hid]
        · rw [ancestors_zero]
          exact List.suffix_cons id [0]
    | some n =>
      rw [ancestors_known hf hn] at h ⊢
      rcases List.mem_cons.mp h with rfl | h
      · rw [ancestors_known hf hn]
      · exact (ih n.parent (hf id n hn) h).trans (List.suffix_cons id _)

/-- Of two scopes on one walk, one lies on the walk from the other. -/
theorem mem_ancestors_or_mem_ancestors (hf : f.Ordered) {a b id : Nat} (ha : a ∈ f.ancestors id)
    (hb : b ∈ f.ancestors id) : a ∈ f.ancestors b ∨ b ∈ f.ancestors a := by
  have ha' := ancestors_isSuffix hf ha
  have hb' := ancestors_isSuffix hf hb
  rcases List.suffix_or_suffix_of_suffix ha' hb' with hab | hba
  · exact Or.inl (hab.subset (mem_ancestors_self f a))
  · exact Or.inr (hba.subset (mem_ancestors_self f b))

lemma depth_le_of_mem_ancestors (hf : f.Ordered) {a id : Nat} (h : a ∈ f.ancestors id) :
    f.depth a ≤ f.depth id :=
  Nat.sub_le_sub_right (ancestors_isSuffix hf h).length_le 1

lemma depth_known (hf : f.Ordered) {id : Nat} {n : Node} (h : f.node? id = some n) :
    f.depth id = f.depth n.parent + 1 := by
  have hpos := List.length_pos_of_mem (mem_ancestors_self f n.parent)
  rw [depth, depth, ancestors_known hf h, List.length_cons]
  omega

/-- The depth falls along a walk, so that no two scopes on it lie equally deep. -/
theorem pairwise_depth_ancestors (hf : f.Ordered) (id : Nat) :
    (f.ancestors id).Pairwise fun a b => f.depth b < f.depth a := by
  fun_induction ancestors f id with
  | case1 => exact List.pairwise_singleton _ 0
  | case2 id h hid => simp [depth, ancestors_unknown h hid]
  | case3 id n h hlt ih =>
    refine List.pairwise_cons.mpr ⟨?_, ih⟩
    intro a ha
    have hle := depth_le_of_mem_ancestors hf ha
    rw [depth_known hf h]
    omega
  | case4 id n h hlt => exact absurd (hf id n h) hlt

/-- The plain walk ends after at most as many steps as the number of the scope, and it is the list of
ancestors, but for the global scope behind an unknown one. -/
theorem climb_eq (hf : f.Ordered) {id fuel : Nat} (h : id < fuel) :
    ∃ outer, f.climb fuel id = some (id :: outer) ∧
      f.ancestors id =
        if (id :: outer).getLast? = some 0 then id :: outer else id :: outer ++ [0] := by
  induction fuel generalizing id with
  | zero => omega
  | succ fuel ih =>
    cases hn : f.node? id with
    | none =>
      refine ⟨[], by simp [climb, parent?, hn], ?_⟩
      by_cases hid : id = 0
      · simp [hid]
      · simp [ancestors_unknown hn hid, hid]
    | some n =>
      have hlt := hf id n hn
      obtain ⟨outer, hclimb, hanc⟩ := ih (show n.parent < fuel by omega)
      refine ⟨n.parent :: outer, by simp [climb, parent?, hn, hclimb], ?_⟩
      rw [ancestors_known hf hn, hanc, List.getLast?_cons_cons]
      split <;> rfl

/-! ## Growth -/

lemma node?_lt_size {id : Nat} {n : Node} (h : f.node? id = some n) : id < f.size := by
  cases id with
  | zero => cases h
  | succ i =>
    obtain ⟨hi, _⟩ := List.getElem?_eq_some_iff.mp h
    exact Nat.succ_lt_succ hi

lemma mem_nodes_of_node? {id : Nat} {n : Node} (h : f.node? id = some n) : n ∈ f.nodes := by
  cases id with
  | zero => cases h
  | succ i => exact List.mem_of_getElem? h

lemma exists_node? {id : Nat} (hid : id ≠ 0) (h : id < f.size) : ∃ n, f.node? id = some n := by
  cases id with
  | zero => exact absurd rfl hid
  | succ i => exact ⟨_, List.getElem?_eq_getElem (Nat.lt_of_succ_lt_succ h)⟩

/-- The number that a node is listed with is the number it is found under. -/
lemma getElem?_numbered (f : Forest) (i : Nat) :
    f.numbered[i]? = (f.node? (i + 1)).map fun n => (n, i + 1) := by
  rw [numbered, List.getElem?_zipIdx, Nat.add_comm 1 i]
  rfl

variable {g : Forest}

lemma node?_of_isPrefix (h : f.nodes <+: g.nodes) {id : Nat} {n : Node}
    (hn : f.node? id = some n) : g.node? id = some n := by
  cases id with
  | zero => cases hn
  | succ i =>
    obtain ⟨more, hmore⟩ := h
    obtain ⟨hi, _⟩ := List.getElem?_eq_some_iff.mp hn
    rw [node?, ← hmore, List.getElem?_append_left hi]
    exact hn

lemma size_le_of_isPrefix (h : f.nodes <+: g.nodes) : f.size ≤ g.size :=
  Nat.succ_le_succ h.length_le

lemma Ordered.of_isPrefix (hg : g.Ordered) (h : f.nodes <+: g.nodes) : f.Ordered :=
  fun id n hn => hg id n (node?_of_isPrefix h hn)

/-- Opening more scopes does not change the walks from those that are there. -/
theorem ancestors_of_isPrefix (hg : g.Ordered) (h : f.nodes <+: g.nodes) {id : Nat}
    (hid : id < f.size) : g.ancestors id = f.ancestors id := by
  induction id using Nat.strongRecOn with
  | ind id ih =>
    by_cases hzero : id = 0
    · simp [hzero]
    · obtain ⟨n, hn⟩ := exists_node? hzero hid
      have hn' := node?_of_isPrefix h hn
      have hlt := hg id n hn'
      rw [ancestors_known hg hn', ancestors_known (hg.of_isPrefix h) hn,
        ih n.parent hlt (Nat.lt_trans hlt hid)]

/-- A node that names a scope of the forest is attached as it is. -/
lemma attached_eq {n : Node} (h : n.parent < f.size) : f.attached n = n := by
  rw [attached, if_pos h]

lemma parent_attached_lt (f : Forest) (n : Node) : (f.attached n).parent < f.size := by
  unfold attached
  split
  · assumption
  · exact Nat.succ_pos _

lemma nodes_isPrefix_add (f : Forest) (n : Node) : f.nodes <+: (f.add n).nodes :=
  List.prefix_append f.nodes [f.attached n]

@[simp] lemma size_add (f : Forest) (n : Node) : (f.add n).size = f.size + 1 := by
  simp [size, add]

lemma node?_add_size (f : Forest) (n : Node) :
    (f.add n).node? f.size = some (f.attached n) := by
  simp [node?, size, add]

lemma ordered_empty : Ordered {} := by
  intro id n h
  cases id with
  | zero => cases h
  | succ i => cases h

/-- A new scope stands in an earlier one, whatever scope it names. -/
lemma Ordered.add (hf : f.Ordered) (n : Node) : (f.add n).Ordered := by
  intro id m hm
  by_cases hid : id < f.size
  · by_cases hzero : id = 0
    · subst hzero
      cases hm
    · obtain ⟨n', hn'⟩ := exists_node? hzero hid
      have := node?_of_isPrefix (nodes_isPrefix_add f n) hn'
      rw [this] at hm
      cases hm
      exact hf id _ hn'
  · have hlt := node?_lt_size hm
    rw [size_add] at hlt
    have hsize : id = f.size := by omega
    subst hsize
    rw [node?_add_size] at hm
    cases hm
    exact parent_attached_lt f n

lemma ancestors_add_size (hf : f.Ordered) {n : Node} (hn : n.parent < f.size) :
    (f.add n).ancestors f.size = f.size :: f.ancestors n.parent := by
  have hadd := hf.add n
  rw [ancestors_known hadd (node?_add_size f n), attached_eq hn,
    ancestors_of_isPrefix hadd (nodes_isPrefix_add f n) hn]

/-! ## Sight -/

lemma sees_iff (f : Forest) (declared origin : Nat) :
    f.sees declared origin = true ↔ declared ∈ f.ancestors origin := by
  simp only [sees, Bool.or_eq_true, beq_iff_eq, List.contains_iff_mem]
  constructor
  · rintro (rfl | h)
    · exact zero_mem_ancestors f origin
    · exact h
  · exact Or.inr

theorem sees_refl (f : Forest) (id : Nat) : f.sees id id = true :=
  (sees_iff f id id).mpr (mem_ancestors_self f id)

theorem sees_trans (hf : f.Ordered) {a b c : Nat} (hab : f.sees a b = true)
    (hbc : f.sees b c = true) : f.sees a c = true := by
  rw [sees_iff] at hab hbc ⊢
  exact (ancestors_isSuffix hf hbc).subset hab

theorem sees_antisymm {a b : Nat} (hab : f.sees a b = true) (hba : f.sees b a = true) :
    a = b := by
  rw [sees_iff] at hab hba
  exact Nat.le_antisymm (le_of_mem_ancestors hab) (le_of_mem_ancestors hba)

end AsmLens.Scope.Forest
