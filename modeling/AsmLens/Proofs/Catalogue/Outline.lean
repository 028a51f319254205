import AsmLens.Catalogue.Build
import AsmLens.Catalogue.Outline
import AsmLens.Proofs.Scope.Opened
import Mathlib.Data.List.Perm.Basic
import Mathlib.Data.List.Sigma

/-!
# The outline loses and duplicates nothing

A symbol stands under the first owner of the nearest owned scope around it. A scope is numbered
above the scope it was opened in, so the number of the lexical scope falls from a symbol to the one
it stands under, and following these links upwards ends at the top after fewer steps than there are
symbols. The trees that are grown downwards along the links therefore hold every symbol once, and
the depth that bounds them is never reached.
-/

namespace AsmLens

/-! ## Trees grown along links -/

section Links

variable {α : Type} [DecidableEq α] (all : List α) (up : α → Option α)

/-- The items with a given link, in order. -/
def linked (target : Option α) : List α := all.filter fun a => up a = target

/-- An item and what is linked to it, directly or not, down to a depth. -/
def spread : Nat → α → List α
  | 0, a => [a]
  | depth + 1, a => a :: (linked all up (some a)).flatMap (spread depth)

variable {all up}

theorem mem_all_of_mem_spread {depth : Nat} {a b : α} (ha : a ∈ all)
    (h : b ∈ spread all up depth a) : b ∈ all := by
  induction depth generalizing a with
  | zero =>
    rw [List.mem_singleton.mp h]
    exact ha
  | succ depth ih =>
    rcases List.mem_cons.mp h with rfl | h
    · exact ha
    · obtain ⟨c, hc, hb⟩ := List.mem_flatMap.mp h
      exact ih (List.mem_of_mem_filter hc) hb

/-- Growing by one more level adds what is linked to the items that were there. -/
theorem spread_succ_perm (depth : Nat) (a : α) :
    (spread all up (depth + 1) a).Perm
      (a :: (spread all up depth a).flatMap fun b => linked all up (some b)) := by
  induction depth generalizing a with
  | zero => simp [spread]
  | succ depth ih =>
    let below := linked all up (some a)
    have hlevel : (below.flatMap (spread all up (depth + 1))).Perm
        (below ++ below.flatMap fun b =>
          (spread all up depth b).flatMap fun c => linked all up (some c)) := by
      refine (List.Perm.flatMap_left below fun b _ => ih b).trans ?_
      have happend := List.flatMap_append_perm below (fun b => [b])
        fun b => (spread all up depth b).flatMap fun c => linked all up (some c)
      simpa using happend.symm
    rw [spread, spread, List.flatMap_cons, List.flatMap_assoc]
    exact hlevel.cons a

variable (all up) in
/-- The trees over the items without a link, down to a depth. -/
def grown (depth : Nat) : List α := (linked all up none).flatMap (spread all up depth)

theorem grown_succ_perm (depth : Nat) :
    (grown all up (depth + 1)).Perm
      (linked all up none ++ (grown all up depth).flatMap fun b => linked all up (some b)) := by
  rw [grown, grown, List.flatMap_assoc]
  refine (List.Perm.flatMap_left _ fun a _ => spread_succ_perm depth a).trans ?_
  have happend := List.flatMap_append_perm (linked all up none) (fun a => [a])
    fun a => (spread all up depth a).flatMap fun b => linked all up (some b)
  simpa using happend.symm

theorem count_linked (hall : all.Nodup) {a : α} (ha : a ∈ all) (target : Option α) :
    (linked all up target).count a = if up a = target then 1 else 0 := by
  rw [linked]
  split
  · rename_i h
    rw [List.count_filter (by simpa using h), List.count_eq_one_of_mem hall ha]
  · rename_i h
    rw [List.count_eq_zero]
    intro hmem
    exact h (by simpa using List.of_mem_filter hmem)

/-- An item occurs among what is linked to a list as often as its own link occurs in the list. -/
theorem count_flatMap_linked (hall : all.Nodup) {a : α} (ha : a ∈ all) (l : List α) :
    (l.flatMap fun b => linked all up (some b)).count a =
      match up a with
      | none => 0
      | some b => l.count b := by
  induction l with
  | nil => cases up a <;> rfl
  | cons c l ih =>
    rw [List.flatMap_cons, List.count_append, ih, count_linked hall ha]
    cases hup : up a with
    | none => simp
    | some b =>
      by_cases hbc : b = c
      · simp [hbc, Nat.add_comm]
      · have hne : c ≠ b := fun h => hbc h.symm
        simp [hbc, List.count_cons_of_ne hne]

/-- The links lead to items and fall in rank. -/
def Falling (all : List α) (up : α → Option α) (rank : α → Nat) : Prop :=
  ∀ a ∈ all, ∀ b, up a = some b → b ∈ all ∧ rank b < rank a

theorem count_grown {rank : α → Nat} (hall : all.Nodup) (hup : Falling all up rank) {depth : Nat}
    {a : α} (ha : a ∈ all) (hrank : rank a ≤ depth) : (grown all up depth).count a = 1 := by
  induction depth generalizing a with
  | zero =>
    have htop : up a = none := by
      cases h : up a with
      | none => rfl
      | some b =>
        have := (hup a ha b h).2
        omega
    have hgrown : grown all up 0 = linked all up none := by simp [grown, spread]
    rw [hgrown, count_linked hall ha, if_pos htop]
  | succ depth ih =>
    rw [(grown_succ_perm depth).count_eq, List.count_append, count_linked hall ha,
      count_flatMap_linked hall ha]
    cases h : up a with
    | none => simp
    | some b =>
      obtain ⟨hb, hlt⟩ := hup a ha b h
      have := ih hb (by omega)
      simpa using this

/-- Trees grown deeply enough hold every item once. -/
theorem grown_perm {rank : α → Nat} (hall : all.Nodup) (hup : Falling all up rank) {depth : Nat}
    (hrank : ∀ a ∈ all, rank a ≤ depth) : (grown all up depth).Perm all := by
  rw [List.perm_iff_count]
  intro a
  by_cases ha : a ∈ all
  · rw [count_grown hall hup ha (hrank a ha), List.count_eq_one_of_mem hall ha]
  · have hout : a ∉ grown all up depth := by
      intro h
      obtain ⟨b, hb, hab⟩ := List.mem_flatMap.mp h
      exact ha (mem_all_of_mem_spread (List.mem_of_mem_filter hb) hab)
    rw [List.count_eq_zero.mpr ha, List.count_eq_zero.mpr hout]

end Links

namespace Outline

/-! ## Who stands under whom -/

section Standing

variable (f : Scope.Forest) (symbols : List Symbol)

/-- No symbol owns the scope. -/
def Unowned (scope : Nat) : Prop := ∀ o ∈ symbols, ownedScope? f o ≠ some scope

/-- The symbol at index `p` owns the scope, and no symbol in front of it does. -/
def FirstOwner (scope p : Nat) : Prop :=
  ∃ o, symbols[p]? = some o ∧ ownedScope? f o = some scope ∧ Unowned f (symbols.take p) scope

/-- The nearest owned scope around a symbol belongs to the symbol at index `p`. -/
def StandsUnder (s : Symbol) (p : Nat) : Prop :=
  ∃ inner scope outer, f.ancestors s.lexicalScope = inner ++ scope :: outer ∧
    FirstOwner f symbols scope p ∧ ∀ t ∈ inner, Unowned f symbols t

/-- No scope around a symbol is owned. -/
def StandsFree (s : Symbol) : Prop := ∀ t ∈ f.ancestors s.lexicalScope, Unowned f symbols t

variable {f symbols}

theorem owner?_eq_none_iff {scope : Nat} :
    owner? f symbols scope = none ↔ Unowned f symbols scope := by
  simp [owner?, Unowned]

theorem owner?_eq_some_iff {scope p : Nat} :
    owner? f symbols scope = some p ↔ FirstOwner f symbols scope p := by
  rw [owner?, List.findIdx?_eq_some_iff_getElem]
  constructor
  · rintro ⟨hp, howns, hfirst⟩
    refine ⟨symbols[p], List.getElem?_eq_getElem hp, by simpa using howns, ?_⟩
    intro o ho
    obtain ⟨q, hq, rfl⟩ := List.mem_take_iff_getElem.mp ho
    simpa using hfirst q (by omega)
  · rintro ⟨o, ho, howns, hfirst⟩
    obtain ⟨hp, rfl⟩ := List.getElem?_eq_some_iff.mp ho
    refine ⟨hp, by simpa using howns, ?_⟩
    intro q hq
    have hmem : symbols[q] ∈ symbols.take p := List.mem_take_iff_getElem.mpr ⟨q, by omega, rfl⟩
    simpa using hfirst _ hmem

/-- A scope that a symbol owns is numbered above the one that the symbol stands in. -/
theorem lexicalScope_lt_of_owned (hf : f.Ordered) {o : Symbol} {scope : Nat}
    (h : ownedScope? f o = some scope) : o.lexicalScope < scope := by
  obtain ⟨kind, _, hopened⟩ := Option.bind_eq_some_iff.mp h
  obtain ⟨n, hn, _, _, hparent, _⟩ := Scope.Forest.node?_of_openedBy hopened
  rw [← hparent]
  exact hf scope n hn

/-- No symbol owns a scope around itself, so that leaving the symbol itself out changes nothing. -/
theorem container?_eq (hf : f.Ordered) {i : Nat} {s : Symbol} (hs : symbols[i]? = some s) :
    container? f symbols i s = (f.ancestors s.lexicalScope).findSome? (owner? f symbols) := by
  rw [container?, ← List.head?_filterMap, ← List.head?_filterMap]
  refine congrArg List.head? (List.filterMap_congr ?_)
  intro scope hscope
  cases howner : owner? f symbols scope with
  | none => rfl
  | some p =>
    have hne : p ≠ i := by
      rintro rfl
      obtain ⟨o, ho, howned, _⟩ := owner?_eq_some_iff.mp howner
      cases hs.symm.trans ho
      have hlt := lexicalScope_lt_of_owned hf howned
      have hle := Scope.Forest.le_of_mem_ancestors hscope
      omega
    simp [hne]

theorem container?_eq_some_iff (hf : f.Ordered) {i p : Nat} {s : Symbol}
    (hs : symbols[i]? = some s) :
    container? f symbols i s = some p ↔ StandsUnder f symbols s p := by
  simp only [container?_eq hf hs, List.findSome?_eq_some_iff, owner?_eq_some_iff,
    owner?_eq_none_iff, StandsUnder]

theorem container?_eq_none_iff (hf : f.Ordered) {i : Nat} {s : Symbol}
    (hs : symbols[i]? = some s) : container? f symbols i s = none ↔ StandsFree f symbols s := by
  simp only [container?_eq hf hs, List.findSome?_eq_none_iff, owner?_eq_none_iff, StandsFree]

theorem StandsUnder.lexicalScope_lt (hf : f.Ordered) {s : Symbol} {p : Nat}
    (h : StandsUnder f symbols s p) :
    ∃ o, symbols[p]? = some o ∧ o.lexicalScope < s.lexicalScope := by
  obtain ⟨inner, scope, outer, hwalk, ⟨o, ho, howned, _⟩, _⟩ := h
  refine ⟨o, ho, ?_⟩
  have hlt := lexicalScope_lt_of_owned hf howned
  have hmem : scope ∈ f.ancestors s.lexicalScope := by simp [hwalk]
  have hle := Scope.Forest.le_of_mem_ancestors hmem
  omega

end Standing

/-! ## The links between the symbols of a file -/

section Linking

variable (f : Scope.Forest) (symbols : List Symbol)

/-- The symbol under which a symbol stands, with its index. -/
def link (e : Symbol × Nat) : Option (Symbol × Nat) :=
  (container? f symbols e.2 e.1).bind (symbols.zipIdx[·]?)

/-- The number of symbols that stand in an earlier scope. -/
def rank (e : Symbol × Nat) : Nat :=
  (symbols.filter fun s => s.lexicalScope < e.1.lexicalScope).length

variable {f symbols}

theorem getElem?_zipIdx_of_mem {e : Symbol × Nat} (he : e ∈ symbols.zipIdx) :
    symbols.zipIdx[e.2]? = some e := by
  rw [List.getElem?_zipIdx, List.mem_zipIdx_iff_getElem?.mp he]
  simp

theorem link_eq_some_iff {e a : Symbol × Nat} (ha : a ∈ symbols.zipIdx) :
    link f symbols e = some a ↔ container? f symbols e.2 e.1 = some a.2 := by
  rw [link, Option.bind_eq_some_iff]
  constructor
  · rintro ⟨p, hp, hget⟩
    rw [List.getElem?_zipIdx] at hget
    obtain ⟨o, _, rfl⟩ := Option.map_eq_some_iff.mp hget
    simpa using hp
  · intro h
    exact ⟨a.2, h, getElem?_zipIdx_of_mem ha⟩

theorem link_eq_none_iff (hf : f.Ordered) {e : Symbol × Nat} (he : e ∈ symbols.zipIdx) :
    link f symbols e = none ↔ container? f symbols e.2 e.1 = none := by
  cases h : container? f symbols e.2 e.1 with
  | none => simp [link, h]
  | some p =>
    have hstands := (container?_eq_some_iff hf (List.mem_zipIdx_iff_getElem?.mp he)).mp h
    obtain ⟨o, ho, _⟩ := hstands.lexicalScope_lt hf
    simp [link, h, List.getElem?_zipIdx, ho]

theorem linked_some {a : Symbol × Nat} (ha : a ∈ symbols.zipIdx) :
    linked symbols.zipIdx (link f symbols) (some a) = under f symbols (some a.2) := by
  refine List.filter_congr ?_
  intro e _
  rw [decide_eq_decide.mpr (link_eq_some_iff ha)]
  exact (beq_eq_decide _ _).symm

theorem linked_none (hf : f.Ordered) :
    linked symbols.zipIdx (link f symbols) none = under f symbols none := by
  refine List.filter_congr ?_
  intro e he
  rw [decide_eq_decide.mpr (link_eq_none_iff hf he)]
  exact (beq_eq_decide _ _).symm

theorem rank_lt_length {e : Symbol × Nat} (he : e ∈ symbols.zipIdx) :
    rank symbols e < symbols.length := by
  refine List.length_filter_lt_length_iff_exists.mpr ⟨e.1, ?_, by simp⟩
  exact List.mem_of_getElem? (List.mem_zipIdx_iff_getElem?.mp he)

theorem rank_lt_rank {a e : Symbol × Nat} (ha : a ∈ symbols.zipIdx)
    (h : a.1.lexicalScope < e.1.lexicalScope) : rank symbols a < rank symbols e := by
  -- what stands before `a` also stands before `e`, and `a` itself stands before `e` only
  have hsub : (symbols.filter fun s => decide (s.lexicalScope < a.1.lexicalScope)) =
      (symbols.filter fun s => decide (s.lexicalScope < e.1.lexicalScope)).filter
        fun s => decide (s.lexicalScope < a.1.lexicalScope) := by
    rw [List.filter_filter]
    refine List.filter_congr fun s _ => ?_
    rw [Bool.eq_iff_iff, Bool.and_eq_true, decide_eq_true_eq, decide_eq_true_eq]
    omega
  rw [rank, rank, hsub]
  refine List.length_filter_lt_length_iff_exists.mpr ⟨a.1, ?_, by simp⟩
  have hmem := List.mem_of_getElem? (List.mem_zipIdx_iff_getElem?.mp ha)
  exact List.mem_filter.mpr ⟨hmem, by simpa using h⟩

theorem link_falling (hf : f.Ordered) :
    Falling symbols.zipIdx (link f symbols) (rank symbols) := by
  intro e he a ha
  have hmem : a ∈ symbols.zipIdx := by
    obtain ⟨p, _, hp⟩ := Option.bind_eq_some_iff.mp ha
    exact List.mem_of_getElem? hp
  refine ⟨hmem, rank_lt_rank hmem ?_⟩
  have hstands := (container?_eq_some_iff hf (List.mem_zipIdx_iff_getElem?.mp he)).mp
    ((link_eq_some_iff hmem).mp ha)
  obtain ⟨o, ho, hlt⟩ := hstands.lexicalScope_lt hf
  cases (List.mem_zipIdx_iff_getElem?.mp hmem).symm.trans ho
  exact hlt

end Linking

/-! ## The forest behind an outline -/

/-- A symbol with its index among the symbols of the file, and what is nested in it. -/
inductive Nesting where
  | node (entry : Symbol × Nat) (children : List Nesting)

namespace Nesting

def entry : Nesting → Symbol × Nat
  | node e _ => e

def children : Nesting → List Nesting
  | node _ cs => cs

/-- A nesting without the indices. -/
def outline : Nesting → OutlineNode
  | node e cs => .node e.1 (cs.map outline)

/-- A nesting, what is nested in it, and so on. -/
def subtrees : Nesting → List Nesting
  | node e cs => node e cs :: cs.flatMap subtrees

end Nesting

section Nested

variable (f : Scope.Forest) (symbols : List Symbol)

/-- The tree below a symbol with the indices of the symbols. -/
def nest : Nat → Symbol × Nat → Nesting
  | 0, e => .node e []
  | depth + 1, e => .node e ((under f symbols (some e.2)).map (nest depth))

variable {f symbols}

theorem entry_nest (depth : Nat) (e : Symbol × Nat) : (nest f symbols depth e).entry = e := by
  cases depth <;> rfl

theorem map_entry_nest (depth : Nat) (es : List (Symbol × Nat)) :
    (es.map (nest f symbols depth)).map Nesting.entry = es := by
  rw [List.map_map]
  exact (List.map_congr_left fun e _ => entry_nest depth e).trans (List.map_id es)

theorem outline_nest (depth : Nat) (e : Symbol × Nat) :
    (nest f symbols depth e).outline = tree f symbols depth e := by
  induction depth generalizing e with
  | zero => rw [nest, tree, Nesting.outline, List.map_nil]
  | succ depth ih =>
    rw [nest, tree, Nesting.outline, List.map_map]
    exact congrArg _ (List.map_congr_left fun a _ => ih a)

theorem map_entry_subtrees_nest (depth : Nat) {e : Symbol × Nat} (he : e ∈ symbols.zipIdx) :
    (nest f symbols depth e).subtrees.map Nesting.entry =
      spread symbols.zipIdx (link f symbols) depth e := by
  induction depth generalizing e with
  | zero => simp [nest, Nesting.subtrees, Nesting.entry, spread]
  | succ depth ih =>
    rw [nest, Nesting.subtrees, spread, linked_some he, List.map_cons, List.flatMap_map,
      List.map_flatMap]
    refine congrArg _ (List.flatMap_congr ?_)
    intro a ha
    exact ih (List.mem_of_mem_filter ha)

/-- The depth is never used up: every tree in a nesting has all that stands under its symbol. -/
theorem children_of_mem_subtrees (hf : f.Ordered) {depth : Nat} {e : Symbol × Nat}
    (he : e ∈ symbols.zipIdx) (hdepth : symbols.length ≤ rank symbols e + depth) {n : Nesting}
    (hn : n ∈ (nest f symbols depth e).subtrees) :
    n.children.map Nesting.entry = under f symbols (some n.entry.2) := by
  induction depth generalizing e with
  | zero =>
    have := rank_lt_length he
    omega
  | succ depth ih =>
    rw [nest, Nesting.subtrees] at hn
    rcases List.mem_cons.mp hn with rfl | hn
    · exact map_entry_nest depth _
    · rw [List.flatMap_map] at hn
      obtain ⟨a, ha, hn⟩ := List.mem_flatMap.mp hn
      have hmem := List.mem_of_mem_filter ha
      rw [← linked_some he] at ha
      have hlink : link f symbols a = some e := by simpa using List.of_mem_filter ha
      have := (link_falling hf a hmem e hlink).2
      exact ih hmem (by omega) hn

end Nested

/-- A forest shows every symbol once, in the order of the symbols among those at the top and among
those directly in one symbol, and each symbol where it stands. -/
structure Shows (f : Scope.Forest) (symbols : List Symbol) (forest : List Nesting) : Prop where
  once : ((forest.flatMap Nesting.subtrees).map Nesting.entry).Perm symbols.zipIdx
  rootsOrdered : (forest.map Nesting.entry).Sublist symbols.zipIdx
  childrenOrdered : ∀ n ∈ forest.flatMap Nesting.subtrees,
    (n.children.map Nesting.entry).Sublist symbols.zipIdx
  roots : ∀ e ∈ symbols.zipIdx, e ∈ forest.map Nesting.entry ↔ StandsFree f symbols e.1
  children : ∀ n ∈ forest.flatMap Nesting.subtrees, ∀ e ∈ symbols.zipIdx,
    e ∈ n.children.map Nesting.entry ↔ StandsUnder f symbols e.1 n.entry.2

theorem mem_under_iff {f : Scope.Forest} {symbols : List Symbol} {e : Symbol × Nat}
    (he : e ∈ symbols.zipIdx) (container : Option Nat) :
    e ∈ under f symbols container ↔ container? f symbols e.2 e.1 = container := by
  simp [under, he]

theorem nest_shows {f : Scope.Forest} (hf : f.Ordered) (symbols : List Symbol) :
    Shows f symbols ((under f symbols none).map (nest f symbols symbols.length)) := by
  have hroot : ∀ e ∈ under f symbols none, e ∈ symbols.zipIdx :=
    fun e he => List.mem_of_mem_filter he
  have hchildren : ∀ n ∈
      ((under f symbols none).map (nest f symbols symbols.length)).flatMap Nesting.subtrees,
      n.children.map Nesting.entry = under f symbols (some n.entry.2) := by
    intro n hn
    rw [List.flatMap_map] at hn
    obtain ⟨e, he, hn⟩ := List.mem_flatMap.mp hn
    exact children_of_mem_subtrees hf (hroot e he) (by omega) hn
  refine ⟨?_, ?_, ?_, ?_, ?_⟩
  · have hgrown : (((under f symbols none).map (nest f symbols symbols.length)).flatMap
        Nesting.subtrees).map Nesting.entry =
        grown symbols.zipIdx (link f symbols) symbols.length := by
      rw [grown, linked_none hf, List.flatMap_map, List.map_flatMap]
      exact List.flatMap_congr fun e he => map_entry_subtrees_nest _ (hroot e he)
    have hnodup : symbols.zipIdx.Nodup := (List.nodup_zipIdx_map_snd symbols).of_map Prod.snd
    rw [hgrown]
    exact grown_perm hnodup (link_falling hf) fun e he => (rank_lt_length he).le
  · rw [map_entry_nest]
    exact List.filter_sublist
  · intro n hn
    rw [hchildren n hn]
    exact List.filter_sublist
  · intro e he
    rw [map_entry_nest, mem_under_iff he,
      container?_eq_none_iff hf (List.mem_zipIdx_iff_getElem?.mp he)]
  · intro n hn e he
    rw [hchildren n hn, mem_under_iff he,
      container?_eq_some_iff hf (List.mem_zipIdx_iff_getElem?.mp he)]

/-- The outline of a file in a built catalogue shows the symbols of the file that are neither built
in nor parameters. -/
theorem ofFile_shows_symbols (r : Report) (listings : List Scope.Listing)
    (sheets : List Scope.Sheet) (file : Nat) :
    let c := Catalogue.build r listings (Scope.surveyAll {} sheets).2
    let symbols := (c.inFile file).filter fun s => s.category != .parameter
    ∃ forest, ofFile c file = forest.map Nesting.outline ∧ Shows c.forest symbols forest := by
  intro c symbols
  have hf : c.forest.Ordered := (Scope.surveyAll_grows Scope.Forest.ordered_empty sheets).1
  refine ⟨_, ?_, nest_shows hf symbols⟩
  rw [ofFile, List.map_map]
  exact (List.map_congr_left fun e _ => outline_nest symbols.length e).symm

end Outline

end AsmLens
