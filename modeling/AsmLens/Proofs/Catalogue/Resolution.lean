import AsmLens.Proofs.Catalogue.Declared
import AsmLens.Proofs.Catalogue.NameIndex
import AsmLens.Proofs.Scope.Survey
import Mathlib.Data.List.Basic

/-!
# Resolution is a walk outwards

The candidates for a name are all its visible declarations, sorted by depth. The scopes on a walk
outwards lie at different depths, and what is visible everywhere is declared in the global scope,
so the sorted candidates are what the scopes on the walk declare, one scope after the other.

A stable sort is a concatenation of buckets whenever the buckets can be told apart by the order.
-/

namespace AsmLens.Catalogue

section Buckets

variable {α κ : Type} {le : α → α → Bool}
  (htrans : ∀ a b c, le a b = true → le b c = true → le a c = true)
  (htotal : ∀ a b, (le a b || le b a) = true)

include htrans htotal

/-- A stable sort inserts an element in front of the first one that it may precede. -/
lemma mergeSort_cons_eq (a : α) (l : List α) :
    (a :: l).mergeSort le =
      (l.mergeSort le).takeWhile (!le a ·) ++ a :: (l.mergeSort le).dropWhile (!le a ·) := by
  obtain ⟨front, back, hcons, hl, hfront⟩ := List.mergeSort_cons htrans htotal a l
  have hsorted := List.pairwise_mergeSort htrans htotal (a :: l)
  rw [hcons] at hsorted
  have hback : ∀ b ∈ back, le a b = true :=
    (List.pairwise_cons.mp (List.pairwise_append.mp hsorted).2.1).1
  rw [hcons, hl, List.takeWhile_append_of_pos hfront, List.dropWhile_append_of_pos hfront]
  cases back with
  | nil => simp
  | cons b back => simp [hback b List.mem_cons_self]

/-- The elements that may precede all the others, and that no other one may precede, come out first
and in their order. -/
lemma mergeSort_eq_filter_append (p : α → Bool) (l : List α)
    (hfirst : ∀ a ∈ l, p a = true → ∀ b ∈ l, le a b = true)
    (hothers : ∀ a ∈ l, p a = true → ∀ b ∈ l, p b = false → le b a = false) :
    l.mergeSort le = l.filter p ++ (l.filter (!p ·)).mergeSort le := by
  induction l with
  | nil => simp
  | cons a l ih =>
    have hsorted := ih
      (fun b hb hp c hc => hfirst b (List.mem_cons_of_mem a hb) hp c (List.mem_cons_of_mem a hc))
      (fun b hb hp c hc => hothers b (List.mem_cons_of_mem a hb) hp c (List.mem_cons_of_mem a hc))
    cases hp : p a with
    | true =>
      have hle : ∀ b ∈ l.mergeSort le, le a b = true := fun b hb =>
        hfirst a List.mem_cons_self hp b (List.mem_cons_of_mem a (List.mem_mergeSort.mp hb))
      have htake : (l.mergeSort le).takeWhile (!le a ·) = [] := by
        cases h : l.mergeSort le with
        | nil => rfl
        | cons b rest => simp [hle b (by simp [h])]
      have hdrop := List.takeWhile_append_dropWhile (p := (!le a ·)) (l := l.mergeSort le)
      rw [htake, List.nil_append] at hdrop
      rw [mergeSort_cons_eq htrans htotal, htake, hdrop, hsorted]
      simp [hp]
    | false =>
      have hgt : ∀ b ∈ l.filter p, (!le a b) = true := by
        intro b hb
        obtain ⟨hmem, hpb⟩ := List.mem_filter.mp hb
        rw [hothers b (List.mem_cons_of_mem a hmem) hpb a List.mem_cons_self hp]
        rfl
      have hrest : (a :: l).filter (!p ·) = a :: l.filter (!p ·) := by simp [hp]
      rw [mergeSort_cons_eq htrans htotal, hsorted, List.takeWhile_append_of_pos hgt,
        List.dropWhile_append_of_pos hgt, hrest, mergeSort_cons_eq htrans htotal]
      simp [hp]

/-- A list whose keys the order tells apart is sorted into one bucket for each key. -/
theorem mergeSort_eq_flatMap [DecidableEq κ] (key : α → κ)
    (hsame : ∀ a b, key a = key b → le a b = true) (keys : List κ)
    (hkeys : keys.Pairwise fun k m => ∀ a b, key a = k → key b = m →
      le a b = true ∧ le b a = false)
    (l : List α) (hl : ∀ a ∈ l, key a ∈ keys) :
    l.mergeSort le = keys.flatMap fun k => l.filter (key · = k) := by
  induction keys generalizing l with
  | nil =>
    have hnil : l = [] := List.eq_nil_iff_forall_not_mem.mpr fun a ha => nomatch hl a ha
    simp [hnil]
  | cons k keys ih =>
    obtain ⟨hk, htail⟩ := List.pairwise_cons.mp hkeys
    have hlater : ∀ b ∈ l, key b ≠ k → key b ∈ keys := fun b hb hne =>
      (List.mem_cons.mp (hl b hb)).resolve_left hne
    have hbucket := mergeSort_eq_filter_append htrans htotal (fun a => decide (key a = k)) l
      (by
        intro a _ ha b hb
        have hka : key a = k := of_decide_eq_true ha
        by_cases hkb : key b = k
        · exact hsame a b (hka.trans hkb.symm)
        · exact (hk (key b) (hlater b hb hkb) a b hka rfl).1)
      (by
        intro a _ ha b hb hne
        exact (hk (key b) (hlater b hb (of_decide_eq_false hne)) a b (of_decide_eq_true ha) rfl).2)
    have hrest := ih htail (l.filter fun a => !decide (key a = k)) (by
      intro a ha
      obtain ⟨hmem, hne⟩ := List.mem_filter.mp ha
      exact hlater a hmem (by simpa using hne))
    rw [hbucket, hrest, List.flatMap_cons]
    refine congrArg (l.filter (key · = k) ++ ·) (List.flatMap_congr fun m hm => ?_)
    rw [List.filter_filter]
    refine List.filter_congr fun a _ => ?_
    by_cases ham : key a = m
    · have hne : key a ≠ k := by
        intro hak
        have := hk m hm a a hak ham
        simp [this.1] at this
      simp [hne]
    · simp [ham]

end Buckets

/-! ## The order of the candidates -/

variable {c : Catalogue}

lemma precedes_iff (c : Catalogue) (s t : Symbol) : c.precedes s t = true ↔
    c.forest.depth t.scope < c.forest.depth s.scope ∨
      c.forest.depth s.scope = c.forest.depth t.scope ∧
        (s.isBuiltin = true → t.isBuiltin = true) := by
  cases hs : s.isBuiltin <;> cases ht : t.isBuiltin <;> simp [precedes, hs, ht]

lemma precedes_trans (c : Catalogue) (s t u : Symbol) (hst : c.precedes s t = true)
    (htu : c.precedes t u = true) : c.precedes s u = true := by
  rw [precedes_iff] at hst htu ⊢
  rcases hst with hst | ⟨hst, hbst⟩ <;> rcases htu with htu | ⟨htu, hbtu⟩
  · exact Or.inl (Nat.lt_trans htu hst)
  · exact Or.inl (htu ▸ hst)
  · exact Or.inl (hst ▸ htu)
  · exact Or.inr ⟨hst.trans htu, fun h => hbtu (hbst h)⟩

lemma precedes_total (c : Catalogue) (s t : Symbol) :
    (c.precedes s t || c.precedes t s) = true := by
  rw [Bool.or_eq_true, precedes_iff, precedes_iff]
  rcases Nat.lt_trichotomy (c.forest.depth s.scope) (c.forest.depth t.scope) with h | h | h
  · exact Or.inr (Or.inl h)
  · by_cases hs : s.isBuiltin = true
    · exact Or.inr (Or.inr ⟨h.symm, fun _ => hs⟩)
    · exact Or.inl (Or.inr ⟨h, fun hs' => absurd hs' hs⟩)
  · exact Or.inl (Or.inl h)

lemma precedes_strict {s t : Symbol}
    (h : c.forest.depth t.scope < c.forest.depth s.scope ∨
      c.forest.depth s.scope = c.forest.depth t.scope ∧
        s.isBuiltin = false ∧ t.isBuiltin = true) :
    c.precedes s t = true ∧ c.precedes t s = false := by
  rw [← Bool.not_eq_true, precedes_iff, precedes_iff]
  rcases h with h | ⟨h, hs, ht⟩
  · exact ⟨Or.inl h, by omega⟩
  · refine ⟨Or.inr ⟨h, fun _ => ht⟩, ?_⟩
    rintro (hlt | ⟨_, hbuiltin⟩)
    · omega
    · simp [hs, ht] at hbuiltin

/-- The scopes of a walk, each once for what is declared there and once for what is built in. -/
def places (f : Scope.Forest) (scope : Nat) : List (Nat × Bool) :=
  (f.ancestors scope).flatMap fun s => [(s, false), (s, true)]

/-- The order tells the places on a walk apart. -/
lemma pairwise_places (hf : c.forest.Ordered) (scope : Nat) :
    (places c.forest scope).Pairwise fun k m => ∀ s t : Symbol,
      (s.scope, s.isBuiltin) = k → (t.scope, t.isBuiltin) = m →
        c.precedes s t = true ∧ c.precedes t s = false := by
  refine List.pairwise_flatMap.mpr ⟨?_, ?_⟩
  · intro a _
    refine List.pairwise_pair.mpr fun s t hs ht => ?_
    obtain ⟨hscope, hdeclared⟩ := Prod.mk.inj hs
    obtain ⟨hscope', hbuiltin⟩ := Prod.mk.inj ht
    refine precedes_strict (Or.inr ⟨?_, hdeclared, hbuiltin⟩)
    rw [hscope, hscope']
  · refine (Scope.Forest.pairwise_depth_ancestors hf scope).imp ?_
    intro a b hdepth k hk m hm s t hs ht
    have hsa : s.scope = a := by
      simp only [List.mem_cons, List.not_mem_nil, or_false] at hk
      rcases hk with rfl | rfl <;> exact congrArg Prod.fst hs
    have htb : t.scope = b := by
      simp only [List.mem_cons, List.not_mem_nil, or_false] at hm
      rcases hm with rfl | rfl <;> exact congrArg Prod.fst ht
    rw [← hsa, ← htb] at hdepth
    exact precedes_strict (Or.inl hdepth)

/-! ## What a scope declares -/

/-- The declarations of a name in a scope, the built-in ones last. -/
def declaredIn (c : Catalogue) (name : Text) (scope : Nat) : List Symbol :=
  let here := c.symbols.filter fun s => s.name == name && s.scope == scope
  here.filter (!·.isBuiltin) ++ here.filter (·.isBuiltin)

/-- What is visible everywhere is declared in the global scope. -/
def Rooted (c : Catalogue) : Prop :=
  ∀ s ∈ c.symbols, s.isGlobal = true ∨ s.isBuiltin = true → s.scope = 0

lemma mem_declaredIn {name : Text} {scope : Nat} {s : Symbol} :
    s ∈ c.declaredIn name scope ↔ s ∈ c.symbols ∧ s.name = name ∧ s.scope = scope := by
  cases h : s.isBuiltin <;> simp [declaredIn, h]

lemma parameterSymbols_local {span : Span} {isMain : Bool} {body : Nat} {ps : List Parameter}
    {s : Symbol} (h : s ∈ parameterSymbols span isMain body ps) :
    s.isGlobal = false ∧ s.isBuiltin = false := by
  obtain ⟨p, _, rfl⟩ := List.mem_map.mp h
  exact ⟨rfl, rfl⟩

lemma symbolsOf_rooted {f : Scope.Forest} {isMain : Bool} {file line column scope : Nat}
    {d : Declaration} {doc : Option Doc} {s : Symbol}
    (h : s ∈ symbolsOf f isMain file line column scope d doc) :
    s.isBuiltin = false ∧ (s.isGlobal = true → s.scope = 0) := by
  rw [symbolsOf_eq] at h
  rcases List.mem_append.mp h with hparameter | hown
  · split at hparameter
    · obtain ⟨hglobal, hbuiltin⟩ := parameterSymbols_local hparameter
      exact ⟨hbuiltin, fun htrue => by simp [hglobal] at htrue⟩
    · cases hparameter
  · cases List.mem_singleton.mp hown
    exact ⟨rfl, fun hhoisted => if_pos hhoisted⟩

lemma declared_rooted {r : Report} {listings : List Scope.Listing} {f : Scope.Forest} {s : Symbol}
    (h : s ∈ declared r listings f) :
    s.isBuiltin = false ∧ (s.isGlobal = true → s.scope = 0) := by
  obtain ⟨⟨listing, span⟩, _, hs⟩ := List.mem_flatMap.mp h
  simp only [declaredAt] at hs
  split at hs
  · cases hs
  · split at hs
    · cases hs
    · exact symbolsOf_rooted hs

lemma provided_scope {r : Report} {s : Symbol} (h : s ∈ provided r) : s.scope = 0 := by
  obtain ⟨e, _, he⟩ := List.mem_filterMap.mp h
  obtain ⟨kind, _, rfl⟩ := Option.map_eq_some_iff.mp he
  rfl

theorem build_rooted (r : Report) (listings : List Scope.Listing) (f : Scope.Forest) :
    (build r listings f).Rooted := by
  intro s hs heverywhere
  rcases List.mem_append.mp hs with hdeclared | hprovided
  · obtain ⟨hbuiltin, hglobal⟩ := declared_rooted hdeclared
    rcases heverywhere with h | h
    · exact hglobal h
    · simp [hbuiltin] at h
  · exact provided_scope hprovided

lemma Rooted.isVisible_iff (hc : c.Rooted) {s : Symbol} (hs : s ∈ c.symbols) (scope : Nat) :
    c.isVisible scope s = true ↔ s.scope ∈ c.forest.ancestors scope := by
  rw [isVisible, Bool.or_eq_true, Bool.or_eq_true, Scope.Forest.sees_iff]
  constructor
  · rintro (heverywhere | h)
    · rw [hc s hs heverywhere]
      exact Scope.Forest.zero_mem_ancestors c.forest scope
    · exact h
  · exact Or.inr

/-! ## Resolution -/

/-- On a walk, the candidates at a place are the declarations there. -/
lemma Rooted.filter_place (hc : c.Rooted) {name : Text} {scope a : Nat}
    (ha : a ∈ c.forest.ancestors scope) (builtin : Bool) :
    ((c.named name).filter (c.isVisible scope)).filter
        (fun s => (s.scope, s.isBuiltin) = (a, builtin)) =
      (c.symbols.filter fun s => s.name == name && s.scope == a).filter
        (·.isBuiltin == builtin) := by
  simp only [named_eq, List.filter_filter]
  refine List.filter_congr fun s hs => ?_
  have hvisible := hc.isVisible_iff hs scope
  by_cases hscope : s.scope = a
  · have htrue : c.isVisible scope s = true := hvisible.mpr (hscope ▸ ha)
    simp [hscope, htrue, Bool.beq_eq_decide_eq, Bool.and_comm]
  · simp [hscope]

/-- The candidates for a name are what the scopes of the walk outwards declare. -/
theorem resolveAll_eq (hc : c.Rooted) (hf : c.forest.Ordered) (name : Text) (scope : Nat) :
    c.resolveAll name scope = (c.forest.ancestors scope).flatMap (c.declaredIn name) := by
  have hsorted : c.resolveAll name scope = (places c.forest scope).flatMap fun k =>
      ((c.named name).filter (c.isVisible scope)).filter fun s => (s.scope, s.isBuiltin) = k := by
    refine mergeSort_eq_flatMap c.precedes_trans c.precedes_total _ ?_ _ (pairwise_places hf scope)
      _ ?_
    · intro s t hst
      obtain ⟨hscope, hbuiltin⟩ := Prod.mk.inj hst
      exact (precedes_iff c s t).mpr (Or.inr ⟨by rw [hscope], fun h => hbuiltin ▸ h⟩)
    · intro s hs
      obtain ⟨hnamed, hvisible⟩ := List.mem_filter.mp hs
      have hwalk := (hc.isVisible_iff (mem_of_mem_named hnamed) scope).mp hvisible
      refine List.mem_flatMap.mpr ⟨s.scope, hwalk, ?_⟩
      cases s.isBuiltin <;> simp
  rw [hsorted, places, List.flatMap_assoc]
  refine List.flatMap_congr fun a ha => ?_
  simp only [List.flatMap_cons, List.flatMap_nil, List.append_nil, hc.filter_place ha]
  simp only [declaredIn, beq_true, beq_false]

lemma resolve?_eq (hc : c.Rooted) (hf : c.forest.Ordered) (name : Text) (scope : Nat) :
    c.resolve? name scope =
      (c.forest.ancestors scope).findSome? fun a => (c.declaredIn name a).head? := by
  rw [resolve?, resolveAll_eq hc hf, List.head?_flatMap]

lemma head?_declaredIn_eq_none {name : Text} {scope : Nat} :
    (c.declaredIn name scope).head? = none ↔
      ∀ t ∈ c.symbols, t.name = name → t.scope ≠ scope := by
  rw [List.head?_eq_none_iff, List.eq_nil_iff_forall_not_mem]
  simp only [mem_declaredIn, not_and, ne_eq]

/-- A name means a declaration in the first scope of the walk that declares it. -/
theorem resolve?_innermost (hc : c.Rooted) (hf : c.forest.Ordered) {name : Text} {scope : Nat}
    {s : Symbol} (h : c.resolve? name scope = some s) :
    s ∈ c.symbols ∧ s.name = name ∧ ∃ inner outer,
      c.forest.ancestors scope = inner ++ s.scope :: outer ∧
      ∀ t ∈ c.symbols, t.name = name → t.scope ∉ inner := by
  rw [resolve?_eq hc hf, List.findSome?_eq_some_iff] at h
  obtain ⟨inner, a, outer, hwalk, hhead, hinner⟩ := h
  obtain ⟨hs, hname, hscope⟩ := mem_declaredIn.mp (List.mem_of_mem_head? hhead)
  refine ⟨hs, hname, inner, outer, hscope ▸ hwalk, ?_⟩
  intro t ht hname' hmem
  exact head?_declaredIn_eq_none.mp (hinner t.scope hmem) t ht hname' rfl

/-- A name means nothing when no scope of the walk declares it and no declaration of it is visible
everywhere. -/
theorem resolve?_eq_none_iff (hc : c.Rooted) (hf : c.forest.Ordered) (name : Text) (scope : Nat) :
    c.resolve? name scope = none ↔ ∀ t ∈ c.symbols, t.name = name →
      t.scope ∉ c.forest.ancestors scope ∧ t.isGlobal = false ∧ t.isBuiltin = false := by
  rw [resolve?_eq hc hf, List.findSome?_eq_none_iff]
  constructor
  · intro h t ht hname
    have hscope : t.scope ∉ c.forest.ancestors scope := fun hmem =>
      head?_declaredIn_eq_none.mp (h t.scope hmem) t ht hname rfl
    have hlocal : ¬ (t.isGlobal = true ∨ t.isBuiltin = true) := by
      intro heverywhere
      rw [hc t ht heverywhere] at hscope
      exact hscope (Scope.Forest.zero_mem_ancestors c.forest scope)
    simp only [not_or, Bool.not_eq_true] at hlocal
    exact ⟨hscope, hlocal⟩
  · intro h a ha
    refine head?_declaredIn_eq_none.mpr ?_
    rintro t ht hname rfl
    exact (h t ht hname).1 ha

/-- What is visible from a scope is visible from the scopes inside it. -/
theorem visibleFrom_sublist (hf : c.forest.Ordered) {child parent : Nat}
    (h : c.forest.parent? child = some parent) :
    (c.visibleFrom parent).Sublist (c.visibleFrom child) := by
  obtain ⟨n, hn, rfl⟩ := Option.map_eq_some_iff.mp h
  have hparent : c.forest.sees n.parent child = true := by
    rw [Scope.Forest.sees_iff, Scope.Forest.ancestors_known hf hn]
    exact List.mem_cons_of_mem child (Scope.Forest.mem_ancestors_self c.forest n.parent)
  refine List.monotone_filter_right c.symbols ?_
  intro s hs
  rw [isVisible, Bool.or_eq_true] at hs ⊢
  exact hs.imp_right fun hsees => Scope.Forest.sees_trans hf hsees hparent

/-- Resolution in a built catalogue is lexical, from every scope and for every name: the candidates
are what the scopes of the walk outwards declare, a name means a declaration of the innermost scope
that has one, and inner scopes see everything that outer ones see. -/
theorem build_resolution_lexical (r : Report) (listings : List Scope.Listing)
    (sheets : List Scope.Sheet) :
    let c := build r listings (Scope.surveyAll {} sheets).2
    (∀ name scope,
      c.resolveAll name scope = (c.forest.ancestors scope).flatMap (c.declaredIn name)) ∧
    (∀ name scope s, c.resolve? name scope = some s →
      s ∈ c.symbols ∧ s.name = name ∧ ∃ inner outer,
        c.forest.ancestors scope = inner ++ s.scope :: outer ∧
        ∀ t ∈ c.symbols, t.name = name → t.scope ∉ inner) ∧
    (∀ name scope, c.resolve? name scope = none ↔ ∀ t ∈ c.symbols, t.name = name →
      t.scope ∉ c.forest.ancestors scope ∧ t.isGlobal = false ∧ t.isBuiltin = false) ∧
    (∀ child parent, c.forest.parent? child = some parent →
      (c.visibleFrom parent).Sublist (c.visibleFrom child)) := by
  intro c
  have hf : c.forest.Ordered := (Scope.surveyAll_grows Scope.Forest.ordered_empty sheets).1
  have hc : c.Rooted := build_rooted r listings _
  exact ⟨resolveAll_eq hc hf, fun _ _ _ => resolve?_innermost hc hf, resolve?_eq_none_iff hc hf,
    fun _ _ => visibleFrom_sublist hf⟩

end AsmLens.Catalogue
