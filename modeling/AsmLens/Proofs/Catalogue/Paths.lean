import AsmLens.Proofs.Catalogue.Resolution
import AsmLens.Proofs.Scope.Opened
import AsmLens.Proofs.Text.Fields

/-!
# Dotted paths follow the scopes outwards

A path is followed from its first name inwards: all scopes with the first name, the scopes with the
second name that stand directly in one of these, and so on. The global scope stands in itself, but
the first name never means it, so no path leads to it. A scope is reached in this way exactly
when it and the scopes around it carry the names of the path, read from the last name backwards. So
the symbol that a path means can be told from the walk outwards from each symbol of its last name.
-/

namespace AsmLens

namespace Scope.Forest

variable {f : Forest}

/-- The name of a scope. The global scope has none. -/
def name? (f : Forest) (id : Nat) : Option Text := (f.node? id).map (·.name)

/-- The scope and the scopes around it carry the names, the scope itself the last one. None of them
is the global scope. -/
def Carries (f : Forest) (names : List Text) (id : Nat) : Prop :=
  ((f.ancestors id).take names.length).reverse.map f.name? = names.map some

instance (f : Forest) (names : List Text) (id : Nat) : Decidable (f.Carries names id) :=
  inferInstanceAs (Decidable (_ = _))

lemma name?_eq_some_iff {id : Nat} {name : Text} :
    f.name? id = some name ↔ ∃ n, f.node? id = some n ∧ n.name = name :=
  Option.map_eq_some_iff

lemma carries_nil (f : Forest) (id : Nat) : f.Carries [] id := rfl

/-- A scope carries one more name when it has this name and stands in a scope that carries the
others. -/
theorem carries_concat (hf : f.Ordered) (names : List Text) (name : Text) (id : Nat) :
    f.Carries (names ++ [name]) id ↔
      ∃ n, f.node? id = some n ∧ n.name = name ∧ f.Carries names n.parent := by
  obtain ⟨outer, houter⟩ : ∃ outer, f.ancestors id = id :: outer :=
    List.head?_eq_some_iff.mp (head?_ancestors f id)
  have hsplit : f.Carries (names ++ [name]) id ↔
      (outer.take names.length).reverse.map f.name? = names.map some ∧
        f.name? id = some name := by
    rw [Carries, houter, List.length_append, List.length_singleton, List.take_succ_cons,
      List.reverse_cons, List.map_append, List.map_append, List.map_singleton, List.map_singleton]
    constructor
    · intro h
      obtain ⟨hnames, hname⟩ := List.append_inj' h rfl
      exact ⟨hnames, List.singleton_inj.mp hname⟩
    · rintro ⟨hnames, hname⟩
      rw [hnames, hname]
  rw [hsplit, name?_eq_some_iff]
  constructor
  · rintro ⟨hnames, n, hn, hname⟩
    rw [ancestors_known hf hn] at houter
    exact ⟨n, hn, hname, by rw [Carries, List.cons.inj houter |>.2, hnames]⟩
  · rintro ⟨n, hn, hname, hnames⟩
    rw [ancestors_known hf hn] at houter
    exact ⟨by rw [← List.cons.inj houter |>.2]; exact hnames, n, hn, hname⟩

lemma mem_numbered_iff {n : Node} {id : Nat} : (n, id) ∈ f.numbered ↔ f.node? id = some n := by
  refine ⟨node?_of_mem_numbered, ?_⟩
  intro h
  cases id with
  | zero => cases h
  | succ i =>
    refine List.mem_of_getElem? (i := i) ?_
    rw [getElem?_numbered, h, Option.map_some]

/-- The entries are the global scope, which stands in itself, and the nodes. -/
lemma mem_entries_iff {e : Entry} :
    e ∈ f.entries ↔ e = ⟨0, 0, "Global".toList⟩ ∨
      ∃ n, f.node? e.id = some n ∧ n.parent = e.parent ∧ n.name = e.name := by
  rw [entries, List.mem_cons, List.mem_map]
  refine or_congr_right ⟨?_, ?_⟩
  · rintro ⟨⟨n, id⟩, hmem, rfl⟩
    exact ⟨n, node?_of_mem_numbered hmem, rfl, rfl⟩
  · obtain ⟨id, parent, name⟩ := e
    rintro ⟨n, hn, rfl, rfl⟩
    exact ⟨(n, id), mem_numbered_iff.mpr hn, rfl⟩

/-- A search among the entries that leaves the global scope out finds nodes. -/
lemma mem_map_filter_entries {p : Entry → Bool} (hglobal : p ⟨0, 0, "Global".toList⟩ = false)
    {id : Nat} :
    id ∈ (f.entries.filter p).map (·.id) ↔
      ∃ n, f.node? id = some n ∧ p ⟨id, n.parent, n.name⟩ = true := by
  rw [List.mem_map]
  constructor
  · rintro ⟨e, he, rfl⟩
    obtain ⟨hmem, hp⟩ := List.mem_filter.mp he
    rcases mem_entries_iff.mp hmem with rfl | ⟨n, hn, hparent, hname⟩
    · cases hglobal.symm.trans hp
    · exact ⟨n, hn, by rwa [hparent, hname]⟩
  · rintro ⟨n, hn, hp⟩
    have hmem : ⟨id, n.parent, n.name⟩ ∈ f.entries :=
      mem_entries_iff.mpr (Or.inr ⟨n, hn, rfl, rfl⟩)
    exact ⟨_, List.mem_filter.mpr ⟨hmem, hp⟩, rfl⟩

end Scope.Forest

namespace Catalogue

open Scope.Forest

variable {f : Scope.Forest}

lemma mem_scopesNamed {name : Text} {id : Nat} :
    id ∈ scopesNamed f name ↔ ∃ n, f.node? id = some n ∧ n.name = name := by
  rw [scopesNamed, mem_map_filter_entries rfl]
  refine exists_congr fun n => and_congr_right fun hn => ?_
  simp [ne_zero_of_node? hn]

/-- Candidates without the global scope lead inwards only: the global scope stands in itself, but it
is never reached from them. -/
lemma mem_inside {candidates : List Nat} (hglobal : 0 ∉ candidates) {name : Text} {id : Nat} :
    id ∈ inside f candidates name ↔
      ∃ n, f.node? id = some n ∧ n.name = name ∧ n.parent ∈ candidates := by
  rw [inside, mem_map_filter_entries (by simp [hglobal])]
  refine exists_congr fun n => and_congr_right fun _ => ?_
  simp [and_comm]

lemma zero_notMem_inside {candidates : List Nat} (hglobal : 0 ∉ candidates) (name : Text) :
    0 ∉ inside f candidates name := by
  rw [mem_inside hglobal]
  rintro ⟨n, hn, _⟩
  cases hn

lemma scopesAt_singleton (f : Scope.Forest) (name : Text) :
    scopesAt f [name] = scopesNamed f name := rfl

lemma scopesAt_concat {names : List Text} (hne : names ≠ []) (name : Text) :
    scopesAt f (names ++ [name]) = inside f (scopesAt f names) name := by
  cases names with
  | nil => exact absurd rfl hne
  | cons first rest => simp [scopesAt]

/-- No chain of names leads to the global scope, not even one that spells its name. -/
theorem zero_notMem_scopesAt (f : Scope.Forest) (names : List Text) : 0 ∉ scopesAt f names := by
  induction names using List.reverseRecOn with
  | nil => exact List.not_mem_nil
  | append_singleton names name ih =>
    by_cases hnames : names = []
    · subst hnames
      rw [List.nil_append, scopesAt_singleton, mem_scopesNamed]
      rintro ⟨n, hn, _⟩
      cases hn
    · rw [scopesAt_concat hnames]
      exact zero_notMem_inside ih name

/-- Following names inwards reaches the scopes that carry them outwards. -/
theorem mem_scopesAt_iff (hf : f.Ordered) {names : List Text} (hne : names ≠ []) (id : Nat) :
    id ∈ scopesAt f names ↔ f.Carries names id := by
  induction names using List.reverseRecOn generalizing id with
  | nil => exact absurd rfl hne
  | append_singleton names name ih =>
    rw [carries_concat hf]
    by_cases hnames : names = []
    · subst hnames
      simp only [List.nil_append, scopesAt_singleton, mem_scopesNamed, carries_nil, and_true]
    · simp only [scopesAt_concat hnames, mem_inside (zero_notMem_scopesAt f names), ih hnames]

/-- A dotted path means the first symbol of its last name whose scopes carry the names in front. -/
theorem resolvePath?_eq {c : Catalogue} (hf : c.forest.Ordered) {qualifiers : List Text}
    {name : Text} (hne : qualifiers ≠ []) (hdots : ∀ part ∈ qualifiers ++ [name], '.' ∉ part)
    (scope : Nat) :
    c.resolvePath? (Text.join ['.'] (qualifiers ++ [name])) scope =
      c.symbols.find? fun s => s.name = name ∧ c.forest.Carries qualifiers s.lexicalScope := by
  have hreached : ∀ id, (scopesAt c.forest qualifiers).contains id =
      decide (c.forest.Carries qualifiers id) := by
    intro id
    rw [Bool.eq_iff_iff, List.contains_iff_mem, mem_scopesAt_iff hf hne, decide_eq_true_iff]
  have hlast : (qualifiers ++ [name]).getLastD [] = name := by simp
  unfold resolvePath?
  rw [Text.split_join '.' _ (by simp) hdots]
  dsimp only
  rw [hlast, List.dropLast_concat]
  split
  · exact absurd rfl hne
  · rw [named_eq, List.find?_filter]
    congr 1
    funext s
    rw [hreached, Bool.eq_iff_iff]
    simp

lemma provided_lexicalScope {r : Report} {s : Symbol} (h : s ∈ provided r) :
    s.lexicalScope = 0 := by
  obtain ⟨e, _, he⟩ := List.mem_filterMap.mp h
  obtain ⟨kind, _, rfl⟩ := Option.map_eq_some_iff.mp he
  rfl

/-- No scope of a built-in symbol carries a name, for it stands in the global scope. -/
theorem not_builtin_of_carries {r : Report} {listings : List Scope.Listing} {f : Scope.Forest}
    {s : Symbol} {names : List Text} (hs : s ∈ (build r listings f).symbols) (hf : f.Ordered)
    (hne : names ≠ []) (h : f.Carries names s.lexicalScope) : s.isBuiltin = false := by
  rcases List.mem_append.mp hs with hdeclared | hprovided
  · exact (declared_rooted hdeclared).1
  · rw [provided_lexicalScope hprovided, ← List.dropLast_append_getLast hne,
      carries_concat hf] at h
    obtain ⟨n, hn, _⟩ := h
    cases hn

/-- A dotted path in a built catalogue means the first symbol in the order of declaration that has
its last name and stands in scopes with the names in front, the last of these innermost. It means
nothing when there is none, it never means a built-in symbol, and it means the same everywhere. -/
theorem build_path_resolution (r : Report) (listings : List Scope.Listing)
    (sheets : List Scope.Sheet) (qualifiers : List Text) (name : Text) (hne : qualifiers ≠ [])
    (hdots : ∀ part ∈ qualifiers ++ [name], '.' ∉ part) :
    let c := build r listings (Scope.surveyAll {} sheets).2
    let path := Text.join ['.'] (qualifiers ++ [name])
    (∀ scope, c.resolvePath? path scope =
      c.symbols.find? fun s => s.name = name ∧ c.forest.Carries qualifiers s.lexicalScope) ∧
    (∀ scope, c.resolvePath? path scope = none ↔
      ∀ s ∈ c.symbols, s.name = name → ¬ c.forest.Carries qualifiers s.lexicalScope) ∧
    (∀ scope s, c.resolvePath? path scope = some s → s.isBuiltin = false) ∧
    ∀ scope scope', c.resolvePath? path scope = c.resolvePath? path scope' := by
  intro c path
  have hf : c.forest.Ordered := (Scope.surveyAll_grows Scope.Forest.ordered_empty sheets).1
  have hmeans := resolvePath?_eq hf hne hdots
  refine ⟨hmeans, ?_, ?_, ?_⟩
  · intro scope
    rw [hmeans, List.find?_eq_none]
    simp
  · intro scope s hs
    rw [hmeans] at hs
    have hcarries := List.find?_some hs
    rw [decide_eq_true_iff] at hcarries
    exact not_builtin_of_carries (List.mem_of_find?_eq_some hs) hf hne hcarries.2
  · intro scope scope'
    rw [hmeans scope, hmeans scope']

/-- A namespace that is opened twice, with a namespace and a label of one name inside. -/
def reopened : List Scope.Sheet :=
  [⟨1, ".namespace a \x7b\nx:\n\x7d\n.namespace a \x7b\n.namespace b \x7b\nx:\n".toList, []⟩]

/-- Both labels are marked. -/
def reopenedReport : Report where
  marks := [⟨.label, some ⟨1, 0, 1, 2, 1⟩⟩, ⟨.label, some ⟨5, 0, 5, 2, 1⟩⟩]

theorem build_path_resolution_reopened :
    let survey := Scope.surveyAll {} reopened
    let c := build reopenedReport survey.1 survey.2
    (∀ scope, c.resolvePath? "a.b.x".toList scope = c.symbols.find? fun s =>
      s.name = "x".toList ∧ c.forest.Carries ["a".toList, "b".toList] s.lexicalScope) ∧
    ((c.symbols.find? fun s =>
      s.name = "x".toList ∧ c.forest.Carries ["a".toList, "b".toList] s.lexicalScope).map
        fun s => (s.span.startLine, s.lexicalScope)) = some (5, 3) := by
  intro survey c
  have h := build_path_resolution reopenedReport survey.1 reopened ["a".toList, "b".toList]
    "x".toList (by decide) (by decide)
  exact ⟨h.1, by decide +kernel⟩

end Catalogue

end AsmLens
