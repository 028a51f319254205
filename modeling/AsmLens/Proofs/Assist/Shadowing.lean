import AsmLens.Proofs.Assist.Completion
import AsmLens.Proofs.Catalogue.Resolution

/-!
# Which declaration a completion shows

A completion goes through the offered categories, and through the symbols of each in the order of
the catalogue, and it keeps the first item of each name. Resolution goes from the cursor outwards.
What is shown for a name is always one of the declarations that the name can mean, and it is the one
that resolution puts first when no offered declaration of the name stands further in and none of
another category stands as deep. It is not in general: an outer declaration that is written first
hides the inner one.
-/

namespace AsmLens

/-- An item that is kept is the first one with its key. -/
lemma find?_of_mem_firstsFrom {α κ : Type} [BEq κ] [LawfulBEq κ] {key : α → κ} {seen : List κ}
    {items : List α} {a : α} (h : a ∈ firstsFrom key seen items) :
    items.find? (key · == key a) = some a := by
  have hfresh : ∀ {seen rest}, a ∈ firstsFrom key seen rest → key a ∉ seen := fun hmem =>
    (nodup_firstsFrom key _ _).2 _ (List.mem_map_of_mem hmem)
  induction items generalizing seen with
  | nil => cases h
  | cons b rest ih =>
    have hnew := hfresh h
    rw [firstsFrom] at h
    split at h
    · rename_i hseen
      have hne : key b ≠ key a := fun heq => hnew (heq ▸ List.contains_iff_mem.mp hseen)
      rw [List.find?_cons_of_neg (by simpa using hne)]
      exact ih h
    · rcases List.mem_cons.mp h with rfl | hrest
      · exact List.find?_cons_of_pos (beq_self_eq_true _)
      · have hne : key b ≠ key a := fun heq => hfresh hrest (heq ▸ List.mem_cons_self)
        rw [List.find?_cons_of_neg (by simpa using hne)]
        exact ih hrest

/-- What is found is also found by a test that fewer items pass, if it passes. -/
lemma find?_of_imp {α : Type} {p q : α → Bool} {l : List α} {a : α} (h : l.find? p = some a)
    (hq : q a = true) (himp : ∀ b ∈ l, q b = true → p b = true) : l.find? q = some a := by
  obtain ⟨_, front, back, rfl, hfront⟩ := List.find?_eq_some_iff_append.mp h
  refine List.find?_eq_some_iff_append.mpr ⟨hq, front, back, rfl, fun b hb => ?_⟩
  have hp := hfront b hb
  rw [Bool.not_eq_true'] at hp ⊢
  refine Bool.eq_false_iff.mpr fun hqb => ?_
  rw [himp b (List.mem_append_left _ hb) hqb] at hp
  cases hp

namespace Catalogue

section Stable

variable {α : Type} {le : α → α → Bool}
  (htrans : ∀ a b c, le a b = true → le b c = true → le a c = true)
  (htotal : ∀ a b, (le a b || le b a) = true)

include htrans htotal

/-- A stable sort puts the chosen elements in the order in which it puts them alone. -/
theorem filter_mergeSort (p : α → Bool) (l : List α) :
    (l.mergeSort le).filter p = (l.filter p).mergeSort le := by
  induction l with
  | nil => simp
  | cons a l ih =>
    obtain ⟨front, back, hcons, hl, hfront⟩ := List.mergeSort_cons htrans htotal a l
    have hsorted := List.pairwise_mergeSort htrans htotal (a :: l)
    rw [hcons] at hsorted
    have hback : ∀ b ∈ back, le a b = true :=
      (List.pairwise_cons.mp (List.pairwise_append.mp hsorted).2.1).1
    rw [hl, List.filter_append] at ih
    rw [hcons, List.filter_append]
    cases hp : p a with
    | false =>
      have hout : ¬ p a = true := by simp [hp]
      rw [List.filter_cons_of_neg hout, List.filter_cons_of_neg hout, ih]
    | true =>
      have hfront' : ∀ b ∈ front.filter p, (!le a b) = true := fun b hb =>
        hfront b (List.mem_of_mem_filter hb)
      rw [List.filter_cons_of_pos hp, List.filter_cons_of_pos hp, mergeSort_cons_eq htrans htotal,
        ← ih, List.takeWhile_append_of_pos hfront', List.dropWhile_append_of_pos hfront']
      cases hrest : back.filter p with
      | nil => simp
      | cons b rest =>
        have hb : le a b = true :=
          hback b (List.mem_of_mem_filter (hrest ▸ List.mem_cons_self))
        simp [hb]

end Stable

/-- Of the candidates that pass a test, the first one is the one that may precede all the others and
that comes first among those that may precede it. -/
lemma find?_resolveAll_eq_some_iff {c : Catalogue} {name : Text} {scope : Nat}
    {test : Symbol → Bool} {passing : List Symbol} {s : Symbol}
    (hpassing : ((c.named name).filter (c.isVisible scope)).filter test = passing) :
    (c.resolveAll name scope).find? test = some s ↔
      (∀ t ∈ passing, c.precedes s t = true) ∧ passing.find? (c.precedes · s) = some s := by
  have hsorted : (c.resolveAll name scope).find? test = (passing.mergeSort c.precedes).head? := by
    rw [← List.head?_filter, resolveAll, filter_mergeSort c.precedes_trans c.precedes_total,
      hpassing]
  rw [hsorted]
  -- a symbol that may precede all the others is sorted together with those that may precede it
  have hhead (hleast : ∀ t ∈ passing, c.precedes s t = true) :
      (passing.mergeSort c.precedes).head? = (passing.find? (c.precedes · s)).or
        ((passing.filter (!c.precedes · s)).mergeSort c.precedes).head? := by
    rw [mergeSort_eq_filter_append c.precedes_trans c.precedes_total (c.precedes · s) passing
      (fun a _ ha b hb => c.precedes_trans a s b ha (hleast b hb))
      (fun a _ ha b _ hb => Bool.eq_false_iff.mpr fun hba => by
        rw [c.precedes_trans b a s hba ha] at hb
        cases hb), List.head?_append, List.head?_filter]
  constructor
  · intro hs
    have hmem : s ∈ passing := List.mem_mergeSort.mp (List.mem_of_head? hs)
    have hleast : ∀ t ∈ passing, c.precedes s t = true := by
      intro t ht
      obtain ⟨rest, hrest⟩ := List.head?_eq_some_iff.mp hs
      have hpairs := List.pairwise_mergeSort c.precedes_trans c.precedes_total passing
      have hsortedMem : t ∈ passing.mergeSort c.precedes := List.mem_mergeSort.mpr ht
      rw [hrest] at hpairs hsortedMem
      rcases List.mem_cons.mp hsortedMem with rfl | hlater
      · simpa using c.precedes_total t t
      · exact (List.pairwise_cons.mp hpairs).1 t hlater
    refine ⟨hleast, ?_⟩
    have hfound : (passing.find? (c.precedes · s)).isSome = true :=
      List.find?_isSome.mpr ⟨s, hmem, hleast s hmem⟩
    rw [hhead hleast, Option.or_of_isSome hfound] at hs
    exact hs
  · rintro ⟨hleast, hfirst⟩
    rw [hhead hleast, hfirst, Option.some_or]

end Catalogue

namespace Completion

/-- Whether the category of a symbol is offered. -/
def isOffered (offers : List Cursor.Offer) (s : Symbol) : Bool :=
  offers.any fun offer => offer.category? == some s.category

/-- The offered symbols that can be seen from a line, category by category. -/
def offeredSymbols (snapshot : Snapshot) (row : Nat) (offers : List Cursor.Offer) : List Symbol :=
  (offers.filterMap (·.category?)).flatMap (visibleSymbols snapshot row)

/-- The declarations of a name that can be seen from a line and are offered there. -/
def declarations (snapshot : Snapshot) (row : Nat) (offers : List Cursor.Offer) (name : Text) :
    List Symbol :=
  (snapshot.catalogue.visibleFrom (snapshot.scopeAt row)).filter fun s =>
    s.name == name && isOffered offers s

/-- The declaration that a name means at a line, among those that are offered there. -/
def meant? (snapshot : Snapshot) (row : Nat) (offers : List Cursor.Offer) (name : Text) :
    Option Symbol :=
  (snapshot.catalogue.resolveAll name (snapshot.scopeAt row)).find? (isOffered offers)

/-- A declaration stands further in than another one, or as deep; then both are of one category, and
the first is built in only if the second is. -/
def Shadows (c : Catalogue) (s t : Symbol) : Prop :=
  c.forest.depth t.scope < c.forest.depth s.scope ∨
    c.forest.depth t.scope = c.forest.depth s.scope ∧ t.category = s.category ∧
      (s.isBuiltin = true → t.isBuiltin = true)

instance (c : Catalogue) (s t : Symbol) : Decidable (Shadows c s t) :=
  inferInstanceAs (Decidable (_ ∨ _ ∧ _ ∧ (_ → _)))

variable {snapshot : Snapshot} {spot : Spot} {offers : List Cursor.Offer}

lemma kindOf_ne_keyword (category : Category) : CompletionItem.kindOf category ≠ .keyword := by
  cases category <;> decide

/-- The items of an offer that are no instructions are those of its symbols. -/
lemma filter_itemsOf {offer : Cursor.Offer}
    (h : offer = .instructions ∨ offer.category?.isSome = true) :
    (itemsOf snapshot spot offer).filter (·.kind != .keyword) =
      (offer.category?.toList.flatMap (visibleSymbols snapshot spot.row)).map
        CompletionItem.ofSymbol := by
  rcases h with rfl | hsome
  · refine List.filter_eq_nil_iff.mpr fun item hitem => ?_
    obtain ⟨i, _, rfl⟩ := List.mem_map.mp hitem
    exact Bool.false_ne_true
  · obtain ⟨category, hcategory⟩ := Option.isSome_iff_exists.mp hsome
    rw [itemsOf_of_category hcategory, hcategory, Option.toList_some, List.flatMap_singleton]
    refine List.filter_eq_self.mpr fun item hitem => ?_
    obtain ⟨s, _, rfl⟩ := List.mem_map.mp hitem
    exact bne_iff_ne.mpr (kindOf_ne_keyword s.category)

lemma filter_flatMap_itemsOf
    (h : ∀ offer ∈ offers, offer = .instructions ∨ offer.category?.isSome = true) :
    (offers.flatMap (itemsOf snapshot spot)).filter (·.kind != .keyword) =
      (offeredSymbols snapshot spot.row offers).map CompletionItem.ofSymbol := by
  rw [List.filter_flatMap, List.flatMap_congr fun offer hoffer => filter_itemsOf (h offer hoffer),
    offeredSymbols, List.filterMap_eq_flatMap_toList, List.flatMap_assoc, List.map_flatMap]

/-- An item is that of an instruction, or of the first offered symbol with its name. -/
theorem instruction_or_first {item : CompletionItem}
    (h : ∀ offer ∈ offers, offer = .instructions ∨ offer.category?.isSome = true)
    (hitem : item ∈ firsts (·.label) (offers.flatMap (itemsOf snapshot spot))) :
    (∃ i ∈ Instruction.all, item = CompletionItem.ofInstruction i) ∨
      ∃ s, (offeredSymbols snapshot spot.row offers).find? (·.name == item.label) = some s ∧
        item = CompletionItem.ofSymbol s := by
  have hfound := find?_of_mem_firstsFrom hitem
  by_cases hkeyword : item.kind = .keyword
  · left
    obtain ⟨offer, hoffer, hmem⟩ := List.mem_flatMap.mp (mem_of_mem_firstsFrom hitem)
    rcases h offer hoffer with rfl | hsome
    · obtain ⟨i, hi, rfl⟩ := List.mem_map.mp hmem
      exact ⟨i, hi, rfl⟩
    · obtain ⟨category, hcategory⟩ := Option.isSome_iff_exists.mp hsome
      rw [itemsOf_of_category hcategory] at hmem
      obtain ⟨s, _, rfl⟩ := List.mem_map.mp hmem
      exact absurd hkeyword (kindOf_ne_keyword s.category)
  · right
    have hsymbols : ((offeredSymbols snapshot spot.row offers).map CompletionItem.ofSymbol).find?
        (·.label == item.label) = some item := by
      rw [← filter_flatMap_itemsOf h, List.find?_filter]
      exact find?_of_imp hfound (by simp [hkeyword]) fun b _ hb => (of_decide_eq_true hb).2
    rw [List.find?_map] at hsymbols
    obtain ⟨s, hs, rfl⟩ := Option.map_eq_some_iff.mp hsymbols
    exact ⟨s, hs, rfl⟩

/-- The first offered symbol with a name is offered, and it is the first of its category. -/
lemma first_of_category {row : Nat} {name : Text} {s : Symbol}
    (h : (offeredSymbols snapshot row offers).find? (·.name == name) = some s) :
    isOffered offers s = true ∧
      (visibleSymbols snapshot row s.category).find? (·.name == name) = some s := by
  rw [offeredSymbols, List.find?_flatMap] at h
  obtain ⟨category, hcategory, hfound⟩ := List.exists_of_findSome?_eq_some h
  obtain ⟨offer, hoffer, hof⟩ := List.mem_filterMap.mp hcategory
  have hs : s.category = category := by
    have hmem := List.mem_of_find?_eq_some hfound
    exact beq_iff_eq.mp (List.mem_filter.mp hmem).2
  subst hs
  exact ⟨List.any_eq_true.mpr ⟨offer, hoffer, beq_iff_eq.mpr hof⟩, hfound⟩

/-! ## What is shown and what is meant -/

lemma declarations_eq (row : Nat) (name : Text) :
    ((snapshot.catalogue.named name).filter
        (snapshot.catalogue.isVisible (snapshot.scopeAt row))).filter (isOffered offers) =
      declarations snapshot row offers name := by
  rw [declarations, Catalogue.visibleFrom, Catalogue.named_eq, List.filter_filter,
    List.filter_filter, List.filter_filter]
  refine List.filter_congr fun s _ => ?_
  cases isOffered offers s <;> simp [Bool.and_comm]

lemma mem_declarations_iff {row : Nat} {name : Text} {s : Symbol} :
    s ∈ declarations snapshot row offers name ↔
      s ∈ snapshot.catalogue.resolveAll name (snapshot.scopeAt row) ∧
        isOffered offers s = true := by
  rw [← declarations_eq, List.mem_filter, Catalogue.resolveAll, List.mem_mergeSort]

/-- The first symbol of a category with a name is the first declaration of that category. -/
lemma find?_declarations {row : Nat} {name : Text} {s : Symbol}
    (hoffered : isOffered offers s = true)
    (h : (visibleSymbols snapshot row s.category).find? (·.name == name) = some s) :
    (declarations snapshot row offers name).find? (·.category == s.category) = some s := by
  have hname : s.name = name := by simpa using List.find?_some h
  rw [visibleSymbols, List.find?_filter] at h
  rw [declarations, List.find?_filter]
  refine find?_of_imp h (by simp [hoffered, hname]) fun t _ ht => ?_
  obtain ⟨hdeclared, hcategory⟩ := of_decide_eq_true ht
  exact decide_eq_true ⟨hcategory, (Bool.and_eq_true_iff.mp hdeclared).1⟩

/-- A first declaration of its category that shadows all the others is the one that is meant. -/
lemma meant?_of_shadows {row : Nat} {name : Text} {s : Symbol}
    (hfirst : (declarations snapshot row offers name).find? (·.category == s.category) = some s)
    (hshadows : ∀ t ∈ declarations snapshot row offers name, Shadows snapshot.catalogue s t) :
    meant? snapshot row offers name = some s := by
  have hleast : ∀ t ∈ declarations snapshot row offers name,
      snapshot.catalogue.precedes s t = true := by
    intro t ht
    rw [Catalogue.precedes_iff]
    rcases hshadows t ht with hdeeper | ⟨hdepth, _, hbuiltin⟩
    · exact Or.inl hdeeper
    · exact Or.inr ⟨hdepth.symm, hbuiltin⟩
  refine (Catalogue.find?_resolveAll_eq_some_iff (declarations_eq row name)).mpr ⟨hleast, ?_⟩
  refine find?_of_imp hfirst (hleast s (List.mem_of_find?_eq_some hfirst)) fun t ht hprecedes => ?_
  -- what may precede the symbol is not further out, so it is of the same category
  rw [Catalogue.precedes_iff] at hprecedes
  rcases hshadows t ht with hdeeper | ⟨_, hcategory, _⟩
  · omega
  · exact beq_iff_eq.mpr hcategory

/-- No declaration stands further in than the one that is meant. -/
lemma depth_le_of_meant? {row : Nat} {name : Text} {s t : Symbol}
    (h : meant? snapshot row offers name = some s)
    (ht : t ∈ declarations snapshot row offers name) :
    snapshot.catalogue.forest.depth t.scope ≤ snapshot.catalogue.forest.depth s.scope := by
  obtain ⟨hleast, _⟩ :=
    (Catalogue.find?_resolveAll_eq_some_iff (declarations_eq row name)).mp h
  have hprecedes := (Catalogue.precedes_iff _ _ _).mp (hleast t ht)
  omega

/-- Where symbols are offered, each item is that of an instruction or describes a symbol: the first
offered one with its name, category by category and in each in the order of the catalogue. The
symbol is one of the offered declarations that the name can mean at the cursor. It is the one that
resolution puts first if it shadows the others, and only if none of them stands further in. -/
theorem shows_first_offered (snapshot : Snapshot) {text line : Text} {p : Position}
    {x : Cursor.Context} (hline : Source.line? text p.line = some line)
    (hcontext : Cursor.contextAt? line (Text.columnOfUnits line p.character) = some x) :
    let place := Cursor.place snapshot.catalogue snapshot.report x
    place ≠ .directiveStart → place ≠ .preprocessorStart →
    ∀ item ∈ provide snapshot text p,
      (∃ i ∈ Instruction.all, item = CompletionItem.ofInstruction i) ∨
      ∃ s, item = CompletionItem.ofSymbol s ∧
        (offeredSymbols snapshot p.line place.offers).find? (·.name == item.label) = some s ∧
        s ∈ snapshot.catalogue.resolveAll item.label (snapshot.scopeAt p.line) ∧
        isOffered place.offers s = true ∧
        ((∀ t ∈ declarations snapshot p.line place.offers item.label,
            Shadows snapshot.catalogue s t) →
          meant? snapshot p.line place.offers item.label = some s) ∧
        (meant? snapshot p.line place.offers item.label = some s →
          ∀ t ∈ declarations snapshot p.line place.offers item.label,
            snapshot.catalogue.forest.depth t.scope ≤ snapshot.catalogue.forest.depth s.scope) := by
  intro place hdirective hpreprocessor item hitem
  rw [provide_of_context hline hcontext, atSpot_of_ne hdirective hpreprocessor] at hitem
  have hapart := Cursor.offers_apart hdirective hpreprocessor
  refine (instruction_or_first hapart hitem).imp_right ?_
  rintro ⟨s, hfirst, hshown⟩
  obtain ⟨hoffered, hcategory⟩ := first_of_category hfirst
  have hdeclared := find?_declarations hoffered hcategory
  have hmem := mem_declarations_iff.mp (List.mem_of_find?_eq_some hdeclared)
  exact ⟨s, hshown, hfirst, hmem.1, hoffered, meant?_of_shadows hdeclared,
    fun hmeant t ht => depth_le_of_meant? hmeant ht⟩

/-- A label in a block is shown in the place of the constant around it, and it is what is meant. -/
theorem shows_first_offered_inner :
    (declarations shadowedSnapshot 4 Cursor.Place.afterInstruction.offers "b".toList).map
      (·.scope) = [0, 1] ∧
    ∃ s, s.scope = 1 ∧
      CompletionItem.ofSymbol s ∈ provide shadowedSnapshot shadowedBuffer ⟨4, 5⟩ ∧
      meant? shadowedSnapshot 4 Cursor.Place.afterInstruction.offers "b".toList = some s := by
  obtain ⟨hline, hcontext⟩ : Source.line? shadowedBuffer 4 = some " lda ".toList ∧
      Cursor.contextAt? " lda ".toList 5 = some operandContext := by
    decide +kernel
  have hplace : Cursor.place shadowedSnapshot.catalogue shadowedSnapshot.report operandContext =
      .afterInstruction := by
    decide +kernel
  obtain ⟨item, hitem, hlabel, hkind⟩ : ∃ item ∈ provide shadowedSnapshot shadowedBuffer ⟨4, 5⟩,
      item.label = "b".toList ∧ item.kind ≠ .keyword := by
    decide +kernel
  obtain ⟨s, -, hscope, hfirst, hshadows⟩ :
      ∃ s ∈ shadowedSnapshot.catalogue.symbols, s.scope = 1 ∧
        (offeredSymbols shadowedSnapshot 4 Cursor.Place.afterInstruction.offers).find?
          (·.name == "b".toList) = some s ∧
        ∀ t ∈ declarations shadowedSnapshot 4 Cursor.Place.afterInstruction.offers "b".toList,
          Shadows shadowedSnapshot.catalogue s t := by
    decide +kernel
  have hshown := shows_first_offered shadowedSnapshot (p := ⟨4, 5⟩) hline hcontext
  rw [hplace] at hshown
  refine ⟨by decide +kernel, s, hscope, ?_⟩
  rcases hshown nofun nofun item hitem with ⟨i, _, rfl⟩ | ⟨t, ht, hfound, _, _, hmeant, _⟩
  · exact absurd rfl hkind
  · rw [hlabel] at hfound hmeant
    cases hfirst.symm.trans hfound
    exact ⟨ht ▸ hitem, hmeant hshadows⟩

/-- A constant that a namespace declares once more, with an operand behind it. -/
def twiceDeclared : Text :=
  ".const b = 1\n.namespace n \x7b\n.const b = 2\n lda \n\x7d\n".toList

def twiceSnapshot : Snapshot :=
  .ofReport ⟨"file".toList, some {}, .rooted ["a".toList], none, none⟩ 1 twiceDeclared
    { files := [⟨1, "a".toList, false, true⟩]
      marks := [⟨.directive, some ⟨0, 0, 0, 6, 1⟩⟩, ⟨.directive, some ⟨1, 0, 1, 10, 1⟩⟩,
        ⟨.directive, some ⟨2, 0, 2, 6, 1⟩⟩] }
    fun _ => none

/-- Two constants are of one category and the outer one comes first in the catalogue, so it is shown
where the name means the inner one. -/
theorem outer_hides_inner :
    Cursor.place twiceSnapshot.catalogue twiceSnapshot.report operandContext = .afterInstruction ∧
    (provide twiceSnapshot twiceDeclared ⟨3, 5⟩).map (fun item => (item.label, item.detail)) =
      [("b".toList, some ".const b = 1".toList), ("n".toList, some ".namespace n".toList)] ∧
    ∃ s, meant? twiceSnapshot 3 Cursor.Place.afterInstruction.offers "b".toList = some s ∧
      s.signature = ".const b = 2".toList := by
  refine ⟨by decide +kernel, by decide +kernel, ?_⟩
  obtain ⟨s, -, hsignature, hleast⟩ :
      ∃ s ∈ twiceSnapshot.catalogue.symbols, s.signature = ".const b = 2".toList ∧
        (∀ t ∈ declarations twiceSnapshot 3 Cursor.Place.afterInstruction.offers "b".toList,
          twiceSnapshot.catalogue.precedes s t = true) ∧
        (declarations twiceSnapshot 3 Cursor.Place.afterInstruction.offers "b".toList).find?
          (twiceSnapshot.catalogue.precedes · s) = some s := by
    decide +kernel
  exact ⟨s, (Catalogue.find?_resolveAll_eq_some_iff (declarations_eq 3 _)).mpr hleast, hsignature⟩

end Completion

end AsmLens
