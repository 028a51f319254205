import AsmLens.Assist.Signature
import Mathlib.Algebra.Group.Nat.Even
import Mathlib.Data.List.Forall2
import Mathlib.Data.Nat.Count

/-!
# Open calls and unmatched parentheses

The scan for open calls keeps a stack of parentheses with a count of commas. Here the parentheses
that are open are described by counting alone: one is open as long as no text behind it closes more
parentheses than it opens, and a comma belongs to the last one that is open in front of it. The
stack is shown to hold exactly these, the last one first.

Strings are those of the scan: a column lies outside them when an even number of quotes stands in
front of it.
-/

namespace AsmLens.CallSite

/-- A column lies outside strings: the quotes in front of it come in pairs. -/
def Outside (t : Text) (i : Nat) : Prop := Even ((t.take i).count '"')

instance (t : Text) (i : Nat) : Decidable (Outside t i) :=
  inferInstanceAs (Decidable (Even _))

/-- How often a character stands outside strings, behind column `i` and in front of column `j`. -/
def tally (t : Text) (c : Char) (i j : Nat) : Nat :=
  Nat.count (fun k => i < k ∧ Outside t k ∧ t[k]? = some c) j

/-- The parenthesis at column `i` is open at column `j`: nothing that starts behind it and ends in
front of `j` closes more parentheses than it opens. -/
def OpenAt (t : Text) (j i : Nat) : Prop :=
  i < j ∧ t[i]? = some '(' ∧ Outside t i ∧ ∀ k ≤ j, tally t ')' i k ≤ tally t '(' i k

instance (t : Text) (j i : Nat) : Decidable (OpenAt t j i) :=
  inferInstanceAs (Decidable (_ ∧ _ ∧ _ ∧ ∀ k ≤ j, _))

/-- The parenthesis at column `i` is the last one that is open at column `j`. -/
def Innermost (t : Text) (j i : Nat) : Prop :=
  OpenAt t j i ∧ ∀ k < j, OpenAt t j k → k ≤ i

instance (t : Text) (j i : Nat) : Decidable (Innermost t j i) :=
  inferInstanceAs (Decidable (_ ∧ ∀ k < j, OpenAt t j k → k ≤ i))

/-- The commas outside strings at which the parenthesis at column `i` is the innermost one. -/
def separatorsOf (t : Text) (i : Nat) : Nat :=
  Nat.count (fun j => Outside t j ∧ t[j]? = some ',' ∧ Innermost t j i) t.length

/-- The parentheses that are open at the end of a text, the last one first. -/
def unmatched (t : Text) : List Nat :=
  (List.range t.length).reverse.filter fun i => OpenAt t t.length i

/-! ## One more character -/

section Append

variable (t u : Text) {i j k : Nat}

lemma outside_append (hk : k ≤ t.length) : Outside (t ++ u) k ↔ Outside t k := by
  rw [Outside, Outside, List.take_append_of_le_length hk]

lemma count_congr {p q : Nat → Prop} [DecidablePred p] [DecidablePred q] {n : Nat}
    (h : ∀ k < n, p k ↔ q k) : Nat.count p n = Nat.count q n :=
  Nat.le_antisymm (Nat.count_mono_left fun k hk => (h k hk).mp)
    (Nat.count_mono_left fun k hk => (h k hk).mpr)

lemma tally_append (c : Char) (hj : j ≤ t.length) : tally (t ++ u) c i j = tally t c i j := by
  refine count_congr fun k hk => ?_
  rw [outside_append t u (by omega), List.getElem?_append_left (by omega)]

lemma openAt_append (hj : j ≤ t.length) : OpenAt (t ++ u) j i ↔ OpenAt t j i := by
  unfold OpenAt
  refine and_congr_right fun hi => ?_
  rw [List.getElem?_append_left (by omega), outside_append t u (by omega)]
  refine and_congr_right fun _ => and_congr_right fun _ => forall₂_congr fun k hk => ?_
  rw [tally_append t u _ (by omega), tally_append t u _ (by omega)]

lemma innermost_append (hj : j ≤ t.length) : Innermost (t ++ u) j i ↔ Innermost t j i := by
  unfold Innermost
  simp only [openAt_append t u hj]

end Append

variable {t : Text} {c : Char} {i : Nat}

lemma tally_concat (d : Char) (hi : i < t.length) :
    tally (t ++ [c]) d i (t.length + 1) =
      tally t d i t.length + if Outside t t.length ∧ c = d then 1 else 0 := by
  have hlast := Nat.count_succ (fun k => i < k ∧ Outside (t ++ [c]) k ∧ (t ++ [c])[k]? = some d)
    t.length
  rw [tally, hlast]
  simp only [hi, true_and, outside_append t [c] (Nat.le_refl _), List.getElem?_concat_length,
    Option.some.injEq]
  exact congrArg (· + _) (tally_append t [c] d (Nat.le_refl _))

/-- Nothing stands behind the last character. -/
lemma tally_last_concat (d : Char) {k : Nat} (hk : k ≤ t.length + 1) :
    tally (t ++ [c]) d t.length k = 0 := by
  rw [tally, Nat.count_eq_card_filter_range, Finset.card_eq_zero, Finset.filter_eq_empty_iff]
  rintro m hm ⟨hlt, _⟩
  have := Finset.mem_range.mp hm
  omega

/-- A parenthesis is open behind one more character when it is that character, or when it was open
and is not closed by it. -/
lemma openAt_concat_iff :
    OpenAt (t ++ [c]) (t.length + 1) i ↔
      (i = t.length ∧ c = '(' ∧ Outside t t.length) ∨
      (OpenAt t t.length i ∧
        (Outside t t.length → c = ')' → tally t ')' i t.length < tally t '(' i t.length)) := by
  constructor
  · rintro ⟨hi, hparen, houtside, hnever⟩
    rcases Nat.lt_succ_iff_lt_or_eq.mp hi with hlt | rfl
    · right
      refine ⟨(openAt_append t [c] (Nat.le_refl _)).mp ⟨hlt, hparen, houtside, ?_⟩, ?_⟩
      · intro k hk
        exact hnever k (by omega)
      · rintro hhere rfl
        have hlast := hnever _ (Nat.le_refl _)
        rw [tally_concat _ hlt, tally_concat _ hlt, if_pos ⟨hhere, rfl⟩, if_neg (by simp)] at hlast
        omega
    · left
      rw [List.getElem?_concat_length] at hparen
      exact ⟨rfl, Option.some.inj hparen, (outside_append t [c] (Nat.le_refl _)).mp houtside⟩
  · rintro (⟨rfl, rfl, houtside⟩ | ⟨hopen, hkept⟩)
    · refine ⟨Nat.lt_succ_self _, List.getElem?_concat_length,
        (outside_append t _ (Nat.le_refl _)).mpr houtside, fun k hk => ?_⟩
      rw [tally_last_concat _ hk]
      exact Nat.zero_le _
    · obtain ⟨hi, hparen, houtside, hnever⟩ := (openAt_append t [c] (Nat.le_refl _)).mpr hopen
      refine ⟨by omega, hparen, houtside, fun k hk => ?_⟩
      rcases Nat.lt_succ_iff_lt_or_eq.mp (Nat.lt_succ_of_le hk) with hlt | rfl
      · exact hnever k (by omega)
      · have hlast := hopen.2.2.2 _ (Nat.le_refl _)
        rw [tally_concat _ hi, tally_concat _ hi]
        by_cases hclose : Outside t t.length ∧ c = ')'
        · have hroom := hkept hclose.1 hclose.2
          rw [if_pos hclose]
          omega
        · rw [if_neg hclose]
          omega

lemma mem_unmatched_iff : i ∈ unmatched t ↔ OpenAt t t.length i := by
  rw [unmatched, List.mem_filter, decide_eq_true_iff, List.mem_reverse, List.mem_range]
  exact and_iff_right_of_imp And.left

lemma unmatched_concat (t : Text) (c : Char) :
    unmatched (t ++ [c]) =
      (if c = '(' ∧ Outside t t.length then [t.length] else []) ++
        (unmatched t).filter fun i =>
          Outside t t.length → c = ')' → tally t ')' i t.length < tally t '(' i t.length := by
  have hnew : OpenAt (t ++ [c]) (t.length + 1) t.length ↔ c = '(' ∧ Outside t t.length := by
    rw [openAt_concat_iff]
    exact ⟨fun h => h.elim And.right fun hopen => absurd hopen.1.1 (Nat.lt_irrefl _),
      fun h => Or.inl ⟨rfl, h⟩⟩
  have hold : ∀ i ∈ (List.range t.length).reverse,
      OpenAt (t ++ [c]) (t.length + 1) i ↔ OpenAt t t.length i ∧ (Outside t t.length → c = ')' →
        tally t ')' i t.length < tally t '(' i t.length) := by
    intro i hi
    have hlt : i < t.length := List.mem_range.mp (List.mem_reverse.mp hi)
    rw [openAt_concat_iff, or_iff_right fun h => absurd h.1 hlt.ne]
  rw [unmatched, unmatched, List.length_append, List.length_singleton, List.range_succ,
    List.reverse_append, List.reverse_singleton, List.filter_append, List.filter_filter]
  congr 1
  · simp only [List.filter_singleton, hnew, Bool.cond_decide]
  · refine List.filter_congr fun i hi => ?_
    rw [decide_eq_decide.mpr (hold i hi), Bool.decide_and, Bool.and_comm]

/-- How many more parentheses are opened than closed behind an open one. -/
def level (t : Text) (i : Nat) : Nat := tally t '(' i t.length - tally t ')' i t.length

lemma level_concat (h : OpenAt t t.length i) :
    level (t ++ [c]) i =
      if Outside t t.length ∧ c = '(' then level t i + 1
      else if Outside t t.length ∧ c = ')' then level t i - 1
      else level t i := by
  have hle := h.2.2.2 _ (Nat.le_refl _)
  rw [level, List.length_append, List.length_singleton, tally_concat _ h.1, tally_concat _ h.1,
    level]
  by_cases hopens : Outside t t.length ∧ c = '('
  · have hcloses : ¬ (Outside t t.length ∧ c = ')') := by simp [hopens.2]
    rw [if_pos hopens, if_pos hopens, if_neg hcloses]
    omega
  · rw [if_neg hopens, if_neg hopens]
    split <;> omega

lemma level_length_concat : level (t ++ [c]) t.length = 0 := by
  rw [level, List.length_append, List.length_singleton, tally_last_concat _ (Nat.le_refl _),
    Nat.zero_sub]

/-- Of a list that is numbered from zero, all but the first have a positive number. -/
lemma filter_pos_eq_tail {l : List Nat} {f : Nat → Nat} (h : l.map f = List.range l.length) :
    (l.filter fun i => 0 < f i) = l.tail ∧
      l.tail.map (fun i => f i - 1) = List.range l.tail.length := by
  cases l with
  | nil => exact ⟨rfl, rfl⟩
  | cons a l =>
    rw [List.map_cons, List.length_cons, List.range_succ_eq_map] at h
    obtain ⟨hzero, hsucc⟩ := List.cons.inj h
    have hpos : ∀ i ∈ l, 0 < f i := by
      intro i hi
      have hmem : f i ∈ l.map f := List.mem_map_of_mem hi
      rw [hsucc] at hmem
      obtain ⟨k, _, hk⟩ := List.mem_map.mp hmem
      omega
    have hpred : l.map (fun i => f i - 1) = (l.map f).map Nat.pred := by
      rw [List.map_map]
      rfl
    constructor
    · rw [List.tail_cons, List.filter_cons_of_neg (by simp [hzero]),
        List.filter_eq_self.mpr fun i hi => decide_eq_true (hpos i hi)]
    · rw [List.tail_cons, hpred, hsucc, List.map_map]
      exact List.map_id _

lemma unmatched_open (h : Outside t t.length) :
    unmatched (t ++ ['(']) = t.length :: unmatched t := by
  simp [unmatched_concat, h]

lemma unmatched_other (h : Outside t t.length → c ≠ '(' ∧ c ≠ ')') :
    unmatched (t ++ [c]) = unmatched t := by
  rw [unmatched_concat, if_neg fun hopen => (h hopen.2).1 hopen.1, List.nil_append]
  exact List.filter_eq_self.mpr fun i _ =>
    decide_eq_true fun hhere hclose => absurd hclose (h hhere).2

lemma unmatched_close_eq_filter (h : Outside t t.length) :
    unmatched (t ++ [')']) = (unmatched t).filter fun i => 0 < level t i := by
  rw [unmatched_concat, if_neg (by simp), List.nil_append]
  refine List.filter_congr fun i _ => decide_eq_decide.mpr ?_
  simp only [h, level, true_imp_iff]
  omega

/-- The open parentheses are numbered by their levels, the innermost one with zero. -/
theorem map_level_unmatched (t : Text) :
    (unmatched t).map (level t) = List.range (unmatched t).length := by
  induction t using List.reverseRecOn with
  | nil => rfl
  | append_singleton t c ih =>
    have hopen : ∀ i ∈ unmatched t, OpenAt t t.length i := fun i hi => mem_unmatched_iff.mp hi
    by_cases houtside : Outside t t.length
    · by_cases hparen : c = '('
      · subst hparen
        have hmap : (unmatched t).map (level (t ++ ['('])) =
            ((unmatched t).map (level t)).map Nat.succ := by
          rw [List.map_map]
          refine List.map_congr_left fun i hi => ?_
          rw [level_concat (hopen i hi), if_pos ⟨houtside, rfl⟩]
          rfl
        rw [unmatched_open houtside, List.map_cons, level_length_concat, hmap, ih,
          List.length_cons, List.range_succ_eq_map]
      · by_cases hclose : c = ')'
        · subst hclose
          obtain ⟨htail, hpred⟩ := filter_pos_eq_tail ih
          rw [unmatched_close_eq_filter houtside, htail, ← hpred]
          refine List.map_congr_left fun i hi => ?_
          rw [level_concat (hopen i (List.mem_of_mem_tail hi)), if_neg (by simp),
            if_pos ⟨houtside, rfl⟩]
        · rw [unmatched_other fun _ => ⟨hparen, hclose⟩, ← ih]
          refine List.map_congr_left fun i hi => ?_
          rw [level_concat (hopen i hi), if_neg (by simp [hparen]), if_neg (by simp [hclose])]
    · rw [unmatched_other fun h => absurd h houtside, ← ih]
      refine List.map_congr_left fun i hi => ?_
      rw [level_concat (hopen i hi), if_neg (by simp [houtside]), if_neg (by simp [houtside])]

lemma unmatched_close (h : Outside t t.length) :
    unmatched (t ++ [')']) = (unmatched t).tail := by
  rw [unmatched_close_eq_filter h, (filter_pos_eq_tail (map_level_unmatched t)).1]

/-! ## Commas -/

lemma pairwise_unmatched (t : Text) : (unmatched t).Pairwise (· > ·) :=
  (List.pairwise_reverse.mpr List.pairwise_lt_range).filter _

lemma innermost_iff : Innermost t t.length i ↔ (unmatched t).head? = some i := by
  have hsorted := pairwise_unmatched t
  cases hopen : unmatched t with
  | nil =>
    refine iff_of_false (fun h => ?_) nofun
    have hmem := mem_unmatched_iff.mpr h.1
    rw [hopen] at hmem
    cases hmem
  | cons top rest =>
    rw [hopen] at hsorted
    have htop : OpenAt t t.length top := by
      rw [← mem_unmatched_iff, hopen]
      exact List.mem_cons_self
    have hbelow := (List.pairwise_cons.mp hsorted).1
    rw [List.head?_cons, Option.some.injEq]
    constructor
    · rintro ⟨hi, hlast⟩
      have hle := hlast top htop.1 htop
      have hmem := mem_unmatched_iff.mpr hi
      rw [hopen] at hmem
      rcases List.mem_cons.mp hmem with rfl | hrest
      · rfl
      · have := hbelow i hrest
        omega
    · rintro rfl
      refine ⟨htop, fun k _ hk => ?_⟩
      have hmem := mem_unmatched_iff.mpr hk
      rw [hopen] at hmem
      rcases List.mem_cons.mp hmem with rfl | hrest
      · exact Nat.le_refl _
      · exact (hbelow k hrest).le

lemma separatorsOf_concat (t : Text) (c : Char) (i : Nat) :
    separatorsOf (t ++ [c]) i =
      separatorsOf t i +
        if Outside t t.length ∧ c = ',' ∧ (unmatched t).head? = some i then 1 else 0 := by
  rw [separatorsOf, List.length_append, List.length_singleton, Nat.count_succ]
  simp only [outside_append t [c] (Nat.le_refl _), List.getElem?_concat_length, Option.some.injEq,
    innermost_append t [c] (Nat.le_refl _), innermost_iff]
  refine congrArg (· + _) (count_congr fun k hk => ?_)
  rw [outside_append t [c] hk.le, List.getElem?_append_left hk, innermost_append t [c] hk.le]

/-- No comma in front of a parenthesis is one of its separators. -/
lemma separatorsOf_length (t : Text) : separatorsOf t t.length = 0 := by
  rw [separatorsOf, Nat.count_eq_card_filter_range, Finset.card_eq_zero,
    Finset.filter_eq_empty_iff]
  rintro k hk ⟨_, _, hinner⟩
  have hlt := Finset.mem_range.mp hk
  have := hinner.1.1
  omega

/-! ## The scan -/

/-- The stack entry of a parenthesis. -/
def entryAt (t : Text) (i : Nat) : OpenParen := ⟨(t.take i).reverse, separatorsOf t i⟩

lemma outside_concat (t : Text) (c : Char) :
    Outside (t ++ [c]) (t ++ [c]).length ↔
      if c = '"' then ¬ Outside t t.length else Outside t t.length := by
  rw [Outside, Outside, List.take_length, List.take_length, List.count_append]
  split
  · rename_i hquote
    rw [hquote, List.count_singleton_self, Nat.even_add_one]
  · rename_i hquote
    rw [List.count_singleton, if_neg (by simpa using hquote), Nat.add_zero]

/-- A character that is no comma for a parenthesis leaves its entry as it is. -/
lemma entryAt_concat {l : List Nat} (hl : ∀ i ∈ l, i < t.length)
    (hcomma : Outside t t.length → c = ',' → ∀ i ∈ l, (unmatched t).head? ≠ some i) :
    l.map (entryAt (t ++ [c])) = l.map (entryAt t) := by
  refine List.map_congr_left fun i hi => ?_
  rw [entryAt, entryAt, separatorsOf_concat, List.take_append_of_le_length (hl i hi).le,
    if_neg fun h => hcomma h.1 h.2.1 i hi h.2.2, Nat.add_zero]

lemma lt_of_mem_unmatched (h : i ∈ unmatched t) : i < t.length := (mem_unmatched_iff.mp h).1

/-- A character outside strings changes the entries as it changes the open parentheses. -/
lemma map_entryAt_concat (houtside : Outside t t.length) (c : Char) :
    (unmatched (t ++ [c])).map (entryAt (t ++ [c])) =
      Scan.stepParens t.reverse ((unmatched t).map (entryAt t)) c := by
  have hlt : ∀ i ∈ unmatched t, i < t.length := fun i hi => lt_of_mem_unmatched hi
  unfold Scan.stepParens
  split_ifs with hopen hclose hcomma
  · subst hopen
    rw [unmatched_open houtside, List.map_cons, entryAt_concat hlt (by simp), entryAt,
      separatorsOf_concat, separatorsOf_length, List.take_left]
    simp
  · subst hclose
    rw [unmatched_close houtside,
      entryAt_concat (fun i hi => hlt i (List.mem_of_mem_tail hi)) (by simp), List.map_tail]
  · subst hcomma
    rw [unmatched_other fun _ => ⟨hopen, hclose⟩]
    cases hunmatched : unmatched t with
    | nil => rfl
    | cons top rest =>
      have hsorted := pairwise_unmatched t
      rw [hunmatched] at hlt hsorted
      obtain ⟨htop, hrest⟩ := List.forall_mem_cons.mp hlt
      have hbelow := (List.pairwise_cons.mp hsorted).1
      have hothers : rest.map (entryAt (t ++ [','])) = rest.map (entryAt t) := by
        refine entryAt_concat hrest fun _ _ i hi => ?_
        rw [hunmatched, List.head?_cons, ne_eq, Option.some.injEq]
        exact (hbelow i hi).ne'
      rw [List.map_cons, hothers, entryAt, separatorsOf_concat, hunmatched,
        if_pos ⟨houtside, rfl, rfl⟩, List.take_append_of_le_length htop.le]
      rfl
  · rw [unmatched_other fun _ => ⟨hopen, hclose⟩,
      entryAt_concat hlt fun _ h => absurd h hcomma]

/-- Behind a text the scan holds the text, whether a string is open, and the open parentheses. -/
theorem foldl_step (t : Text) :
    t.foldl Scan.step {} =
      ⟨t.reverse, decide (¬ Outside t t.length), (unmatched t).map (entryAt t)⟩ := by
  induction t using List.reverseRecOn with
  | nil => rfl
  | append_singleton t c ih =>
    rw [List.foldl_concat, ih, Scan.step, Scan.mk.injEq]
    refine ⟨?_, ?_, ?_⟩
    · rw [List.reverse_concat]
    · simp only [outside_concat]
      split <;> simp
    · by_cases houtside : Outside t t.length
      · by_cases hquote : c = '"'
        · subst hquote
          rw [unmatched_other fun _ => ⟨by decide, by decide⟩,
            entryAt_concat (fun i hi => lt_of_mem_unmatched hi) (by simp)]
          simp
        · rw [map_entryAt_concat houtside]
          simp [houtside, hquote]
      · rw [unmatched_other fun h => absurd h houtside,
          entryAt_concat (fun i hi => lt_of_mem_unmatched hi) fun h => absurd h houtside]
        simp [houtside]

/-- The call at a parenthesis, if a name stands in front of it. -/
def callAt? (t : Text) (i : Nat) : Option CallSite :=
  (callee? (t.take i).reverse).map fun name => ⟨name, separatorsOf t i⟩

theorem openCalls_eq (t : Text) : openCalls t = (unmatched t).filterMap (callAt? t) := by
  rw [openCalls, foldl_step, List.filterMap_map]
  rfl

/-- The parenthesis of a call is no separator, so there are fewer of these than characters. -/
lemma separatorsOf_lt (h : i ∈ unmatched t) : separatorsOf t i < t.length := by
  have hlt := lt_of_mem_unmatched h
  have hparen := (mem_unmatched_iff.mp h).2.1
  have hsubset : (Finset.range t.length).filter
      (fun j => Outside t j ∧ t[j]? = some ',' ∧ Innermost t j i) ⊂ Finset.range t.length := by
    refine Finset.filter_ssubset.mpr ⟨i, Finset.mem_range.mpr hlt, fun hcomma => ?_⟩
    cases hparen.symm.trans hcomma.2.1
  rw [separatorsOf, Nat.count_eq_card_filter_range]
  exact (Finset.card_lt_card hsubset).trans_eq (Finset.card_range _)

/-! ## Names in front of parentheses -/

/-- A character that ends the name in front of it. -/
def EndsName (c : Char) : Prop := c ≠ ' ' ∧ isCalleeChar c = false

/-- Two texts that are read backwards agree up to a character that ends a name. -/
inductive SameEnd : Text → Text → Prop
  | nil : SameEnd [] []
  | cons (c : Char) {x y : Text} : SameEnd x y → SameEnd (c :: x) (c :: y)
  | stop {a b : Char} (x y : Text) : EndsName a → EndsName b → SameEnd (a :: x) (b :: y)

lemma SameEnd.takeWhile_eq {x y : Text} (h : SameEnd x y) :
    x.takeWhile isCalleeChar = y.takeWhile isCalleeChar := by
  induction h with
  | nil => rfl
  | cons c _ ih => rw [List.takeWhile_cons, List.takeWhile_cons, ih]
  | stop x y ha hb => simp [ha.2, hb.2]

lemma SameEnd.callee?_eq {x y : Text} (h : SameEnd x y) : callee? x = callee? y := by
  have hname : (x.dropWhile (· == ' ')).takeWhile isCalleeChar =
      (y.dropWhile (· == ' ')).takeWhile isCalleeChar := by
    induction h with
    | nil => rfl
    | @cons c x y hxy ih =>
      by_cases hspace : c = ' '
      · simpa [hspace] using ih
      · simpa [hspace] using (SameEnd.cons c hxy).takeWhile_eq
    | stop x y ha hb => simp [ha.1, hb.1, ha.2, hb.2]
  rw [callee?, callee?, hname]

/-- Two entries of the stack stand for the same call. -/
def SameCall (p q : OpenParen) : Prop := callee? p.before = callee? q.before ∧ p.commas = q.commas

lemma stepParens_same {x y : Text} {ps qs : List OpenParen} (hend : SameEnd x y)
    (hparens : List.Forall₂ SameCall ps qs) (c : Char) :
    List.Forall₂ SameCall (Scan.stepParens x ps c) (Scan.stepParens y qs c) := by
  unfold Scan.stepParens
  split_ifs
  · exact .cons ⟨hend.callee?_eq, rfl⟩ hparens
  · cases hparens with
    | nil => exact .nil
    | cons _ hrest => exact hrest
  · cases hparens with
    | nil => exact .nil
    | cons hpq hrest => exact .cons ⟨hpq.1, congrArg (· + 1) hpq.2⟩ hrest
  · exact hparens

/-- The calls of two stacks. -/
lemma filterMap_same {ps qs : List OpenParen} (h : List.Forall₂ SameCall ps qs) :
    (ps.filterMap fun p => (callee? p.before).map fun name => (⟨name, p.commas⟩ : CallSite)) =
      qs.filterMap fun q => (callee? q.before).map fun name => ⟨name, q.commas⟩ := by
  induction h with
  | nil => rfl
  | cons hpq _ ih => rw [List.filterMap_cons, List.filterMap_cons, hpq.1, hpq.2, ih]

/-- Two scans with the same calls, that will find the same names. -/
structure SameScan (s r : Scan) : Prop where
  before : SameEnd s.before r.before
  quoted : s.quoted = r.quoted
  parens : List.Forall₂ SameCall s.parens r.parens

lemma SameScan.step {s r : Scan} (h : SameScan s r) (c : Char) :
    SameScan (s.step c) (r.step c) where
  before := .cons c h.before
  quoted := by simp only [Scan.step, h.quoted]
  parens := by
    simp only [Scan.step, h.quoted]
    split
    · exact h.parens
    · exact stepParens_same h.before h.parens c

lemma SameScan.foldl {s r : Scan} (h : SameScan s r) (t : Text) :
    SameScan (t.foldl Scan.step s) (t.foldl Scan.step r) := by
  induction t generalizing s r with
  | nil => exact h
  | cons c t ih => exact ih (h.step c)

/-- A character that ends a name and that the scan does not look for. -/
structure Separates (c : Char) : Prop where
  ends : EndsName c
  quote : c ≠ '"'
  opening : c ≠ '('
  closing : c ≠ ')'
  comma : c ≠ ','

lemma Separates.stepParens_eq (h : Separates c) (x : Text) (ps : List OpenParen) :
    Scan.stepParens x ps c = ps := by
  rw [Scan.stepParens, if_neg h.opening, if_neg h.closing, if_neg h.comma]

/-- Where no parenthesis is open, a closing one is like any other character that ends a name. -/
lemma openCalls_surplus {front : Text} (houtside : Outside front front.length)
    (hnone : unmatched front = []) (hc : Separates c) (back : Text) :
    openCalls (front ++ ')' :: back) = openCalls (front ++ c :: back) := by
  have hclosing : EndsName ')' := ⟨by decide, by decide⟩
  have hsame : SameScan ((front.foldl Scan.step {}).step ')')
      ((front.foldl Scan.step {}).step c) := by
    rw [foldl_step, hnone]
    refine ⟨.stop _ _ hclosing hc.ends, ?_, ?_⟩
    · simp [Scan.step, hc.quote]
    · have hnothing : Scan.stepParens front.reverse [] ')' = [] := rfl
      simp [Scan.step, hc.quote, houtside, hc.stepParens_eq, hnothing]
  rw [openCalls, openCalls, List.foldl_append, List.foldl_append]
  exact filterMap_same (hsame.foldl back).parens

/-- The open calls are the opening parentheses outside strings that are not closed and have a name
in front of them, from right to left. The separators of each are the commas at which it is the
innermost open parenthesis, so their number fits wherever the length of the text does. A closing
parenthesis without a partner is like any other character that ends a name. -/
theorem openCalls_unmatched (left : Text) :
    (∀ i, i ∈ unmatched left ↔ OpenAt left left.length i) ∧
    (unmatched left).Pairwise (· > ·) ∧
    openCalls left = (unmatched left).filterMap (callAt? left) ∧
    (∀ call ∈ openCalls left, call.separators < left.length) ∧
    ∀ front c back, left = front ++ ')' :: back → Outside front front.length →
      unmatched front = [] → Separates c → openCalls left = openCalls (front ++ c :: back) := by
  refine ⟨fun i => mem_unmatched_iff, pairwise_unmatched left, openCalls_eq left, ?_, ?_⟩
  · intro call hcall
    rw [openCalls_eq] at hcall
    obtain ⟨i, hi, hat⟩ := List.mem_filterMap.mp hcall
    obtain ⟨name, _, rfl⟩ := Option.map_eq_some_iff.mp hat
    exact separatorsOf_lt hi
  · rintro front c back rfl houtside hnone hc
    exact openCalls_surplus houtside hnone hc back

/-- A surplus parenthesis, a string with a parenthesis and a comma in it, a call that is closed, and
a parenthesis without a name around the last call. -/
def nestedText : Text := ")f(\",(\", g(1), (h(2, ".toList

theorem openCalls_unmatched_nested :
    unmatched nestedText = [17, 15, 2] ∧ OpenAt nestedText nestedText.length 15 ∧
    openCalls nestedText = [⟨"h".toList, 1⟩, ⟨"f".toList, 2⟩] ∧
    (∀ call ∈ openCalls nestedText, call.separators < 21) ∧
    Outside [] 0 ∧ unmatched [] = [] ∧ Separates '~' ∧
    openCalls nestedText = openCalls ('~' :: nestedText.tail) := by
  obtain ⟨hmem, _, _, hfits, hsurplus⟩ := openCalls_unmatched nestedText
  have hunmatched : unmatched nestedText = [17, 15, 2] := by decide +kernel
  have htilde : Separates '~' :=
    ⟨⟨by decide, by decide⟩, by decide, by decide, by decide, by decide⟩
  refine ⟨hunmatched, (hmem 15).mp ?_, by decide, hfits, by decide, rfl, htilde,
    hsurplus [] '~' nestedText.tail rfl (by decide) rfl htilde⟩
  rw [hunmatched]
  decide

end AsmLens.CallSite
