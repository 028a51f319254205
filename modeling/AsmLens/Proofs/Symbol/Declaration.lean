import AsmLens.Symbol.Declaration
import Mathlib.Data.List.Infix
import Mathlib.Data.List.TakeWhile

/-!
# Where a declaration has its name

Every form of declaration takes text from the front until the name is reached: a directive and white
space, or nothing for a label, and then an at-sign. What is left always ends the text that was read,
so the column of the name is the length of what was taken. A name is hoisted when the character in
front of it is an at-sign: what is taken in front of the sign is nothing or ends in white space.
-/

namespace AsmLens

namespace Source

theorem afterKeyword?_isSuffix {keyword t rest : Text} (h : afterKeyword? keyword t = some rest) :
    rest <:+ t := by
  induction keyword generalizing t with
  | nil =>
    cases h
    exact List.suffix_rfl
  | cons k ks ih =>
    cases t with
    | nil => cases h
    | cons c cs =>
      rw [afterKeyword?] at h
      split at h
      · exact (ih h).trans (List.suffix_cons c cs)
      · cases h

theorem afterSpace?_isSuffix {t rest : Text} (h : afterSpace? t = some rest) : rest <:+ t := by
  cases t with
  | nil => cases h
  | cons c cs =>
    rw [afterSpace?] at h
    split at h
    · cases h
      exact (List.dropWhile_suffix Text.isSpace).trans (List.suffix_cons c cs)
    · cases h

theorem afterKeywordSpace?_isSuffix {keyword t rest : Text}
    (h : afterKeywordSpace? keyword t = some rest) : rest <:+ t := by
  obtain ⟨behind, hkeyword, hspace⟩ := Option.bind_eq_some_iff.mp h
  exact (afterSpace?_isSuffix hspace).trans (afterKeyword?_isSuffix hkeyword)

theorem takeAt_isSuffix (t : Text) : (takeAt t).2 <:+ t := by
  unfold takeAt
  split
  · exact List.suffix_cons _ _
  · exact List.suffix_rfl

theorem takeAt_cases (t : Text) :
    (∃ bare, t = '@' :: bare ∧ takeAt t = (true, bare)) ∨ takeAt t = (false, t) := by
  unfold takeAt
  split
  · exact Or.inl ⟨_, rfl, rfl⟩
  · exact Or.inr rfl

theorem takeName_eq (t : Text) :
    takeName t = (t.takeWhile Text.isWord, t.dropWhile Text.isWord) :=
  List.span_eq_takeWhile_dropWhile _ t

/-- The text `rest` ends the text `d`, and no at-sign stands directly in front of it. -/
def EndsUnsigned (d rest : Text) : Prop :=
  ∃ front, d = front ++ rest ∧ front.getLast? ≠ some '@'

/-- White space stands directly in front of what follows a keyword. -/
theorem afterKeywordSpace?_endsUnsigned {keyword d t rest : Text} (ht : t <:+ d)
    (h : afterKeywordSpace? keyword t = some rest) : EndsUnsigned d rest := by
  obtain ⟨behind, hkeyword, hspace⟩ := Option.bind_eq_some_iff.mp h
  obtain ⟨front, hfront⟩ := (afterKeyword?_isSuffix hkeyword).trans ht
  cases behind with
  | nil => cases hspace
  | cons c cs =>
    rw [afterSpace?] at hspace
    split at hspace
    · rename_i hc
      cases hspace
      refine ⟨front ++ c :: cs.takeWhile Text.isSpace, ?_, ?_⟩
      · rw [← hfront, List.append_assoc, List.cons_append]
        exact congrArg (front ++ c :: ·) List.takeWhile_append_dropWhile.symm
      · intro hat
        have hlast : (c :: cs.takeWhile Text.isSpace).getLast? = some '@' := by
          simpa [List.getLast?_append, List.getLast?_cons] using hat
        have hsign : Text.isSpace '@' = true := by
          rcases List.mem_cons.mp (List.mem_of_getLast? hlast) with heq | hmem
          · rwa [heq]
          · exact List.mem_takeWhile_imp hmem
        revert hsign
        decide
    · cases hspace

end Source

namespace Declaration

/-- The declaration has its name at its column of the text `d`, and it declares no parameter by
itself. -/
structure Spelled (d : Text) (x : Declaration) : Prop where
  place : ∃ front back, d = front ++ x.name ++ back ∧ front.length = x.column
  nonempty : x.name ≠ []
  word : ∀ c ∈ x.name, Text.isWord c = true
  kind : x.kind.category ≠ .parameter

/-- What follows a name never makes it a parameter. -/
def NoParameter (kind? : Text → Option SymbolKind) : Prop :=
  ∀ tail kind, kind? tail = some kind → kind.category ≠ .parameter

theorem named?_spelled {d rest : Text} {kind? : Text → Option SymbolKind} {x : Declaration}
    (hkind : NoParameter kind?) (hrest : rest <:+ d) (h : named? d rest kind? = some x) :
    Spelled d x := by
  simp only [named?, Source.takeName_eq] at h
  split at h
  · cases h
  · rename_i hname
    obtain ⟨kind, hkind', rfl⟩ := Option.map_eq_some_iff.mp h
    obtain ⟨front, hfront⟩ := (Source.takeAt_isSuffix rest).trans hrest
    refine ⟨⟨front, (Source.takeAt rest).2.dropWhile Text.isWord, ?_, ?_⟩, ?_, ?_, ?_⟩
    · rw [List.append_assoc, List.takeWhile_append_dropWhile, hfront]
    · have hlength := congrArg List.length hfront
      rw [List.length_append] at hlength
      dsimp only
      omega
    · simpa using hname
    · intro c hc
      exact List.mem_takeWhile_imp hc
    · exact hkind _ kind hkind'

theorem directive?_spelled {d : Text} {keyword : String} {kind? : Text → Option SymbolKind}
    {x : Declaration} (hkind : NoParameter kind?) (h : directive? d keyword kind? = some x) :
    Spelled d x := by
  obtain ⟨rest, hkeyword, hnamed⟩ := Option.bind_eq_some_iff.mp h
  exact named?_spelled hkind (Source.afterKeywordSpace?_isSuffix hkeyword) hnamed

theorem noParameter_assignment? {make : Option AssignedValue → SymbolKind}
    (hmake : ∀ v, (make v).category ≠ .parameter) : NoParameter (assignment? make) := by
  intro tail kind h
  unfold assignment? at h
  split at h
  · cases h
    exact hmake none
  · cases h
    exact hmake _
  · cases h

theorem noParameter_some {make : Text → SymbolKind}
    (hmake : ∀ tail, (make tail).category ≠ .parameter) :
    NoParameter fun tail => some (make tail) := by
  intro tail kind h
  cases h
  exact hmake tail

theorem evalVar?_spelled {d : Text} {x : Declaration} (h : evalVar? d = some x) : Spelled d x := by
  obtain ⟨behind, heval, hvar⟩ := Option.bind_eq_some_iff.mp h
  obtain ⟨rest, hrest, hnamed⟩ := Option.bind_eq_some_iff.mp hvar
  refine named?_spelled (noParameter_assignment? fun v => ?_)
    ((Source.afterKeywordSpace?_isSuffix hrest).trans (Source.afterKeywordSpace?_isSuffix heval))
    hnamed
  exact nofun

theorem label?_spelled {d : Text} {x : Declaration} (h : label? d = some x) : Spelled d x := by
  refine named?_spelled ?_ List.suffix_rfl h
  intro tail kind hkind
  dsimp only at hkind
  split at hkind
  · cases hkind
    exact nofun
  · cases hkind

/-- What holds of either alternative holds of the first that succeeds. -/
theorem of_orElse {a b : Option Declaration} {x : Declaration} {p : Prop} (ha : a = some x → p)
    (hb : b = some x → p) (h : (a <|> b) = some x) : p := by
  cases a with
  | none => exact hb h
  | some y => exact ha h

/-- A declaration is read with its name as it is written. -/
theorem read?_spelled {d : Text} {x : Declaration} (h : read? d = some x) : Spelled d x := by
  rw [read?] at h
  split at h
  · cases h
  · revert h
    -- the values first, then the forms whose kind does not depend on what follows the name
    iterate 3 refine of_orElse (directive?_spelled (noParameter_assignment? nofun)) ?_
    refine of_orElse evalVar?_spelled ?_
    iterate 6 refine of_orElse (directive?_spelled (noParameter_some nofun)) ?_
    exact label?_spelled

/-! ## The at-sign -/

/-- The name of the declaration stands in the text `d` directly behind an at-sign. -/
def Signed (d : Text) (x : Declaration) : Prop :=
  ∃ front back, d = front ++ '@' :: x.name ++ back ∧ front.length + 1 = x.column

theorem named?_hoisted_iff {d rest : Text} {kind? : Text → Option SymbolKind} {x : Declaration}
    (hrest : Source.EndsUnsigned d rest) (h : named? d rest kind? = some x) :
    x.hoisted = true ↔ Signed d x := by
  obtain ⟨front, rfl, hfront⟩ := hrest
  simp only [named?, Source.takeName_eq] at h
  split at h
  · cases h
  · obtain ⟨kind, _, rfl⟩ := Option.map_eq_some_iff.mp h
    rcases Source.takeAt_cases rest with ⟨bare, rfl, htake⟩ | htake
    · rw [htake]
      refine iff_of_true rfl ⟨front, bare.dropWhile Text.isWord, ?_, ?_⟩
      · simp
      · simp only [List.length_append, List.length_cons]
        omega
    · rw [htake]
      refine iff_of_false Bool.false_ne_true ?_
      rintro ⟨before, back, heq, hlength⟩
      -- what stands in front of the name is what was taken, so it would end in an at-sign
      have hsplit : front ++ rest = (before ++ ['@']) ++ (rest.takeWhile Text.isWord ++ back) := by
        simpa using heq
      have hlengths : front.length = (before ++ ['@']).length := by
        rw [List.length_append] at hlength
        rw [List.length_append, List.length_singleton]
        dsimp only at hlength
        omega
      rw [(List.append_inj hsplit hlengths).1, List.getLast?_concat] at hfront
      exact hfront rfl

theorem directive?_hoisted_iff {d : Text} {keyword : String} {kind? : Text → Option SymbolKind}
    {x : Declaration} (h : directive? d keyword kind? = some x) :
    x.hoisted = true ↔ Signed d x := by
  obtain ⟨rest, hkeyword, hnamed⟩ := Option.bind_eq_some_iff.mp h
  exact named?_hoisted_iff (Source.afterKeywordSpace?_endsUnsigned List.suffix_rfl hkeyword) hnamed

theorem evalVar?_hoisted_iff {d : Text} {x : Declaration} (h : evalVar? d = some x) :
    x.hoisted = true ↔ Signed d x := by
  obtain ⟨behind, heval, hvar⟩ := Option.bind_eq_some_iff.mp h
  obtain ⟨rest, hrest, hnamed⟩ := Option.bind_eq_some_iff.mp hvar
  exact named?_hoisted_iff (Source.afterKeywordSpace?_endsUnsigned
    (Source.afterKeywordSpace?_isSuffix heval) hrest) hnamed

/-- A declaration is hoisted exactly when its name is written with an at-sign. -/
theorem read?_hoisted_iff {d : Text} {x : Declaration} (h : read? d = some x) :
    x.hoisted = true ↔ Signed d x := by
  rw [read?] at h
  split at h
  · cases h
  · revert h
    iterate 3 refine of_orElse directive?_hoisted_iff ?_
    refine of_orElse evalVar?_hoisted_iff ?_
    iterate 6 refine of_orElse directive?_hoisted_iff ?_
    exact named?_hoisted_iff ⟨[], rfl, nofun⟩

end Declaration

end AsmLens
