import AsmLens.Source.Comment
import Mathlib.Data.List.Basic
import Mathlib.Order.Bounds.Basic

/-!
# Literals and line comments

Two scans follow the string literals of a line: one tells whether a text ends inside a literal, the
other looks for the first line comment. The first one remembers a backslash until it has read the
next character, the second one steps over both at once. Both are compared here with one grammar of
closed literals.
What stands in front of a column decides whether the column lies inside a literal, so a line comment
is found in the start of a line exactly when it is found in the whole line and both of its slashes
are there.
-/

namespace AsmLens.Source

/-- What can stand inside a string literal. A backslash takes the next character with it, be it a
quote or another backslash. -/
inductive LiteralBody : Text → Prop
  | nil : LiteralBody []
  | plain {c : Char} {t : Text} : c ≠ '"' → c ≠ '\\' → LiteralBody t → LiteralBody (c :: t)
  | escaped (c : Char) {t : Text} : LiteralBody t → LiteralBody ('\\' :: c :: t)

/-- A text whose string literals are all closed. -/
inductive Closed : Text → Prop
  | nil : Closed []
  | plain {c : Char} {t : Text} : c ≠ '"' → Closed t → Closed (c :: t)
  | literal {body t : Text} : LiteralBody body → Closed t → Closed ('"' :: (body ++ '"' :: t))

/-- The start of the body of a literal that is not closed. The last backslash may still wait for its
character. -/
def OpenBody (t : Text) : Prop := ∃ body, LiteralBody body ∧ (t = body ∨ t = body ++ ['\\'])

/-- A text that ends inside a string literal. -/
def EndsInLiteral (t : Text) : Prop :=
  ∃ front tail, Closed front ∧ OpenBody tail ∧ t = front ++ '"' :: tail

/-- Two slashes stand at a column, outside string literals. -/
def OpensComment (t : Text) (k : Nat) : Prop :=
  t[k]? = some '/' ∧ t[k + 1]? = some '/' ∧ Closed (t.take k)

/-! ## The scan for an open literal -/

/-- Whether a text that starts inside a string literal, if `quoted`, ends inside one. A backslash
and the character behind it are one step. -/
def quotedAfter (quoted : Bool) : Text → Bool
  | [] => quoted
  | c :: cs =>
    if c = '"' then quotedAfter (!quoted) cs
    else if quoted ∧ c = '\\' then
      match cs with
      | [] => quoted
      | _ :: rest => quotedAfter quoted rest
    else quotedAfter quoted cs

/-- Remembering a backslash is the same as stepping over it with the next character. -/
theorem isOpen_foldl_step (quoted : Bool) (t : Text) :
    (t.foldl LiteralScan.step ⟨quoted, false⟩).isOpen = quotedAfter quoted t := by
  fun_induction quotedAfter quoted t with
  | case1 quoted => rfl
  | case2 quoted cs ih => exact ih
  | case3 quoted c hquote hslash =>
    obtain ⟨rfl, rfl⟩ := hslash
    rfl
  | case4 quoted c hquote hslash d rest ih =>
    obtain ⟨rfl, rfl⟩ := hslash
    have hbehind : LiteralScan.step ⟨true, true⟩ d = ⟨true, false⟩ := by simp [LiteralScan.step]
    exact (congrArg (fun s => (rest.foldl LiteralScan.step s).isOpen) hbehind).trans ih
  | case5 quoted c cs hquote hslash ih =>
    have hplain : LiteralScan.step ⟨quoted, false⟩ c = ⟨quoted, false⟩ := by
      simp [LiteralScan.step, hquote, and_comm, hslash]
    exact (congrArg (fun s => (cs.foldl LiteralScan.step s).isOpen) hplain).trans ih

theorem endsQuoted_eq (t : Text) : endsQuoted t = quotedAfter false t := isOpen_foldl_step false t

lemma quotedAfter_quote (quoted : Bool) (cs : Text) :
    quotedAfter quoted ('"' :: cs) = quotedAfter (!quoted) cs := by
  rw [quotedAfter.eq_def]
  rfl

lemma quotedAfter_escape (c : Char) (cs : Text) :
    quotedAfter true ('\\' :: c :: cs) = quotedAfter true cs := rfl

lemma quotedAfter_plain {quoted : Bool} {c : Char} (hquote : c ≠ '"')
    (hslash : ¬ (quoted ∧ c = '\\')) (cs : Text) :
    quotedAfter quoted (c :: cs) = quotedAfter quoted cs := by
  rw [quotedAfter.eq_def]
  simp only [if_neg hquote, if_neg hslash]

lemma LiteralBody.quotedAfter_append {body : Text} (h : LiteralBody body) (rest : Text) :
    quotedAfter true (body ++ rest) = quotedAfter true rest := by
  induction h with
  | nil => rfl
  | plain hquote hslash _ ih => exact (quotedAfter_plain hquote (by simp [hslash]) _).trans ih
  | escaped c _ ih => exact ih

lemma Closed.quotedAfter_append {front : Text} (h : Closed front) (rest : Text) :
    quotedAfter false (front ++ rest) = quotedAfter false rest := by
  induction h with
  | nil => rfl
  | plain hquote _ ih => exact (quotedAfter_plain hquote (by simp) _).trans ih
  | literal hbody _ ih =>
    rw [List.cons_append, quotedAfter_quote, List.append_assoc, Bool.not_false,
      hbody.quotedAfter_append, List.cons_append, quotedAfter_quote]
    exact ih

lemma OpenBody.quotedAfter_eq {t : Text} (h : OpenBody t) : quotedAfter true t = true := by
  obtain ⟨body, hbody, rfl | rfl⟩ := h
  · have hend := hbody.quotedAfter_append []
    rwa [List.append_nil] at hend
  · exact hbody.quotedAfter_append ['\\']

/-- The body of a literal runs on to the end of the text or up to a closing quote. -/
theorem openBody_or_closing : ∀ t : Text,
    OpenBody t ∨ ∃ body rest, LiteralBody body ∧ t = body ++ '"' :: rest
  | [] => Or.inl ⟨[], .nil, Or.inl rfl⟩
  | c :: t => by
    by_cases hquote : c = '"'
    · exact Or.inr ⟨[], t, .nil, by rw [hquote]; rfl⟩
    by_cases hslash : c = '\\'
    · subst hslash
      match t with
      | [] => exact Or.inl ⟨[], .nil, Or.inr rfl⟩
      | d :: t =>
        rcases openBody_or_closing t with ⟨body, hbody, rfl | rfl⟩ | ⟨body, rest, hbody, rfl⟩
        · exact Or.inl ⟨_, .escaped d hbody, Or.inl rfl⟩
        · exact Or.inl ⟨_, .escaped d hbody, Or.inr rfl⟩
        · exact Or.inr ⟨_, rest, .escaped d hbody, rfl⟩
    · rcases openBody_or_closing t with ⟨body, hbody, rfl | rfl⟩ | ⟨body, rest, hbody, rfl⟩
      · exact Or.inl ⟨_, .plain hquote hslash hbody, Or.inl rfl⟩
      · exact Or.inl ⟨_, .plain hquote hslash hbody, Or.inr rfl⟩
      · exact Or.inr ⟨_, rest, .plain hquote hslash hbody, rfl⟩

/-- Every text has closed literals only or ends inside one. -/
theorem closed_or_endsInLiteral (t : Text) : Closed t ∨ EndsInLiteral t := by
  induction hn : t.length using Nat.strong_induction_on generalizing t with
  | _ n ih =>
    cases t with
    | nil => exact Or.inl .nil
    | cons c t =>
      rw [List.length_cons] at hn
      by_cases hquote : c = '"'
      · subst hquote
        rcases openBody_or_closing t with hopen | ⟨body, rest, hbody, rfl⟩
        · exact Or.inr ⟨[], t, .nil, hopen, rfl⟩
        · have hshort : rest.length < n := by
            simp only [List.length_append, List.length_cons] at hn
            omega
          rcases ih _ hshort rest rfl with hrest | ⟨front, tail, hfront, htail, rfl⟩
          · exact Or.inl (.literal hbody hrest)
          · exact Or.inr ⟨_, tail, .literal hbody hfront, htail, by simp⟩
      · rcases ih _ (by omega) t rfl with ht | ⟨front, tail, hfront, htail, rfl⟩
        · exact Or.inl (.plain hquote ht)
        · exact Or.inr ⟨_, tail, .plain hquote hfront, htail, rfl⟩

lemma EndsInLiteral.endsQuoted_eq {t : Text} (h : EndsInLiteral t) : endsQuoted t = true := by
  obtain ⟨front, tail, hfront, htail, rfl⟩ := h
  rw [Source.endsQuoted_eq, hfront.quotedAfter_append, quotedAfter_quote]
  exact htail.quotedAfter_eq

lemma Closed.endsQuoted_eq {t : Text} (h : Closed t) : endsQuoted t = false := by
  have hend := h.quotedAfter_append []
  rw [List.append_nil] at hend
  exact (Source.endsQuoted_eq t).trans hend

/-- The scan ends quoted exactly on the texts that end inside a literal. -/
theorem endsQuoted_iff {t : Text} : endsQuoted t = true ↔ EndsInLiteral t := by
  refine ⟨fun h => ?_, EndsInLiteral.endsQuoted_eq⟩
  refine (closed_or_endsInLiteral t).resolve_left fun hclosed => ?_
  cases h.symm.trans hclosed.endsQuoted_eq

theorem endsQuoted_eq_false_iff {t : Text} : endsQuoted t = false ↔ Closed t := by
  refine ⟨fun h => ?_, Closed.endsQuoted_eq⟩
  refine (closed_or_endsInLiteral t).resolve_right fun hopen => ?_
  cases h.symm.trans hopen.endsQuoted_eq

/-! ## The scan for a line comment -/

/-- Two slashes stand at a column, outside string literals, in a text that starts inside a literal
if `quoted`. -/
def SlashesAt (quoted : Bool) (t : Text) (k : Nat) : Prop :=
  t[k]? = some '/' ∧ t[k + 1]? = some '/' ∧ quotedAfter quoted (t.take k) = false

lemma opensComment_iff {t : Text} {k : Nat} : OpensComment t k ↔ SlashesAt false t k := by
  rw [OpensComment, SlashesAt, ← endsQuoted_eq_false_iff, endsQuoted_eq]

/-- A scan that steps over one column counts from the next one. -/
lemma exists_isLeast_succ {p q : Nat → Prop} (hzero : ¬ p 0) (hsucc : ∀ i, p (i + 1) ↔ q i)
    (column k : Nat) :
    (∃ i, k = column + i ∧ IsLeast {i | p i} i) ↔
      ∃ i, k = column + 1 + i ∧ IsLeast {i | q i} i := by
  constructor
  · rintro ⟨i, hk, hi, hleast⟩
    cases i with
    | zero => exact absurd hi hzero
    | succ i =>
      refine ⟨i, by omega, (hsucc i).mp hi, fun j hj => ?_⟩
      exact Nat.le_of_succ_le_succ (hleast ((hsucc j).mpr hj))
  · rintro ⟨i, hk, hi, hleast⟩
    refine ⟨i + 1, by omega, (hsucc i).mpr hi, fun j hj => ?_⟩
    cases j with
    | zero => exact absurd hj hzero
    | succ j => exact Nat.succ_le_succ (hleast ((hsucc j).mp hj))

lemma slashesAt_succ {quoted quoted' : Bool} {c : Char}
    (h : ∀ t, quotedAfter quoted (c :: t) = quotedAfter quoted' t) (cs : Text) (i : Nat) :
    SlashesAt quoted (c :: cs) (i + 1) ↔ SlashesAt quoted' cs i := by
  simp [SlashesAt, h]

/-- The scan finds the first two slashes outside string literals. -/
theorem commentFrom_eq_some_iff (quoted : Bool) (column : Nat) (t : Text) (k : Nat) :
    commentFrom quoted column t = some k ↔
      ∃ i, k = column + i ∧ IsLeast {i | SlashesAt quoted t i} i := by
  fun_induction commentFrom quoted column t with
  | case1 => simp [SlashesAt, IsLeast]
  | case2 quoted column cs ih =>
    rw [ih]
    refine (exists_isLeast_succ ?_ (slashesAt_succ (quotedAfter_quote quoted) cs) column k).symm
    simp [SlashesAt]
  | case3 quoted column c hquote hslash => simp [SlashesAt, IsLeast, List.getElem?_cons, hslash.2]
  | case4 quoted column c hquote hslash d rest ih =>
    obtain ⟨rfl, rfl⟩ := hslash
    rw [ih]
    -- neither the backslash nor the character behind it can open a comment
    refine ((exists_isLeast_succ ?_ (fun i => Iff.rfl) column k).trans
      (exists_isLeast_succ ?_ (fun i => ?_) (column + 1) k)).symm
    · simp [SlashesAt]
    · simp [SlashesAt, quotedAfter]
    · simp [SlashesAt, quotedAfter_escape]
  | case5 quoted column c cs hquote hslash hfound =>
    obtain ⟨hquoted, rfl, hnext⟩ := hfound
    have hhere : IsLeast {i | SlashesAt quoted ('/' :: cs) i} 0 := by
      refine ⟨⟨rfl, ?_, ?_⟩, fun _ _ => Nat.zero_le _⟩
      · rwa [List.getElem?_cons_succ, ← List.head?_eq_getElem?]
      · simpa [quotedAfter] using hquoted
    constructor
    · rintro ⟨⟩
      exact ⟨0, rfl, hhere⟩
    · rintro ⟨i, rfl, hi⟩
      rw [hi.unique hhere]
      rfl
  | case6 quoted column c cs hquote hslash hfound ih =>
    rw [ih]
    refine (exists_isLeast_succ ?_ (slashesAt_succ (quotedAfter_plain hquote hslash) cs) column
      k).symm
    rintro ⟨hhead, hnext, hquoted⟩
    refine hfound ⟨?_, Option.some.inj hhead, ?_⟩
    · simpa [quotedAfter] using hquoted
    · rwa [List.getElem?_cons_succ, ← List.head?_eq_getElem?] at hnext

/-- A line comment starts at the first two slashes outside string literals. -/
theorem commentStart?_eq_some_iff {t : Text} {k : Nat} :
    commentStart? t = some k ↔ IsLeast {k | OpensComment t k} k := by
  simp only [commentStart?, commentFrom_eq_some_iff, Nat.zero_add, exists_eq_left',
    opensComment_iff]

/-! ## The start of a line -/

lemma opensComment_take {t : Text} {c k : Nat} :
    OpensComment (t.take c) k ↔ OpensComment t k ∧ k + 2 ≤ c := by
  by_cases hk : k + 2 ≤ c
  · have hfront : (t.take c).take k = t.take k := by
      rw [List.take_take, Nat.min_eq_left (by omega)]
    simp only [OpensComment, hfront, List.getElem?_take_of_lt (show k < c by omega),
      List.getElem?_take_of_lt (show k + 1 < c by omega), hk, and_true]
  · have hnext : (t.take c)[k + 1]? = none := by
      rw [List.getElem?_eq_none]
      exact (List.length_take_le c t).trans (by omega)
    simp [OpensComment, hnext, hk]

/-- A line comment is found in the start of a line exactly when it is found in the whole line and
both slashes stand in the start. -/
theorem commentStart?_take {t : Text} {c k : Nat} :
    commentStart? (t.take c) = some k ↔ commentStart? t = some k ∧ k + 2 ≤ c := by
  simp only [commentStart?_eq_some_iff, opensComment_take]
  constructor
  · rintro ⟨⟨hopens, hk⟩, hleast⟩
    refine ⟨⟨hopens, fun j hj => ?_⟩, hk⟩
    by_cases hjc : j + 2 ≤ c
    · exact hleast ⟨hj, hjc⟩
    · omega
  · rintro ⟨⟨hopens, hleast⟩, hk⟩
    exact ⟨⟨hopens, hk⟩, fun j hj => hleast hj.1⟩

end AsmLens.Source
