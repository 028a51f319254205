import AsmLens.Text.Decimal
import Mathlib.Data.List.DropRight

/-!
# Trimmed texts, fields and decimal numbers

What a record line relies on: trimming keeps the first and last characters that are not white
space, splitting at a separator is inverse to joining with it, and a number below the bound of a
32-bit field is read back from its decimal digits. No property of a particular record is used.
-/

namespace AsmLens.Text

/-- A text without white space at its start. -/
def NoLeading (t : Text) : Prop := ∀ c ∈ t.head?, isSpace c = false

/-- A text without white space at its end. -/
def NoTrailing (t : Text) : Prop := ∀ c ∈ t.getLast?, isSpace c = false

/-- A text that trimming leaves as it is. -/
def Trimmed (t : Text) : Prop := NoLeading t ∧ NoTrailing t

lemma trimEnd_eq_rdropWhile (t : Text) : trimEnd t = t.rdropWhile isSpace := rfl

lemma trimStart_eq_self {t : Text} (h : NoLeading t) : trimStart t = t := by
  cases t with
  | nil => rfl
  | cons c cs =>
    have hc : isSpace c = false := h c rfl
    simp [trimStart, hc]

lemma trimEnd_eq_self {t : Text} (h : NoTrailing t) : trimEnd t = t := by
  rw [trimEnd_eq_rdropWhile, List.rdropWhile_eq_self_iff]
  intro hne hs
  have := h _ (List.getLast?_eq_some_getLast hne)
  rw [this] at hs
  cases hs

lemma trim_eq_self {t : Text} (h : Trimmed t) : trim t = t := by
  rw [trim, trimStart_eq_self h.1, trimEnd_eq_self h.2]

lemma noLeading_trimStart (t : Text) : NoLeading (trimStart t) := by
  intro c hc
  have hne : trimStart t ≠ [] := by
    intro h
    rw [h] at hc
    cases hc
  have hhead := List.head_dropWhile_not isSpace hne
  rw [List.head?_eq_some_head hne] at hc
  cases hc
  exact hhead

lemma noTrailing_trimEnd (t : Text) : NoTrailing (trimEnd t) := by
  intro c hc
  have hne : t.rdropWhile isSpace ≠ [] := by
    intro h
    rw [trimEnd_eq_rdropWhile, h] at hc
    cases hc
  have hlast := List.rdropWhile_last_not isSpace t hne
  rw [trimEnd_eq_rdropWhile, List.getLast?_eq_some_getLast hne] at hc
  cases hc
  simpa using hlast

lemma noLeading_of_isPrefix {s t : Text} (h : s <+: t) (ht : NoLeading t) : NoLeading s := by
  obtain ⟨r, rfl⟩ := h
  cases s with
  | nil => intro c hc; cases hc
  | cons d ds => exact ht

lemma noTrailing_of_isSuffix {s t : Text} (h : s <:+ t) (ht : NoTrailing t) : NoTrailing s := by
  obtain ⟨r, rfl⟩ := h
  intro c hc
  apply ht c
  rw [List.getLast?_append, Option.mem_def.mp hc]
  rfl

lemma noLeading_trimEnd {t : Text} (h : NoLeading t) : NoLeading (trimEnd t) :=
  noLeading_of_isPrefix (List.rdropWhile_prefix isSpace t) h

theorem trimmed_trim (t : Text) : Trimmed (trim t) :=
  ⟨noLeading_trimEnd (noLeading_trimStart t), noTrailing_trimEnd _⟩

/-- Trimming keeps the first character when that is not white space. -/
theorem head?_trim {t : Text} (h : NoLeading t) : (trim t).head? = t.head? := by
  rw [trim, trimStart_eq_self h]
  cases t with
  | nil => rfl
  | cons c cs =>
    have hc : isSpace c = false := h c rfl
    have hne : trimEnd (c :: cs) ≠ [] := by
      rw [trimEnd_eq_rdropWhile, ne_eq, List.rdropWhile_eq_nil_iff]
      intro hall
      have := hall c List.mem_cons_self
      rw [hc] at this
      cases this
    obtain ⟨r, hr⟩ : trimEnd (c :: cs) <+: c :: cs := List.rdropWhile_prefix isSpace (c :: cs)
    cases ht : trimEnd (c :: cs) with
    | nil => exact absurd ht hne
    | cons d ds =>
      rw [ht] at hr
      cases hr
      rfl

/-- Trimming keeps the last character when that is not white space. -/
theorem getLast?_trim {t : Text} (h : NoTrailing t) : (trim t).getLast? = t.getLast? := by
  have hsuffix : trimStart t <:+ t := List.dropWhile_suffix isSpace
  rw [trim, trimEnd_eq_self (noTrailing_of_isSuffix hsuffix h)]
  obtain ⟨r, hr⟩ := hsuffix
  cases hs : trimStart t with
  | nil =>
    have hall : ∀ c ∈ t, isSpace c = true := by simpa [trimStart] using hs
    cases hl : t.getLast? with
    | none => rfl
    | some c =>
      have hc := hall c (List.mem_of_getLast? hl)
      rw [h c hl] at hc
      cases hc
  | cons d ds =>
    have hlast := List.getLast?_eq_some_getLast (List.cons_ne_nil d ds)
    rw [← hr, hs, List.getLast?_append, hlast]
    rfl

lemma mem_of_mem_trim {c : Char} {t : Text} (h : c ∈ trim t) : c ∈ t := by
  have hstart : c ∈ trimStart t := (List.rdropWhile_prefix isSpace _).subset h
  exact (List.dropWhile_suffix isSpace).subset hstart

lemma mem_trim_of_mem {c : Char} {t : Text} (h : c ∈ t) (hc : isSpace c = false) :
    c ∈ trim t := by
  have keep : ∀ u : Text, c ∈ u → c ∈ u.dropWhile isSpace := by
    intro u hu
    rw [← List.takeWhile_append_dropWhile (p := isSpace) (l := u)] at hu
    rcases List.mem_append.mp hu with hu | hu
    · have := List.mem_takeWhile_imp hu
      rw [hc] at this
      cases this
    · exact hu
  rw [trim, trimEnd, dropEndWhile, List.mem_reverse]
  exact keep _ (List.mem_reverse.mpr (keep t h))

lemma trimmed_of_forall {t : Text} (h : ∀ c ∈ t, isSpace c = false) : Trimmed t :=
  ⟨fun c hc => h c (List.mem_of_mem_head? hc), fun c hc => h c (List.mem_of_getLast? hc)⟩

/-! ## What stands before and behind -/

theorem after?_eq_some_iff {h t r : Text} : after? h t = some r ↔ t = h ++ r := by
  induction h generalizing t with
  | nil => simp [after?, eq_comm]
  | cons c cs ih =>
    cases t with
    | nil => simp [after?]
    | cons d ds =>
      by_cases hcd : c = d
      · subst hcd
        simp [after?, ih]
      · have hdc : d ≠ c := fun h => hcd h.symm
        simp [after?, hcd, hdc]

theorem before?_eq_some_iff {e t r : Text} : before? e t = some r ↔ t = r ++ e := by
  rw [before?, Option.map_eq_some_iff]
  constructor
  · rintro ⟨a, ha, rfl⟩
    have h := congrArg List.reverse (after?_eq_some_iff.mp ha)
    simpa using h
  · rintro rfl
    exact ⟨r.reverse, after?_eq_some_iff.mpr (by simp), by simp⟩

/-! ## Separators -/

theorem splitBy_eq_splitOnP (p : Char → Bool) (t : Text) : splitBy p t = t.splitOnP p := by
  induction t with
  | nil => rfl
  | cons c cs ih =>
    rw [List.splitOnP_cons_eq_if_modifyHead, splitBy, ih]
    split
    · rfl
    · cases h : cs.splitOnP p with
      | nil => exact absurd h (List.splitOnP_ne_nil _ cs)
      | cons w ws => rfl

theorem split_eq_splitOn (sep : Char) (t : Text) : split sep t = t.splitOn sep := by
  rw [split, List.splitOn_eq_splitOnP, splitBy_eq_splitOnP]

/-- Joining the parts of a split gives the text back. -/
theorem join_split (sep : Char) (t : Text) : join [sep] (split sep t) = t := by
  rw [join, split_eq_splitOn, List.intercalate_splitOn]

/-- Splitting joined parts gives the parts back, if no part holds the separator. -/
theorem split_join (sep : Char) (parts : List Text) (hne : parts ≠ [])
    (hsep : ∀ part ∈ parts, sep ∉ part) : split sep (join [sep] parts) = parts := by
  rw [join, split_eq_splitOn, List.splitOn_intercalate sep hsep hne]

theorem split_append_cons {sep : Char} {a : Text} (h : sep ∉ a) (b : Text) :
    split sep (a ++ sep :: b) = a :: split sep b := by
  simp only [split_eq_splitOn, List.splitOn_append_cons_self_of_not_mem h]

lemma split_ne_nil (sep : Char) (t : Text) : split sep t ≠ [] := by
  rw [split_eq_splitOn]
  exact List.splitOn_ne_nil sep t

lemma not_mem_of_mem_split {sep : Char} {t part : Text} (h : part ∈ split sep t) :
    sep ∉ part := by
  induction t generalizing part with
  | nil =>
    rw [split_eq_splitOn, List.splitOn_nil, List.mem_singleton] at h
    simp [h]
  | cons c cs ih =>
    rw [split_eq_splitOn, List.splitOn_cons_eq_if_modifyHead, ← split_eq_splitOn] at h
    split at h
    · rcases List.mem_cons.mp h with rfl | h
      · exact List.not_mem_nil
      · exact ih h
    · rename_i hc
      cases hs : split sep cs with
      | nil => exact absurd hs (split_ne_nil sep cs)
      | cons w ws =>
        rw [hs, List.modifyHead_cons] at h
        rcases List.mem_cons.mp h with rfl | h
        · have hw : sep ∉ w := ih (by rw [hs]; exact List.mem_cons_self)
          intro hmem
          rcases List.mem_cons.mp hmem with rfl | hmem
          · exact hc (beq_self_eq_true _)
          · exact hw hmem
        · exact ih (by rw [hs]; exact List.mem_cons_of_mem w h)

lemma join_cons_of_ne_nil {sep part : Text} {parts : List Text} (h : parts ≠ []) :
    join sep (part :: parts) = part ++ sep ++ join sep parts := by
  rw [join, List.intercalate_cons_of_ne_nil h]
  rfl

lemma join_tail_isSuffix (sep part : Text) (parts : List Text) :
    join sep parts <:+ join sep (part :: parts) := by
  cases parts with
  | nil => exact List.nil_suffix
  | cons p ps =>
    rw [join_cons_of_ne_nil (List.cons_ne_nil p ps)]
    exact List.suffix_append _ _

lemma join_drop_isSuffix (sep : Text) (parts : List Text) (i : Nat) :
    join sep (parts.drop i) <:+ join sep parts := by
  induction parts generalizing i with
  | nil => simp
  | cons part parts ih =>
    cases i with
    | zero => exact List.suffix_rfl
    | succ i => exact (ih i).trans (join_tail_isSuffix sep part parts)

/-- The parts from one on, joined again, are an end of the text. -/
theorem join_drop_split_isSuffix (sep : Char) (t : Text) (i : Nat) :
    join [sep] ((split sep t).drop i) <:+ t := by
  have h := join_drop_isSuffix [sep] (split sep t) i
  rwa [join_split] at h

/-- The first part is a start of the text. -/
theorem head_split_isPrefix (sep : Char) (t : Text) : (split sep t).getD 0 [] <+: t := by
  have h := join_split sep t
  cases hs : split sep t with
  | nil => exact absurd hs (split_ne_nil sep t)
  | cons part parts =>
    rw [hs] at h
    cases parts with
    | nil =>
      rw [join, List.intercalate_singleton] at h
      simp [h]
    | cons p ps =>
      rw [join_cons_of_ne_nil (List.cons_ne_nil p ps), List.append_assoc] at h
      exact ⟨_, h⟩

lemma mem_join_of_mem (sep : Text) {c : Char} {part : Text} {parts : List Text}
    (hp : part ∈ parts) (hc : c ∈ part) : c ∈ join sep parts := by
  induction parts with
  | nil => cases hp
  | cons p ps ih =>
    rcases List.mem_cons.mp hp with rfl | hp
    · cases ps with
      | nil => simpa [join] using hc
      | cons q qs =>
        rw [join_cons_of_ne_nil (List.cons_ne_nil q qs)]
        simp [hc]
    · exact (join_tail_isSuffix sep p ps).subset (ih hp)

lemma mem_join {c : Char} {sep : Text} {parts : List Text} (h : c ∈ join sep parts) :
    c ∈ sep ∨ ∃ part ∈ parts, c ∈ part := by
  induction parts with
  | nil => cases h
  | cons p ps ih =>
    by_cases hps : ps = []
    · subst hps
      exact Or.inr ⟨p, List.mem_singleton_self p, by simpa [join] using h⟩
    · rw [join_cons_of_ne_nil hps, List.mem_append, List.mem_append] at h
      rcases h with (h | h) | h
      · exact Or.inr ⟨p, List.mem_cons_self, h⟩
      · exact Or.inl h
      · rcases ih h with h | ⟨part, hpart, h⟩
        · exact Or.inl h
        · exact Or.inr ⟨part, List.mem_cons_of_mem p hpart, h⟩

/-- The characters of a part are characters of the text. -/
theorem mem_of_mem_split {c sep : Char} {t part : Text} (hp : part ∈ split sep t)
    (hc : c ∈ part) : c ∈ t := by
  have h := mem_join_of_mem [sep] hp hc
  rwa [join_split] at h

/-! ## Decimal numbers -/

lemma isDigit_of_mem_ofNat {c : Char} {n : Nat} (h : c ∈ ofNat n) : c.isDigit = true :=
  Nat.isDigit_of_mem_toDigits (by decide) (by decide) h

lemma ofNat_ne_nil (n : Nat) : ofNat n ≠ [] := Nat.toDigits_ne_nil

lemma not_mem_ofNat {c : Char} (n : Nat) (h : c.isDigit = false) : c ∉ ofNat n := by
  intro hc
  have := isDigit_of_mem_ofNat hc
  rw [h] at this
  cases this

lemma digit_bounds {c : Char} (h : c.isDigit = true) : 48 ≤ c.toNat ∧ c.toNat ≤ 57 := by
  simp only [Char.isDigit, Bool.and_eq_true, decide_eq_true_eq, UInt32.le_iff_toNat_le] at h
  exact h

lemma isSpace_of_isDigit {c : Char} (h : c.isDigit = true) : isSpace c = false := by
  obtain ⟨hlo, hhi⟩ := digit_bounds h
  simp only [isSpace, spaceRanges, covered]
  grind

lemma pushDigit_of_isDigit {c : Char} (n : Nat) (h : c.isDigit = true) :
    pushDigit 10 n c = some (10 * n + (c.toNat - 48)) := by
  obtain ⟨hlo, hhi⟩ := digit_bounds h
  have hdigit : digitValue? c = some (c.toNat - 48) := by
    rw [digitValue?, if_pos]
    exact ⟨hlo, hhi⟩
  have hlt : c.toNat - 48 < 10 := by omega
  rw [pushDigit, hdigit]
  simp only [if_pos hlt, Nat.mul_comm]

lemma foldlM_pushDigit {ds : Text} (n : Nat) (h : ∀ c ∈ ds, c.isDigit = true) :
    ds.foldlM (pushDigit 10) n = some (Nat.ofDigitChars 10 ds n) := by
  induction ds generalizing n with
  | nil => rfl
  | cons c cs ih =>
    rw [List.foldlM_cons, pushDigit_of_isDigit n (h c List.mem_cons_self),
      Nat.ofDigitChars_cons]
    exact ih _ (fun d hd => h d (List.mem_cons_of_mem c hd))

theorem readDigits?_ofNat (n : Nat) : readDigits? 10 (ofNat n) = some n := by
  have hne : (ofNat n).isEmpty = false := by
    simpa [List.isEmpty_eq_false_iff] using ofNat_ne_nil n
  rw [readDigits?, hne, foldlM_pushDigit 0 (fun c hc => isDigit_of_mem_ofNat hc), ofNat,
    Nat.ofDigitChars_ten_toDigits]
  rfl

/-- A number that fits a field is read back from its decimal digits. -/
theorem readWord?_ofNat {n : Nat} (h : n < Bound.word) : readWord? (ofNat n) = some n := by
  have hplus : '+' ∉ ofNat n := not_mem_ofNat n (by decide)
  unfold readWord?
  split
  · rename_i rest heq
    rw [heq] at hplus
    exact absurd List.mem_cons_self hplus
  · simp only [readDigits?_ofNat, if_pos h]

lemma trimmed_ofNat (n : Nat) : Trimmed (ofNat n) :=
  trimmed_of_forall fun _ hc => isSpace_of_isDigit (isDigit_of_mem_ofNat hc)

lemma readWord?_trim_ofNat {n : Nat} (h : n < Bound.word) :
    readWord? (trim (ofNat n)) = some n := by
  rw [trim_eq_self (trimmed_ofNat n), readWord?_ofNat h]

/-- What is read from a field fits a field. -/
theorem readWord?_lt {t : Text} {n : Nat} (h : readWord? t = some n) : n < Bound.word := by
  unfold readWord? at h
  split at h
  all_goals
    dsimp only at h
    split at h
    · split at h
      · cases h
        assumption
      · cases h
    · cases h

end AsmLens.Text
