import AsmLens.Cursor.Context
import AsmLens.Proofs.Assist.Calls
import AsmLens.Proofs.Source.Literal

/-!
# Open calls and string literals

The scan for open calls switches strings on and off at every quote, and what stands in its strings
does not matter to it. The literals of a line end otherwise: a backslash takes the next character
with it, so that a quote can stand inside a literal. The two agree on a text exactly when no quote
of it is escaped, and then the open calls do not depend on what stands in the literals. One escaped
quote is enough to lose a comma.
-/

namespace AsmLens

namespace Source

/-- A character of a string literal: one inside, or one of the two quotes around it. -/
def InLiteral (t : Text) (i : Nat) : Prop :=
  endsQuoted (t.take i) = true ∨ endsQuoted (t.take (i + 1)) = true

instance (t : Text) (i : Nat) : Decidable (InLiteral t i) :=
  inferInstanceAs (Decidable (_ ∨ _))

/-- A quote inside a literal that does not close it. -/
def EscapedQuote (t : Text) (i : Nat) : Prop :=
  t[i]? = some '"' ∧ endsQuoted (t.take i) = true ∧ endsQuoted (t.take (i + 1)) = true

instance (t : Text) (i : Nat) : Decidable (EscapedQuote t i) :=
  inferInstanceAs (Decidable (_ ∧ _ ∧ _))

/-- The text with every character of its literals replaced. -/
def masked (t : Text) : Text := t.mapIdx fun i c => if InLiteral t i then '~' else c

/-- Only a quote opens or closes a literal. -/
lemma endsQuoted_concat_plain (t : Text) {c : Char} (h : c ≠ '"') :
    endsQuoted (t ++ [c]) = endsQuoted t := by
  have hstep : ∀ s : LiteralScan, (s.step c).isOpen = s.isOpen := by
    intro s
    rw [LiteralScan.step]
    split
    · rfl
    · rw [if_neg fun hc => h hc.1]
  rw [endsQuoted, List.foldl_concat, hstep]
  rfl

/-- A quote outside literals opens one. -/
lemma endsQuoted_concat_quote {t : Text} (h : endsQuoted t = false) :
    endsQuoted (t ++ ['"']) = true := by
  rw [endsQuoted_eq, (endsQuoted_eq_false_iff.mp h).quotedAfter_append]
  rfl

end Source

namespace CallSite

open Source

/-- The scan and the literals agree on where strings are. -/
def StringsAgree (t : Text) : Prop :=
  ∀ i ≤ t.length, endsQuoted (t.take i) = true ↔ ¬ Outside t i

/-- The text with every character of the strings of the scan replaced. -/
def hidden (t : Text) : Text :=
  t.mapIdx fun i c => if c = '"' ∨ ¬ Outside t i then '~' else c

/-! ## Where the strings are -/

lemma outside_succ {t : Text} {c : Char} {i : Nat} (h : t[i]? = some c) :
    Outside t (i + 1) ↔ if c = '"' then ¬ Outside t i else Outside t i := by
  obtain ⟨hlt, rfl⟩ := List.getElem?_eq_some_iff.mp h
  have hcount := outside_concat (t.take i) t[i]
  rwa [← List.take_succ_eq_append_getElem hlt, Outside, Outside, List.take_length,
    List.take_length] at hcount

/-- The scan and the literals agree on a text exactly when no quote of it is escaped. -/
theorem stringsAgree_iff {t : Text} : StringsAgree t ↔ ∀ i, ¬ EscapedQuote t i := by
  constructor
  · rintro hagree i ⟨hquote, hinside, hstays⟩
    obtain ⟨hlt, _⟩ := List.getElem?_eq_some_iff.mp hquote
    have hhere := (hagree i hlt.le).mp hinside
    have hbehind := (hagree (i + 1) hlt).mp hstays
    rw [outside_succ hquote, if_pos rfl] at hbehind
    exact hbehind hhere
  · intro hplain i
    induction i with
    | zero =>
      intro _
      exact iff_of_false (by simp [endsQuoted]) (by simp [Outside])
    | succ i ih =>
      intro hi
      have hget : t[i]? = some t[i] := List.getElem?_eq_getElem hi
      have htake := List.take_succ_eq_append_getElem hi
      have hagree := ih (Nat.le_of_succ_le hi)
      rw [outside_succ hget]
      by_cases hquote : t[i] = '"'
      · rw [if_pos hquote, not_not]
        rw [hquote] at hget htake
        cases hinside : endsQuoted (t.take i) with
        | true =>
          refine iff_of_false (fun hstays => hplain i ⟨hget, hinside, hstays⟩) ?_
          exact hagree.mp hinside
        | false =>
          rw [htake]
          refine iff_of_true (endsQuoted_concat_quote hinside) ?_
          by_contra houtside
          rw [hagree.mpr houtside] at hinside
          cases hinside
      · rw [if_neg hquote, ← hagree, htake, endsQuoted_concat_plain _ hquote]

/-- Where the two agree, a literal is what the scan takes for a string. -/
lemma StringsAgree.masked_eq {t : Text} (h : StringsAgree t) : masked t = hidden t := by
  refine List.mapIdx_eq_mapIdx_iff.mpr fun i hi => ?_
  have hget : t[i]? = some t[i] := List.getElem?_eq_getElem hi
  have hin : InLiteral t i ↔ t[i] = '"' ∨ ¬ Outside t i := by
    rw [InLiteral, h i hi.le, h (i + 1) hi, outside_succ hget]
    by_cases hquote : t[i] = '"'
    · simp only [hquote, if_true, true_or, iff_true, not_not]
      exact (em _).symm
    · simp only [hquote, if_false, false_or, or_self]
  simp only [hin]

/-! ## What stands in strings does not matter -/

/-- A scan of a text and one of the text with its strings hidden. The second is never in a string,
and outside strings both will find the same names. -/
structure HidesStrings (s r : Scan) : Prop where
  plain : r.quoted = false
  before : s.quoted = false → SameEnd s.before r.before
  parens : List.Forall₂ SameCall s.parens r.parens

lemma separates_tilde : Separates '~' :=
  ⟨⟨by decide, by decide⟩, by decide, by decide, by decide, by decide⟩

lemma endsName_quote : EndsName '"' := ⟨by decide, by decide⟩

/-- A character in a string, or the quote at one of its ends, is hidden from both. -/
lemma HidesStrings.step_hidden {s r : Scan} (h : HidesStrings s r) {c : Char}
    (hc : c = '"' ∨ s.quoted = true) : HidesStrings (s.step c) (r.step '~') where
  plain := by simp [Scan.step, h.plain]
  before := by
    intro hquoted
    -- the string has just been closed, so a quote ends the name in front of it
    have hquote : c = '"' := by
      by_contra hne
      simp [Scan.step, hne, hc.resolve_left hne] at hquoted
    subst hquote
    exact .stop _ _ endsName_quote separates_tilde.ends
  parens := by
    have hs : (s.step c).parens = s.parens := if_pos (by rcases hc with rfl | hc <;> simp [*])
    have hr : (r.step '~').parens = r.parens := by
      simp [Scan.step, h.plain, separates_tilde.stepParens_eq]
    rw [hs, hr]
    exact h.parens

lemma HidesStrings.step_plain {s r : Scan} (h : HidesStrings s r) {c : Char} (hc : c ≠ '"')
    (hs : s.quoted = false) : HidesStrings (s.step c) (r.step c) where
  plain := by simp [Scan.step, h.plain, hc]
  before := fun _ => .cons c (h.before hs)
  parens := by
    simp only [Scan.step, hs, h.plain, hc, beq_iff_eq, Bool.false_or, if_false]
    exact stepParens_same (h.before hs) h.parens c

lemma hidden_concat (t : Text) (c : Char) :
    hidden (t ++ [c]) = hidden t ++ [if c = '"' ∨ ¬ Outside t t.length then '~' else c] := by
  rw [hidden, List.mapIdx_concat]
  congr 1
  · refine List.mapIdx_eq_mapIdx_iff.mpr fun i hi => ?_
    simp only [outside_append t [c] hi.le]
  · simp only [outside_append t [c] (Nat.le_refl _)]

theorem hidesStrings_foldl (t : Text) :
    HidesStrings (t.foldl Scan.step {}) ((hidden t).foldl Scan.step {}) := by
  induction t using List.reverseRecOn with
  | nil => exact ⟨rfl, fun _ => .nil, .nil⟩
  | append_singleton t c ih =>
    have hquoted : (t.foldl Scan.step {}).quoted = decide (¬ Outside t t.length) := by
      rw [foldl_step]
    rw [hidden_concat, List.foldl_concat, List.foldl_concat]
    split
    · rename_i hhidden
      exact ih.step_hidden (by simpa [hquoted] using hhidden)
    · rename_i hshown
      obtain ⟨hc, houtside⟩ := not_or.mp hshown
      exact ih.step_plain hc (by simpa [hquoted] using houtside)

/-- Hiding the strings of the scan leaves the open calls as they are. -/
theorem openCalls_hidden (t : Text) : openCalls (hidden t) = openCalls t :=
  (filterMap_same (hidesStrings_foldl t).parens).symm

/-- What stands in the strings of the scan does not matter to it, and its strings are the literals
exactly when no quote is escaped. On such a text the open calls and their separators do not depend
on what stands in the literals. -/
theorem openCalls_masked (t : Text) :
    openCalls (hidden t) = openCalls t ∧ (StringsAgree t ↔ ∀ i, ¬ EscapedQuote t i) ∧
    ((∀ i, ¬ EscapedQuote t i) → openCalls (masked t) = openCalls t) := by
  refine ⟨openCalls_hidden t, stringsAgree_iff, fun hplain => ?_⟩
  rw [(stringsAgree_iff.mpr hplain).masked_eq, openCalls_hidden]

/-- A literal that ends with an escaped backslash, and one with a comma and a parenthesis in it. -/
def literalsText : Text := "f(\"(,\\\\\", g(\"),\", ".toList

theorem openCalls_masked_literals :
    (∀ i, ¬ EscapedQuote literalsText i) ∧ masked literalsText = "f(~~~~~~, g(~~~~, ".toList ∧
    openCalls literalsText = [⟨"g".toList, 1⟩, ⟨"f".toList, 1⟩] ∧
    openCalls (masked literalsText) = openCalls literalsText := by
  have hplain : ∀ i, ¬ EscapedQuote literalsText i := by
    intro i h
    have hlt : i < 18 := (List.getElem?_eq_some_iff.mp h.1).1
    have hnone : ∀ k < 18, ¬ EscapedQuote literalsText k := by decide +kernel
    exact hnone i hlt h
  exact ⟨hplain, by decide +kernel, by decide, (openCalls_masked literalsText).2.2 hplain⟩

/-- A call whose first argument is a literal with an escaped quote. -/
def escapedLine : Text := " m(\"\\\"\", ".toList

/-- Behind an escaped quote the scan takes the rest of the line for a string. The cursor stands in
the second argument, and the scan finds it in the first one. -/
theorem escapedLine_loses_comma :
    Cursor.contextAt? escapedLine 9 =
      some ⟨[], 9, ["m(\"\\\"\",".toList], some ' '⟩ ∧
    EscapedQuote (escapedLine.take 9) 5 ∧ masked (escapedLine.take 9) = " m(~~~~, ".toList ∧
    openCalls (escapedLine.take 9) = [⟨"m".toList, 0⟩] ∧
    openCalls (masked (escapedLine.take 9)) = [⟨"m".toList, 1⟩] := by
  decide +kernel

end CallSite

end AsmLens
