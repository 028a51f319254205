import AsmLens.Assist.Completion
import AsmLens.Assist.Definition
import AsmLens.Assist.Hover
import AsmLens.Assist.Signature
import AsmLens.Proofs.Source.Literal
import Mathlib.Data.List.TakeWhile

/-!
# Where there is a context

A cursor has no context behind the slashes of a line comment, inside a string literal and at a word
with a quote at one of its ends, and it has one everywhere else. Without a context nothing is said,
whatever the snapshot. A context splits the text in front of the cursor at white space: the token of
the cursor starts at the start of the line or behind white space, and the tokens in front of it are
all that stands there but for the white space.
-/

namespace AsmLens

namespace Text

lemma flatten_splitBy (p : Char → Bool) (t : Text) :
    (splitBy p t).flatten = t.filter (!p ·) := by
  induction t with
  | nil => rfl
  | cons c cs ih =>
    rw [splitBy]
    by_cases hc : p c
    · simp [hc, ih]
    · cases hs : splitBy p cs with
      | nil => simp [hc, ← ih, hs]
      | cons w ws => simp [hc, ← ih, hs]

lemma of_mem_splitBy {p : Char → Bool} {t w : Text} (h : w ∈ splitBy p t) :
    ∀ c ∈ w, p c = false := by
  induction t generalizing w with
  | nil =>
    rw [splitBy, List.mem_singleton] at h
    simp [h]
  | cons c cs ih =>
    rw [splitBy] at h
    split at h
    · rcases List.mem_cons.mp h with rfl | h
      · simp
      · exact ih h
    · rename_i hc
      split at h
      · rw [List.mem_singleton.mp h]
        simpa using hc
      · rename_i first rest hs
        rcases List.mem_cons.mp h with rfl | h
        · have hfirst := ih (hs ▸ List.mem_cons_self)
          simpa [hc] using hfirst
        · exact ih (hs ▸ List.mem_cons_of_mem first h)

/-- The words of a text are what stands in it but for the white space. -/
theorem flatten_words (t : Text) : (words t).flatten = t.filter (!isSpace ·) := by
  rw [words, List.flatten_filter_not_isEmpty, flatten_splitBy]

lemma of_mem_words {t w : Text} (h : w ∈ words t) : w ≠ [] ∧ ∀ c ∈ w, isSpace c = false := by
  obtain ⟨hmem, hne⟩ := List.mem_filter.mp h
  exact ⟨by simpa using hne, of_mem_splitBy hmem⟩

end Text

namespace Cursor

/-- A text starts or ends with a double or single quote. -/
def HasOuterQuote (t : Text) : Prop :=
  ∃ q, (q = '"' ∨ q = '\x27') ∧ (t.head? = some q ∨ t.getLast? = some q)

/-- A context splits the text of a line in front of a column at white space. -/
structure Splits (t : Text) (column : Nat) (x : Context) : Prop where
  start_le : x.tokenStart ≤ column
  token : x.token = Text.slice x.tokenStart column t
  token_ink : ∀ c ∈ x.token, Text.isSpace c = false
  start : x.tokenStart = 0 ∨ ∃ c, t[x.tokenStart - 1]? = some c ∧ Text.isSpace c = true
  preceding : ∀ w ∈ x.preceding, w ≠ [] ∧ ∀ c ∈ w, Text.isSpace c = false
  preceding_flatten : x.preceding.flatten = (t.take x.tokenStart).filter (!Text.isSpace ·)
  trigger : x.trigger = if column = 0 then none else t[column - 1]?

/-- Nothing is said at a position of a text, whatever the snapshot. -/
def Silent (text : Text) (p : Position) : Prop :=
  ∀ snapshot : Snapshot, Completion.provide snapshot text p = [] ∧
    Hover.provide? snapshot text p = none ∧ SignatureHint.provide? snapshot text p = none ∧
    Definition.provide? snapshot text p = none

/-! ## The token of the cursor -/

lemma clamp_le (line : Text) (column : Nat) : clamp line column ≤ line.length :=
  Nat.min_le_right _ _

lemma clamp_mono (line : Text) {column later : Nat} (h : column ≤ later) :
    clamp line column ≤ clamp line later := by
  unfold clamp
  omega

/-- The text in front of a column is cut where the run that ends there starts. -/
lemma take_eq_append_run (p : Char → Bool) {line : Text} {column : Nat}
    (hcolumn : column ≤ line.length) :
    ∃ front run, line.take column = front ++ run ∧ front.length = runStart p line column ∧
      (∀ c ∈ run, p c = true) ∧ ∀ c ∈ front.getLast?, p c = false := by
  have hleft := List.takeWhile_append_dropWhile (p := p) (l := (line.take column).reverse)
  refine ⟨((line.take column).reverse.dropWhile p).reverse,
    ((line.take column).reverse.takeWhile p).reverse, ?_, ?_, ?_, ?_⟩
  · rw [← List.reverse_append, hleft, List.reverse_reverse]
  · have hlength := congrArg List.length hleft
    rw [List.length_append, List.length_reverse, List.length_take_of_le hcolumn] at hlength
    rw [List.length_reverse, runStart]
    omega
  · intro c hc
    exact List.mem_takeWhile_imp (List.mem_reverse.mp hc)
  · intro c hc
    rw [List.getLast?_reverse] at hc
    have hne : (line.take column).reverse.dropWhile p ≠ [] := by
      intro hnil
      rw [hnil] at hc
      cases hc
    have hhead := List.head_dropWhile_not p hne
    rw [List.head?_eq_some_head hne] at hc
    cases hc
    exact hhead

lemma touchesQuote_iff {t : Text} : touchesQuote t = true ↔ HasOuterQuote t := by
  have hquote : ∀ o : Option Char, o.any isQuote = true ↔
      ∃ q, (q = '"' ∨ q = '\x27') ∧ o = some q := by
    intro o
    cases o <;> simp [isQuote]
  rw [touchesQuote, Bool.or_eq_true, hquote, hquote, HasOuterQuote]
  simp only [and_or_left, exists_or]

lemma getLast?_take_of_le {t : Text} {column : Nat} (h : column ≤ t.length) :
    (t.take column).getLast? = if column = 0 then none else t[column - 1]? := by
  rw [List.getLast?_take]
  split
  · rfl
  · rw [List.getElem?_eq_getElem (by omega), Option.some_or]

/-- What a context holds. -/
def contextOf (line : Text) (column : Nat) : Context where
  token := (line.take column).drop (runStart isInk line column)
  tokenStart := runStart isInk line column
  preceding := Text.words ((line.take column).take (runStart isInk line column))
  trigger := (line.take column).getLast?

theorem splits_contextOf {line : Text} {column : Nat} (hcolumn : column ≤ line.length) :
    Splits line column (contextOf line column) := by
  obtain ⟨front, run, hleft, hfront, hrun, hlast⟩ := take_eq_append_run isInk hcolumn
  have hstart : runStart isInk line column ≤ column := Nat.sub_le _ _
  have htake : line.take (runStart isInk line column) = front := by
    rw [← hfront, ← Nat.min_eq_left (hfront ▸ hstart : front.length ≤ column), ← List.take_take,
      hleft, List.take_left]
  refine ⟨hstart, rfl, ?_, ?_, fun w hw => Text.of_mem_words hw, ?_, ?_⟩
  · intro c hc
    rw [contextOf, hleft, ← hfront, List.drop_left] at hc
    simpa [isInk] using hrun c hc
  · by_cases hzero : runStart isInk line column = 0
    · exact Or.inl hzero
    · right
      rw [← htake, getLast?_take_of_le (hstart.trans hcolumn), if_neg hzero] at hlast
      have hinside : runStart isInk line column - 1 < line.length := by omega
      refine ⟨_, List.getElem?_eq_getElem hinside, ?_⟩
      simpa [isInk] using hlast _ (List.getElem?_eq_getElem hinside)
  · rw [contextOf, Text.flatten_words, List.take_take, Nat.min_eq_left hstart]
  · exact getLast?_take_of_le hcolumn

/-! ## Places without a context -/

lemma contextAt?_eq (line : Text) (cursor : Nat) :
    contextAt? line cursor =
      if (Source.commentStart? (line.take (clamp line cursor))).isSome ||
          Source.endsQuoted (line.take (clamp line cursor)) ||
          (wordAt? line (clamp line cursor)).any (fun w => touchesQuote w.text)
      then none else some (contextOf line (clamp line cursor)) := rfl

theorem contextAt?_eq_none_iff (line : Text) (cursor : Nat) :
    contextAt? line cursor = none ↔
      (∃ k, Source.commentStart? line = some k ∧ k + 2 ≤ clamp line cursor) ∨
      Source.EndsInLiteral (line.take (clamp line cursor)) ∨
      ∃ w, wordAt? line (clamp line cursor) = some w ∧ HasOuterQuote w.text := by
  have hword : (wordAt? line (clamp line cursor)).any (fun w => touchesQuote w.text) = true ↔
      ∃ w, wordAt? line (clamp line cursor) = some w ∧ HasOuterQuote w.text := by
    rw [Option.any_eq_true]
    simp only [touchesQuote_iff]
  have hcomment : (Source.commentStart? (line.take (clamp line cursor))).isSome = true ↔
      ∃ k, Source.commentStart? line = some k ∧ k + 2 ≤ clamp line cursor := by
    rw [Option.isSome_iff_exists]
    simp only [Source.commentStart?_take]
  rw [contextAt?_eq, ← hcomment, ← Source.endsQuoted_iff, ← hword, ← or_assoc, ← Bool.or_eq_true,
    ← Bool.or_eq_true]
  split
  · rename_i hnone
    exact iff_of_true rfl hnone
  · rename_i hsome
    exact iff_of_false nofun hsome

lemma splits_of_contextAt? {line : Text} {cursor : Nat} {x : Context}
    (h : contextAt? line cursor = some x) : Splits line (clamp line cursor) x := by
  rw [contextAt?_eq] at h
  split at h
  · cases h
  · cases h
    exact splits_contextOf (clamp_le line cursor)

/-- Without a context nothing is said. -/
theorem silent_of_contextAt? {text line : Text} {p : Position}
    (hline : Source.line? text p.line = some line)
    (h : contextAt? line (Text.columnOfUnits line p.character) = none) : Silent text p := by
  have hspot : Spot.at? text p = none := by
    simp [Spot.at?, hline, h]
  intro snapshot
  refine ⟨?_, ?_, ?_, ?_⟩
  · simp [Completion.provide, hspot]
  · simp [Hover.provide?, Hover.sections, hspot]
  · simp [SignatureHint.provide?, hspot]
  · simp [Definition.provide?, hspot]

/-- A line comment starts at the first two slashes outside string literals, and it is found in front
of a cursor exactly when both slashes stand there. A cursor has no context when they do, when it
stands inside a string literal, and when its word has a quote at one of its ends. So from the
slashes on there is none up to the end of the line, and nothing is said. A context splits the text
in front of the cursor at white space and loses nothing else. -/
theorem contextAt?_faithful (line : Text) (cursor : Nat) :
    let c := clamp line cursor
    (∀ k, Source.commentStart? line = some k ↔ IsLeast {k | Source.OpensComment line k} k) ∧
    (∀ k, Source.commentStart? (line.take c) = some k ↔
      Source.commentStart? line = some k ∧ k + 2 ≤ c) ∧
    (contextAt? line cursor = none ↔
      (∃ k, Source.commentStart? line = some k ∧ k + 2 ≤ c) ∨
      Source.EndsInLiteral (line.take c) ∨
      ∃ w, wordAt? line c = some w ∧ HasOuterQuote w.text) ∧
    (∀ k, Source.commentStart? line = some k → k + 2 ≤ c → ∀ later, cursor ≤ later →
      contextAt? line later = none ∧
      ∀ text p, Source.line? text p.line = some line →
        Text.columnOfUnits line p.character = later → Silent text p) ∧
    (contextAt? line cursor = none → ∀ text p, Source.line? text p.line = some line →
      Text.columnOfUnits line p.character = cursor → Silent text p) ∧
    ∀ x, contextAt? line cursor = some x → Splits line c x := by
  intro c
  refine ⟨fun k => Source.commentStart?_eq_some_iff, fun k => Source.commentStart?_take,
    contextAt?_eq_none_iff line cursor, ?_, ?_, fun x => splits_of_contextAt?⟩
  · intro k hk hc later hlater
    have hnone : contextAt? line later = none :=
      (contextAt?_eq_none_iff line later).mpr
        (Or.inl ⟨k, hk, hc.trans (clamp_mono line hlater)⟩)
    refine ⟨hnone, ?_⟩
    rintro text p hline rfl
    exact silent_of_contextAt? hline hnone
  · rintro hnone text p hline rfl
    exact silent_of_contextAt? hline hnone

/-- A literal with slashes and a quote inside, and a comment behind it. -/
def commentedLine : Text := ".text \"a//\\\"b\" // end".toList

theorem contextAt?_faithful_commented :
    Source.commentStart? commentedLine = some 15 ∧ 15 + 2 ≤ clamp commentedLine 17 ∧
    (∀ later, 17 ≤ later → contextAt? commentedLine later = none) ∧
    Source.line? commentedLine 0 = some commentedLine ∧
    Text.columnOfUnits commentedLine 19 = 19 ∧ Silent commentedLine ⟨0, 19⟩ ∧
    contextAt? commentedLine 16 =
      some ⟨"/".toList, 15, [".text".toList, "\"a//\\\"b\"".toList], some '/'⟩ ∧
    Splits commentedLine 16
      ⟨"/".toList, 15, [".text".toList, "\"a//\\\"b\"".toList], some '/'⟩ ∧
    contextAt? commentedLine 11 = none ∧ Silent commentedLine ⟨0, 11⟩ := by
  obtain ⟨_, _, _, hpast, _, _⟩ := contextAt?_faithful commentedLine 17
  obtain ⟨_, _, _, _, _, hsplits⟩ := contextAt?_faithful commentedLine 16
  obtain ⟨_, _, _, _, hsilent, _⟩ := contextAt?_faithful commentedLine 11
  have hstart : Source.commentStart? commentedLine = some 15 := by decide +kernel
  have hline : Source.line? commentedLine 0 = some commentedLine := by decide +kernel
  have hcontext : contextAt? commentedLine 16 =
      some ⟨"/".toList, 15, [".text".toList, "\"a//\\\"b\"".toList], some '/'⟩ := by
    decide +kernel
  have hinside : contextAt? commentedLine 11 = none := by decide +kernel
  exact ⟨hstart, by decide, fun later hlater => (hpast 15 hstart (by decide) later hlater).1,
    hline, by decide,
    (hpast 15 hstart (by decide) 19 (by decide)).2 commentedLine ⟨0, 19⟩ hline (by decide),
    hcontext, hsplits _ hcontext, hinside,
    hsilent hinside commentedLine ⟨0, 11⟩ hline (by decide)⟩

end Cursor

end AsmLens
