import AsmLens.Proofs.Source.Blank

/-!
# Spans act on sources

Blanking with a list of spans is an action of the list: blanking with two lists one after the other
is blanking with both. Each position is decided by the spans that blank it, and which these are is
not changed by what has been blanked before, because the lines keep their number and their lengths.
So neither the order of the spans nor their repetition matters, however they overlap and however far
they reach.
-/

namespace AsmLens.Source

variable (lines : List Text) (a b : List Span)

lemma blank_append : blank lines (a ++ b) = blank (blank lines a) b :=
  List.foldl_append

lemma blank_append_comm : blank lines (a ++ b) = blank lines (b ++ a) := by
  refine blank_congr lines fun s => ?_
  rw [List.mem_append, List.mem_append, or_comm]

lemma blank_append_self : blank lines (a ++ a) = blank lines a := by
  refine blank_congr lines fun s => ?_
  rw [List.mem_append, or_self]

variable {lines a b}

lemma blank_perm (h : a.Perm b) : blank lines a = blank lines b :=
  blank_congr lines fun _ => h.mem_iff

/-- What stands in the blanked source is a space or stood there before. -/
lemma eq_space_or_charAt?_eq {line column : Nat} {c : Char}
    (h : charAt? (blank lines a) line column = some c) :
    c = ' ' ∨ charAt? lines line column = some c := by
  rw [charAt?_blank] at h
  obtain ⟨d, hd, heq⟩ := Option.map_eq_some_iff.mp h
  split_ifs at heq
  · exact Or.inl heq.symm
  · exact Or.inr (hd.trans (congrArg some heq))

/-- Spans act on sources, commutatively and idempotently. Blanking with two lists of spans together
is blanking with one after the other, in either order; a second time changes nothing, and neither
does a permutation of the spans. The number of lines and the length of each line are kept, and each
character is kept or becomes a space: a space at the positions that one of the spans blanks, taken
by itself, and what stood there everywhere else. -/
theorem blank_acts (lines : List Text) (a b : List Span) :
    (blank lines (a ++ b) = blank (blank lines a) b ∧
      blank (blank lines a) b = blank lines (b ++ a)) ∧
    (blank lines (a ++ a) = blank lines a ∧ blank (blank lines a) a = blank lines a) ∧
    (∀ a' : List Span, a'.Perm a → blank lines a' = blank lines a) ∧
    ((blank lines a).length = lines.length ∧
      (blank lines a).map List.length = lines.map List.length) ∧
    (∀ line column c, charAt? (blank lines a) line column = some c →
      c = ' ' ∨ charAt? lines line column = some c) ∧
    ∀ line column, charAt? (blank lines a) line column =
      (charAt? lines line column).map fun c =>
        if ∃ s ∈ a, Blanks s lines.length line column then ' ' else c := by
  have htwice : blank (blank lines a) a = blank lines a := by
    rw [← blank_append, blank_append_self]
  refine ⟨⟨blank_append lines a b, ?_⟩, ⟨blank_append_self lines a, htwice⟩,
    fun _ h => blank_perm h, ⟨length_blank lines a, lengths_blank lines a⟩,
    fun _ _ _ h => eq_space_or_charAt?_eq h, charAt?_blank lines a⟩
  rw [← blank_append, blank_append_comm]

/-- Spans that overlap, one of them reversed and one that runs past the end. -/
theorem blank_acts_overlapping :
    let lines := ["lda #1 // a".toList, "b /* c".toList, "nop".toList]
    let a : List Span := [⟨0, 7, 0, 11, 0⟩, ⟨1, 2, 8, 1, 0⟩]
    let b : List Span := [⟨0, 9, 2, 1, 0⟩, ⟨2, 2, 0, 0, 0⟩]
    (blank lines (a ++ b) = blank (blank lines a) b ∧
      blank (blank lines a) b = blank lines (b ++ a)) ∧
    a.reverse.Perm a ∧ blank lines a.reverse = blank lines a ∧
    charAt? (blank lines b) 1 0 = some ' ' ∧ charAt? (blank lines a) 1 0 = some 'b' ∧
    charAt? lines 1 0 = some 'b' ∧
    blank lines a = ["lda #1     ".toList, "b     ".toList, "   ".toList] := by
  intro lines a b
  obtain ⟨hboth, -, hperm, -, hkept, -⟩ := blank_acts lines a b
  have hblanked : charAt? (blank lines a) 1 0 = some 'b' := by decide
  exact ⟨hboth, a.reverse_perm, hperm a.reverse a.reverse_perm, by decide, hblanked,
    (hkept 1 0 'b' hblanked).resolve_left (by decide), by decide⟩

end AsmLens.Source
