import AsmLens.Proofs.Buffer.Lines
import AsmLens.Proofs.Cursor.Context

/-!
# The identifier under a cursor

The identifier characters around a column are a run, and the identifier is what is left of the run
without the dots at its end and the dots at its start that no letter follows. It does not depend on
the place of the column in the run. So it is the same from each of its own columns, both ends
included, and two identifiers of a line never touch.
-/

namespace AsmLens.Cursor

/-- A dot at the start has a letter behind it. -/
def DotLeadsLetter (t : Text) : Prop :=
  t.head? = some '.' → ∃ c, t[1]? = some c ∧ Text.isAlphabetic c = true

/-- There is no letter at the start. -/
def NoLetterFirst (t : Text) : Prop := ∀ c ∈ t.head?, Text.isAlphabetic c = false

/-- A stretch of a line that is an identifier. -/
structure IsIdentifier (t : Text) (w : Word) : Prop where
  start_lt : w.start < w.stop
  stop_le : w.stop ≤ t.length
  text : w.text = Text.slice w.start w.stop t
  chars : ∀ c ∈ w.text, isIdentifierChar c = true
  last : w.text.getLast? ≠ some '.'
  head : DotLeadsLetter w.text
  /-- A letter keeps the dot in front of it. -/
  before : 0 < w.start → t[w.start - 1]? = some '.' → NoLetterFirst w.text

/-- From a column to a character of the line, itself included, there are identifier characters
only. -/
def Linked (t : Text) (column k : Nat) : Prop :=
  ∀ i, min column k ≤ i → i < max column (k + 1) →
    ∃ c, t[i]? = some c ∧ isIdentifierChar c = true

/-- A line cut around a run of identifier characters and the run cut into loose dots, an identifier
and dots. A run of dots has an empty identifier. -/
structure Cut where
  front : Text
  loose : Text
  core : Text
  dots : Text
  back : Text
  front_last : ∀ c ∈ front.getLast?, isIdentifierChar c = false
  loose_eq : ∀ c ∈ loose, c = '.'
  loose_next : loose ≠ [] → NoLetterFirst core
  core_chars : ∀ c ∈ core, isIdentifierChar c = true
  core_head : DotLeadsLetter core
  core_last : core.getLast? ≠ some '.'
  dots_eq : ∀ c ∈ dots, c = '.'
  back_head : ∀ c ∈ back.head?, isIdentifierChar c = false

namespace Cut

def run (x : Cut) : Text := x.loose ++ x.core ++ x.dots

def line (x : Cut) : Text := x.front ++ x.run ++ x.back

def word (x : Cut) : Word where
  text := x.core
  start := x.front.length + x.loose.length
  stop := x.front.length + x.loose.length + x.core.length

lemma word_start (x : Cut) : x.word.start = x.front.length + x.loose.length := rfl

lemma word_stop (x : Cut) :
    x.word.stop = x.front.length + x.loose.length + x.core.length := rfl

/-- A column stands in the run or at one of its ends. -/
def Reaches (x : Cut) (column : Nat) : Prop :=
  x.front.length ≤ column ∧ column ≤ (x.front ++ x.run).length

end Cut

/-! ## Runs -/

lemma takeWhile_append_stop {p : Char → Bool} {run rest : Text} (hrun : ∀ c ∈ run, p c = true)
    (hrest : ∀ c ∈ rest.head?, p c = false) : (run ++ rest).takeWhile p = run := by
  have hstop : rest.takeWhile p = [] := by
    cases rest with
    | nil => rfl
    | cons c cs => rw [List.takeWhile_cons, hrest c rfl, if_neg Bool.false_ne_true]
  rw [List.takeWhile_append_of_pos hrun, hstop, List.append_nil]

/-- From every column of a run its two ends are found. -/
lemma run_bounds {p : Char → Bool} {front run back : Text}
    (hfront : ∀ c ∈ front.getLast?, p c = false) (hrun : ∀ c ∈ run, p c = true)
    (hback : ∀ c ∈ back.head?, p c = false) {column : Nat} (hge : front.length ≤ column)
    (hle : column ≤ (front ++ run).length) :
    runStart p (front ++ run ++ back) column = front.length ∧
      runStop p (front ++ run ++ back) column = (front ++ run).length := by
  obtain ⟨left, right, rfl, rfl⟩ :
      ∃ left right, run = left ++ right ∧ column = (front ++ left).length := by
    refine ⟨run.take (column - front.length), run.drop (column - front.length),
      (List.take_append_drop _ run).symm, ?_⟩
    rw [List.length_append] at hle
    rw [List.length_append, List.length_take]
    omega
  have hline : front ++ (left ++ right) ++ back = front ++ left ++ (right ++ back) := by
    simp only [List.append_assoc]
  have hleft : (left.reverse ++ front.reverse).takeWhile p = left.reverse := by
    refine takeWhile_append_stop (fun c hc => ?_) (fun c hc => ?_)
    · exact hrun c (List.mem_append_left right (List.mem_reverse.mp hc))
    · rw [List.head?_reverse] at hc
      exact hfront c hc
  have hright : (right ++ back).takeWhile p = right :=
    takeWhile_append_stop (fun c hc => hrun c (List.mem_append_right left hc)) hback
  rw [hline]
  constructor
  · rw [runStart, List.take_left, List.reverse_append, hleft, List.length_reverse,
      List.length_append, Nat.add_sub_cancel]
  · rw [runStop, List.drop_left, hright, ← List.length_append, List.append_assoc]

/-- Every column of a line stands in a run, which may be empty. -/
lemma exists_run (p : Char → Bool) {line : Text} {column : Nat} (hcolumn : column ≤ line.length) :
    ∃ front run back, line = front ++ run ++ back ∧ front.length ≤ column ∧
      column ≤ (front ++ run).length ∧ (∀ c ∈ front.getLast?, p c = false) ∧
      (∀ c ∈ run, p c = true) ∧ ∀ c ∈ back.head?, p c = false := by
  obtain ⟨front, left, hleft, -, hrun, hfront⟩ := take_eq_append_run p hcolumn
  have hlength : (front ++ left).length = column := by
    rw [← hleft, List.length_take_of_le hcolumn]
  refine ⟨front, left ++ (line.drop column).takeWhile p, (line.drop column).dropWhile p,
    ?_, ?_, ?_, hfront, ?_, ?_⟩
  · rw [← List.append_assoc, List.append_assoc, List.takeWhile_append_dropWhile, ← hleft,
      List.take_append_drop]
  · rw [← hlength, List.length_append]
    omega
  · rw [← List.append_assoc, List.length_append, hlength]
    omega
  · intro c hc
    rcases List.mem_append.mp hc with hc | hc
    · exact hrun c hc
    · exact List.mem_takeWhile_imp hc
  · intro c hc
    have hhead := List.head?_dropWhile_not p (line.drop column)
    rw [Option.mem_def.mp hc] at hhead
    exact hhead

/-! ## Loose dots -/

lemma isAlphabetic_dot : Text.isAlphabetic '.' = false := by decide +kernel

lemma isIdentifierChar_dot : isIdentifierChar '.' = true := by decide +kernel

/-- Letters are identifier characters, so that no letter stands behind a run. -/
lemma isIdentifierChar_of_isAlphabetic {c : Char} (h : Text.isAlphabetic c = true) :
    isIdentifierChar c = true := by
  simp [isIdentifierChar, Text.isAlphanumeric, h]

lemma noLetterFirst_of_behind {back : Text}
    (h : ∀ c ∈ back.head?, isIdentifierChar c = false) : NoLetterFirst back := by
  intro c hc
  cases hletter : Text.isAlphabetic c with
  | false => rfl
  | true =>
    have hchar := isIdentifierChar_of_isAlphabetic hletter
    rw [h c hc] at hchar
    cases hchar

lemma noLetterFirst_iff {t : Text} :
    NoLetterFirst t ↔ ¬ t.head?.any Text.isAlphabetic = true := by
  cases t with
  | nil => simp [NoLetterFirst]
  | cons c cs => simp [NoLetterFirst]

/-- A dot with a letter behind it is not loose. -/
lemma looseDots_eq_zero {t : Text} (h : DotLeadsLetter t) (back : Text) :
    looseDots t.length (t ++ back) = 0 := by
  cases t with
  | nil => rfl
  | cons c cs =>
    refine if_neg ?_
    rintro ⟨hdot, hletter⟩
    obtain ⟨d, hd, halphabetic⟩ := h (congrArg some hdot)
    rw [List.getElem?_cons_succ, ← List.head?_eq_getElem?] at hd
    obtain ⟨ds, rfl⟩ := List.head?_eq_some_iff.mp hd
    exact hletter halphabetic

/-- The loose dots are counted, unless a letter behind the run follows the last of them. -/
lemma looseDots_append {loose t back : Text} (hloose : ∀ c ∈ loose, c = '.')
    (hhead : DotLeadsLetter t) (hnext : loose ≠ [] → NoLetterFirst t)
    (hback : NoLetterFirst back) :
    looseDots (loose ++ t).length (loose ++ t ++ back) = loose.length := by
  induction loose with
  | nil => exact looseDots_eq_zero hhead back
  | cons c cs ih =>
    obtain ⟨rfl, hcs⟩ := List.forall_mem_cons.mp hloose
    have hafter : NoLetterFirst (cs ++ t ++ back) := by
      intro d hd
      cases cs with
      | cons e es =>
        obtain rfl : e = d := Option.some.inj hd
        rw [hcs e List.mem_cons_self]
        exact isAlphabetic_dot
      | nil =>
        cases t with
        | nil => exact hback d hd
        | cons e es => exact hnext (List.cons_ne_nil _ _) d hd
    have hrest := ih hcs fun _ => hnext (List.cons_ne_nil _ _)
    rw [List.cons_append, List.cons_append, List.length_cons, looseDots,
      if_pos ⟨rfl, noLetterFirst_iff.mp hafter⟩, hrest, List.length_cons]

/-- Every text falls into loose dots and a rest without them. -/
lemma exists_loose (t : Text) :
    ∃ loose rest, t = loose ++ rest ∧ (∀ c ∈ loose, c = '.') ∧ DotLeadsLetter rest ∧
      (loose ≠ [] → NoLetterFirst rest) := by
  induction t with
  | nil => exact ⟨[], [], rfl, nofun, nofun, fun h => absurd rfl h⟩
  | cons c cs ih =>
    by_cases hdot : c = '.' ∧ NoLetterFirst cs
    · obtain ⟨rfl, hletter⟩ := hdot
      obtain ⟨loose, rest, rfl, hloose, hhead, hnext⟩ := ih
      refine ⟨'.' :: loose, rest, rfl, List.forall_mem_cons.mpr ⟨rfl, hloose⟩, hhead, fun _ => ?_⟩
      -- The dot is the only one, or there are more and the induction knows.
      by_cases hnil : loose = []
      · subst hnil
        exact hletter
      · exact hnext hnil
    · refine ⟨[], c :: cs, rfl, nofun, fun hc => ?_, fun h => absurd rfl h⟩
      have hletter := fun h => hdot ⟨Option.some.inj hc, noLetterFirst_iff.mpr h⟩
      obtain ⟨d, hd, halphabetic⟩ := (Option.any_eq_true _ _).mp (not_not.mp hletter)
      exact ⟨d, List.head?_eq_getElem? ▸ hd, halphabetic⟩

/-- Every text falls into loose dots, a part that has no loose dots at its ends, and dots. -/
lemma exists_core (t : Text) :
    ∃ loose core dots, t = loose ++ core ++ dots ∧ (∀ c ∈ loose, c = '.') ∧
      (loose ≠ [] → NoLetterFirst core) ∧ DotLeadsLetter core ∧
      core.getLast? ≠ some '.' ∧ ∀ c ∈ dots, c = '.' := by
  obtain ⟨loose, rest, hsplit, hloose, hhead, hnext⟩ := exists_loose t
  obtain ⟨dots, htail, hdots, hlast⟩ := Text.exists_dropEndWhile_append (· == '.') rest
  generalize Text.dropEndWhile (· == '.') rest = core at htail hlast
  rw [htail] at hsplit hhead hnext
  have hend : core.getLast? ≠ some '.' := fun hdot => nomatch hlast '.' hdot
  have hkept : ∀ c ∈ core.head?, c ∈ (core ++ dots).head? := by
    intro c hc
    rw [Option.mem_def, List.head?_append, Option.mem_def.mp hc, Option.some_or]
  refine ⟨loose, core, dots, by rw [List.append_assoc, ← hsplit], hloose,
    fun hne c hc => hnext hne c (hkept c hc), fun hdot => ?_, hend,
    fun c hc => beq_iff_eq.mp (hdots c hc)⟩
  obtain ⟨c, hc, hletter⟩ := hhead (hkept '.' hdot)
  -- A dot alone would be the last character.
  have hlong : 1 < core.length := by
    obtain ⟨cs, rfl⟩ := List.head?_eq_some_iff.mp hdot
    cases cs with
    | nil => exact absurd rfl hend
    | cons d ds => simp
  rw [List.getElem?_append_left hlong] at hc
  exact ⟨c, hc, hletter⟩

/-! ## Cuts -/

namespace Cut

lemma run_chars (x : Cut) : ∀ c ∈ x.run, isIdentifierChar c = true := by
  intro c hc
  rcases List.mem_append.mp hc with hc | hc
  · rcases List.mem_append.mp hc with hc | hc
    · exact x.loose_eq c hc ▸ isIdentifierChar_dot
    · exact x.core_chars c hc
  · exact x.dots_eq c hc ▸ isIdentifierChar_dot

/-- In a run of dots all of them are loose. -/
lemma looseDots_run (x : Cut) :
    looseDots x.run.length (x.run ++ x.back) =
      if x.core = [] then x.run.length else x.loose.length := by
  have hback := noLetterFirst_of_behind x.back_head
  split
  · rename_i hcore
    have hrun : x.run = (x.loose ++ x.dots) ++ [] := by
      rw [run, hcore, List.append_nil, List.append_nil]
    have hdots : ∀ c ∈ x.loose ++ x.dots, c = '.' := by
      intro c hc
      rcases List.mem_append.mp hc with hc | hc
      · exact x.loose_eq c hc
      · exact x.dots_eq c hc
    have hnothing : DotLeadsLetter [] := nofun
    rw [hrun, looseDots_append hdots hnothing (fun _ _ h => nomatch h) hback, List.append_nil]
  · rename_i hcore
    have hhead : (x.core ++ x.dots).head? = x.core.head? := List.head?_append_of_ne_nil _ hcore
    rw [run, List.append_assoc]
    refine looseDots_append x.loose_eq (fun hdot => ?_) (fun hne c hc => ?_) hback
    · obtain ⟨d, hd, hletter⟩ := x.core_head (hhead ▸ hdot)
      refine ⟨d, ?_, hletter⟩
      rw [List.getElem?_append_left (List.getElem?_eq_some_iff.mp hd).1]
      exact hd
    · exact x.loose_next hne c (hhead ▸ hc)

/-- From every column of the run, both ends included, the same identifier is found. -/
theorem identifierAt?_eq (x : Cut) {column : Nat} (h : x.Reaches column) :
    identifierAt? x.line column = if x.core = [] then none else some x.word := by
  obtain ⟨hfirst, hlast⟩ := run_bounds x.front_last x.run_chars x.back_head h.1 h.2
  rw [← line] at hfirst hlast
  have hclamp : clamp x.line column = column := by
    have hle := h.2
    rw [clamp, line, List.length_append]
    omega
  have hcount : (x.front ++ x.run).length - x.front.length = x.run.length := by
    rw [List.length_append, Nat.add_sub_cancel_left]
  have hrest : x.line.drop x.front.length = x.run ++ x.back := by
    rw [line, List.append_assoc, List.drop_left]
  have htake : x.line.take (x.front ++ x.run).length = x.front ++ x.run := by
    rw [line, List.take_left]
  simp only [identifierAt?, hclamp, hfirst, hlast, hcount, hrest, x.looseDots_run, Text.slice,
    htake]
  split
  · rw [← List.length_append, List.drop_length]
    rfl
  · rename_i hcore
    have hword : (x.front ++ x.run).drop (x.front.length + x.loose.length) = x.core ++ x.dots := by
      rw [run, ← List.length_append, List.append_assoc, ← List.append_assoc, List.drop_left]
    have htrim : Text.dropEndWhile (· == '.') (x.core ++ x.dots) = x.core := by
      refine Text.dropEndWhile_append (fun c hc => beq_iff_eq.mpr (x.dots_eq c hc)) fun c hc => ?_
      refine beq_eq_false_iff_ne.mpr ?_
      rintro rfl
      exact x.core_last hc
    rw [hword, htrim]
    simp [hcore, word]

/-- Every column of a line is reached by a cut of it. -/
theorem exists_reaches {line : Text} {column : Nat} (hcolumn : column ≤ line.length) :
    ∃ x : Cut, x.line = line ∧ x.Reaches column := by
  obtain ⟨front, run, back, rfl, hge, hle, hfront, hrun, hback⟩ :=
    exists_run isIdentifierChar hcolumn
  obtain ⟨loose, core, dots, rfl, hloose, hnext, hhead, hlast, hdots⟩ := exists_core run
  have hcore : ∀ c ∈ core, isIdentifierChar c = true := fun c hc =>
    hrun c (List.mem_append_left dots (List.mem_append_right loose hc))
  exact ⟨⟨front, loose, core, dots, back, hfront, hloose, hnext, hcore, hhead, hlast, hdots, hback⟩,
    rfl, hge, hle⟩

/-! ## The line around a cut -/

lemma getElem?_line (x : Cut) {i : Nat} (hge : x.front.length ≤ i)
    (hlt : i < (x.front ++ x.run).length) : x.line[i]? = x.run[i - x.front.length]? := by
  rw [line, List.getElem?_append_left hlt, List.getElem?_append_right hge]

lemma char_before (x : Cut) {c : Char} (hpos : 0 < x.front.length)
    (hc : x.line[x.front.length - 1]? = some c) : isIdentifierChar c = false := by
  rw [line, List.append_assoc, List.getElem?_append_left (by omega),
    ← List.getLast?_eq_getElem?] at hc
  exact x.front_last c hc

lemma char_behind (x : Cut) {c : Char} (hc : x.line[(x.front ++ x.run).length]? = some c) :
    isIdentifierChar c = false := by
  rw [line, List.getElem?_append_right le_rfl, Nat.sub_self, ← List.head?_eq_getElem?] at hc
  exact x.back_head c hc

theorem isIdentifier_word (x : Cut) (hcore : x.core ≠ []) : IsIdentifier x.line x.word where
  start_lt := Nat.lt_add_of_pos_right (List.length_pos_of_ne_nil hcore)
  stop_le := by
    simp only [word_stop, line, run, List.length_append]
    omega
  text := by
    have hline : x.line = (x.front ++ x.loose ++ x.core) ++ (x.dots ++ x.back) := by
      simp only [line, run, List.append_assoc]
    rw [word, Text.slice, hline, ← List.length_append, ← List.length_append, List.take_left,
      List.drop_left]
  chars := x.core_chars
  last := x.core_last
  head := x.core_head
  before := by
    intro hpos hdot
    refine x.loose_next fun hnil => ?_
    -- Without loose dots the dot would stand in front of the run.
    have hstart : x.word.start = x.front.length := by
      rw [word_start, hnil, List.length_nil, Nat.add_zero]
    rw [hstart] at hpos hdot
    have hother := x.char_before hpos hdot
    rw [isIdentifierChar_dot] at hother
    cases hother

/-- A column of the run is linked to the characters of the run and to no other. -/
theorem linked_iff (x : Cut) {column k : Nat} (h : x.Reaches column) :
    Linked x.line column k ↔ x.front.length ≤ k ∧ k < (x.front ++ x.run).length := by
  obtain ⟨hge, hle⟩ := h
  constructor
  · intro hlinked
    constructor
    · by_contra hk
      obtain ⟨c, hc, hchar⟩ := hlinked (x.front.length - 1) (by omega) (by omega)
      rw [x.char_before (by omega) hc] at hchar
      cases hchar
    · by_contra hk
      obtain ⟨c, hc, hchar⟩ := hlinked (x.front ++ x.run).length (by omega) (by omega)
      rw [x.char_behind hc] at hchar
      cases hchar
  · rintro ⟨hkge, hklt⟩ i hige hilt
    have hi : i < (x.front ++ x.run).length := by omega
    refine ⟨_, (x.getElem?_line (by omega) hi).trans (List.getElem?_eq_getElem ?_), ?_⟩
    · rw [List.length_append] at hi
      omega
    · exact x.run_chars _ (List.getElem_mem _)

/-- The run has no characters but dots outside the identifier. -/
theorem mem_word_of_ne_dot (x : Cut) {k : Nat} {c : Char} (hge : x.front.length ≤ k)
    (hlt : k < (x.front ++ x.run).length) (hc : x.line[k]? = some c) (hne : c ≠ '.') :
    x.word.start ≤ k ∧ k < x.word.stop := by
  rw [x.getElem?_line hge hlt, run] at hc
  rw [word_start, word_stop]
  constructor
  · by_contra hk
    rw [List.append_assoc, List.getElem?_append_left (by omega)] at hc
    exact hne (x.loose_eq c (List.mem_of_getElem? hc))
  · by_contra hk
    rw [List.getElem?_append_right (by rw [List.length_append]; omega)] at hc
    exact hne (x.dots_eq c (List.mem_of_getElem? hc))

/-- The columns of the identifier, both ends included, are columns of the run. -/
lemma reaches_of_word (x : Cut) {column : Nat} (hge : x.word.start ≤ column)
    (hle : column ≤ x.word.stop) : x.Reaches column := by
  rw [word_start] at hge
  rw [word_stop] at hle
  simp only [Reaches, run, List.length_append]
  omega

end Cut

/-! ## The identifier at a column -/

/-- The identifier at a column is the one in the middle of the cut that reaches the column. -/
theorem identifierAt?_eq_some_iff {line : Text} {column : Nat} {w : Word} :
    identifierAt? line column = some w ↔
      ∃ x : Cut, x.line = line ∧ x.Reaches (clamp line column) ∧ x.core ≠ [] ∧ x.word = w := by
  have hclamp : identifierAt? line column = identifierAt? line (clamp line column) := by
    simp [identifierAt?, clamp]
  rw [hclamp]
  constructor
  · intro h
    obtain ⟨x, hline, hreaches⟩ := Cut.exists_reaches (clamp_le line column)
    refine ⟨x, hline, hreaches, ?_⟩
    rw [← hline] at h hreaches
    rw [x.identifierAt?_eq hreaches] at h
    split at h
    · cases h
    · rename_i hcore
      exact ⟨hcore, Option.some.inj h⟩
  · rintro ⟨x, rfl, hreaches, hcore, rfl⟩
    rw [x.identifierAt?_eq hreaches, if_neg hcore]

lemma isIdentifier_of_identifierAt? {line : Text} {column : Nat} {w : Word}
    (h : identifierAt? line column = some w) : IsIdentifier line w := by
  obtain ⟨x, rfl, -, hcore, rfl⟩ := identifierAt?_eq_some_iff.mp h
  exact x.isIdentifier_word hcore

lemma identifierAt?_of_between {line : Text} {column c : Nat} {w : Word}
    (h : identifierAt? line column = some w) (hge : w.start ≤ c) (hle : c ≤ w.stop) :
    identifierAt? line c = some w := by
  obtain ⟨x, rfl, -, hcore, rfl⟩ := identifierAt?_eq_some_iff.mp h
  rw [x.identifierAt?_eq (x.reaches_of_word hge hle), if_neg hcore]

/-- Two identifiers with a column in common, both ends included, are the same one. -/
lemma eq_or_apart {line : Text} {column other : Nat} {v w : Word}
    (hv : identifierAt? line column = some v) (hw : identifierAt? line other = some w) :
    v = w ∨ v.stop < w.start ∨ w.stop < v.start := by
  by_cases hapart : v.stop < w.start ∨ w.stop < v.start
  · exact Or.inr hapart
  · have hvlt := (isIdentifier_of_identifierAt? hv).start_lt
    have hwlt := (isIdentifier_of_identifierAt? hw).start_lt
    have hsame : some v = some w := by
      rw [← identifierAt?_of_between hv (c := max v.start w.start) (by omega) (by omega),
        identifierAt?_of_between hw (by omega) (by omega)]
    exact Or.inl (Option.some.inj hsame)

/-- The identifier at a column holds all characters that the column is linked to, up to dots. -/
lemma linked_iff_mem {t : Text} {column k : Nat} {c : Char} (hc : t[k]? = some c)
    (hne : c ≠ '.') : Linked t (clamp t column) k ↔
      ∃ w, identifierAt? t column = some w ∧ w.start ≤ k ∧ k < w.stop := by
  constructor
  · intro hlinked
    obtain ⟨x, rfl, hreaches⟩ := Cut.exists_reaches (clamp_le t column)
    obtain ⟨hge, hlt⟩ := (x.linked_iff hreaches).mp hlinked
    obtain ⟨hstart, hstop⟩ := x.mem_word_of_ne_dot hge hlt hc hne
    refine ⟨x.word, identifierAt?_eq_some_iff.mpr ⟨x, rfl, hreaches, ?_, rfl⟩, hstart, hstop⟩
    intro hnil
    rw [Cut.word_start] at hstart
    rw [Cut.word_stop, hnil, List.length_nil] at hstop
    omega
  · rintro ⟨w, hw, hge, hlt⟩
    obtain ⟨x, rfl, hreaches, -, rfl⟩ := identifierAt?_eq_some_iff.mp hw
    refine (x.linked_iff hreaches).mpr ?_
    rw [Cut.word_start] at hge
    rw [Cut.word_stop] at hlt
    simp only [Cut.run, List.length_append]
    omega

/-- An identifier is a stretch of identifier characters on its line that does not end in a dot and
starts with one only in front of a letter. It is found from each of its columns, both ends included.
So the identifiers at two columns are the same or stand apart. Up to dots it holds exactly the
characters that the column is linked to, and there is none where those are dots only. -/
theorem identifierAt?_stable (t : Text) (column : Nat) :
    (∀ w, identifierAt? t column = some w →
      IsIdentifier t w ∧ ∀ c, w.start ≤ c → c ≤ w.stop → identifierAt? t c = some w) ∧
    (∀ other v w, identifierAt? t column = some v → identifierAt? t other = some w →
      v = w ∨ v.stop < w.start ∨ w.stop < v.start) ∧
    ∀ k c, t[k]? = some c → c ≠ '.' →
      (Linked t (clamp t column) k ↔
        ∃ w, identifierAt? t column = some w ∧ w.start ≤ k ∧ k < w.stop) := by
  refine ⟨fun w hw => ?_, fun other v w => eq_or_apart, fun k c => linked_iff_mem⟩
  exact ⟨isIdentifier_of_identifierAt? hw, fun c => identifierAt?_of_between hw⟩

/-- A qualified name with dots around it, and a number. -/
def qualifiedLine : Text := "jsr ..gfx.clear.,#$1f".toList

/-- The first of the two dots in front is loose, and so is the dot in front of the cursor. -/
theorem identifierAt?_stable_qualified :
    identifierAt? qualifiedLine 16 = some ⟨".gfx.clear".toList, 5, 15⟩ ∧
    IsIdentifier qualifiedLine ⟨".gfx.clear".toList, 5, 15⟩ ∧
    identifierAt? qualifiedLine 5 = some ⟨".gfx.clear".toList, 5, 15⟩ ∧
    identifierAt? qualifiedLine 30 = some ⟨"#$1f".toList, 17, 21⟩ ∧
    ((⟨".gfx.clear".toList, 5, 15⟩ : Word) = ⟨"#$1f".toList, 17, 21⟩ ∨ 15 < 17 ∨ 21 < 5) ∧
    qualifiedLine[9]? = some '.' ∧ qualifiedLine[10]? = some 'c' ∧ 'c' ≠ '.' ∧
    Linked qualifiedLine (clamp qualifiedLine 16) 10 := by
  obtain ⟨hstable, hapart, hlinked⟩ := identifierAt?_stable qualifiedLine 16
  have hname : identifierAt? qualifiedLine 16 = some ⟨".gfx.clear".toList, 5, 15⟩ := by
    decide +kernel
  have hnumber : identifierAt? qualifiedLine 30 = some ⟨"#$1f".toList, 17, 21⟩ := by
    decide +kernel
  obtain ⟨hidentifier, hsame⟩ := hstable _ hname
  exact ⟨hname, hidentifier, hsame 5 (by decide) (by decide), hnumber,
    hapart 30 _ _ hname hnumber, by decide, by decide, by decide,
    (hlinked 10 'c' (by decide) (by decide)).mpr ⟨_, hname, by decide, by decide⟩⟩

end AsmLens.Cursor
