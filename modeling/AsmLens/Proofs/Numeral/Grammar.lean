import AsmLens.Numeral
import AsmLens.Proofs.Text.Fields
import Mathlib.Data.List.Forall2
import Mathlib.Data.Nat.Digits.Defs
import Mathlib.Tactic.IntervalCases

/-!
# The grammar of numeric literals

Digits are those of a table, in either case, and their value is positional. On these two the
literals are described without the reader: a base in front of its digits, the marks in front of
that, and the byte that a mark selects. The reader accepts what is described and nothing else. What
is shown for a value is made of literals of that value.
-/

namespace AsmLens

namespace Text

/-- A character is the digit of a base with a value. Letters count in both cases. -/
def IsDigit (base : Nat) (c : Char) (d : Nat) : Prop :=
  d < base ∧
    ("0123456789abcdef".toList[d]? = some c ∨ "0123456789ABCDEF".toList[d]? = some c)

/-- One or more digits of a base, the highest first, spell a number. -/
def Spells (base : Nat) (t : Text) (n : Nat) : Prop :=
  t ≠ [] ∧ ∃ ds, List.Forall₂ (IsDigit base) t ds ∧ Nat.ofDigits base ds.reverse = n

/-! ## Digits -/

/-- The digits of the bases up to sixteen are the characters with a value below the base. -/
lemma isDigit_iff {base : Nat} (hbase : base ≤ 16) {c : Char} {d : Nat} :
    IsDigit base c d ↔ digitValue? c = some d ∧ d < base := by
  constructor
  · rintro ⟨hd, htable⟩
    have hsixteen : d < 16 := by omega
    refine ⟨?_, hd⟩
    interval_cases d <;> rcases htable with htable | htable <;> cases htable <;> decide
  · rintro ⟨hvalue, hd⟩
    refine ⟨hd, ?_⟩
    have hsixteen : d < 16 := by omega
    have hcode := Char.ofNat_toNat c
    unfold digitValue? at hvalue
    split_ifs at hvalue with hdigit hlower hupper <;> cases Option.some.inj hvalue
    · obtain ⟨hlow, hhigh⟩ : 48 ≤ c.toNat ∧ c.toNat ≤ 57 := hdigit
      left
      interval_cases c.toNat <;> cases hcode <;> decide
    · obtain ⟨hlow, hhigh⟩ : 97 ≤ c.toNat ∧ c.toNat ≤ 122 := hlower
      have hletter : c.toNat ≤ 102 := by omega
      left
      interval_cases c.toNat <;> cases hcode <;> decide
    · obtain ⟨hlow, hhigh⟩ : 65 ≤ c.toNat ∧ c.toNat ≤ 90 := hupper
      have hletter : c.toNat ≤ 70 := by omega
      right
      interval_cases c.toNat <;> cases hcode <;> decide

lemma pushDigit_eq_some_iff {base : Nat} (hbase : base ≤ 16) {n m : Nat} {c : Char} :
    pushDigit base n c = some m ↔ ∃ d, IsDigit base c d ∧ m = n * base + d := by
  simp only [isDigit_iff hbase, pushDigit]
  cases digitValue? c with
  | none => simp
  | some d =>
    by_cases hd : d < base
    · simp [hd, eq_comm]
    · simp [hd]

lemma foldlM_pushDigit_eq_some_iff {base : Nat} (hbase : base ≤ 16) {t : Text} {n m : Nat} :
    t.foldlM (pushDigit base) n = some m ↔
      ∃ ds, List.Forall₂ (IsDigit base) t ds ∧
        m = n * base ^ t.length + Nat.ofDigits base ds.reverse := by
  induction t generalizing n with
  | nil => simp [eq_comm]
  | cons c t ih =>
    rw [List.foldlM_cons, Option.bind_eq_bind, Option.bind_eq_some_iff]
    simp only [pushDigit_eq_some_iff hbase, ih, List.forall₂_cons_left_iff]
    constructor
    · rintro ⟨_, ⟨d, hd, rfl⟩, ds, hds, rfl⟩
      refine ⟨d :: ds, ⟨d, ds, hd, hds, rfl⟩, ?_⟩
      rw [Nat.ofDigits_reverse_cons, hds.length_eq, List.length_cons, hds.length_eq, pow_succ]
      ring
    · rintro ⟨_, ⟨d, ds, hd, hds, rfl⟩, rfl⟩
      refine ⟨_, ⟨d, hd, rfl⟩, ds, hds, ?_⟩
      rw [Nat.ofDigits_reverse_cons, List.length_cons, hds.length_eq, pow_succ]
      ring

/-- Reading digits gives the number that they spell. -/
theorem readDigits?_eq_some_iff {base : Nat} (hbase : base ≤ 16) {t : Text} {n : Nat} :
    readDigits? base t = some n ↔ Spells base t n := by
  unfold readDigits? Spells
  cases t with
  | nil => simp
  | cons c t =>
    simp only [List.isEmpty_cons, Bool.false_eq_true, if_false, foldlM_pushDigit_eq_some_iff hbase,
      ne_eq, reduceCtorEq, not_false_eq_true, true_and, Nat.zero_mul, Nat.zero_add, eq_comm]

/-- A character that is no white space and neither a mark in front of a literal nor the bar between
two of them. -/
def Plain (c : Char) : Prop :=
  isSpace c = false ∧ c ≠ '|' ∧ c ≠ '#' ∧ c ≠ '<' ∧ c ≠ '>'

instance (c : Char) : Decidable (Plain c) := inferInstanceAs (Decidable (_ ∧ _))

lemma IsDigit.plain {base : Nat} (hbase : base ≤ 16) {c : Char} {d : Nat}
    (h : IsDigit base c d) : Plain c := by
  obtain ⟨hd, htable⟩ := h
  have hsixteen : d < 16 := by omega
  interval_cases d <;> rcases htable with htable | htable <;> cases htable <;> decide

lemma Spells.head {base : Nat} (hbase : base ≤ 16) {c : Char} {t : Text} {n : Nat}
    (h : Spells base (c :: t) n) : digitValue? c ≠ none := by
  obtain ⟨_, ds, hds, _⟩ := h
  obtain ⟨d, _, hd, _, _⟩ := List.forall₂_cons_left_iff.mp hds
  rw [((isDigit_iff hbase).mp hd).1]
  exact Option.some_ne_none d

lemma Spells.plain {base : Nat} (hbase : base ≤ 16) {t : Text} {n : Nat} (h : Spells base t n) :
    ∀ c ∈ t, Plain c := by
  obtain ⟨_, ds, hds, _⟩ := h
  clear * - hbase hds
  induction hds with
  | nil => exact fun c hc => nomatch hc
  | cons hd _ ih => exact List.forall_mem_cons.mpr ⟨hd.plain hbase, ih⟩

/-- Digits that are written one by one in some form are read back, if every form keeps its value. -/
theorem readDigits?_map_toDigits {base : Nat} (hbase : 1 < base) (form : Char → Char)
    (hform : ∀ d < base, digitValue? (form d.digitChar) = some d) (n : Nat) :
    readDigits? base ((Nat.toDigits base n).map form) = some n := by
  have hpush : ∀ m, ∀ d < base, pushDigit base m (form d.digitChar) = some (m * base + d) := by
    intro m d hd
    simp only [pushDigit, hform d hd, if_pos hd]
  have hfold : ((Nat.toDigits base n).map form).foldlM (pushDigit base) 0 = some n := by
    induction n using Nat.strong_induction_on with
    | _ n ih =>
      by_cases hn : n < base
      · simp [Nat.toDigits_of_lt_base hn, hpush 0 n hn]
      · have hle : base ≤ n := Nat.le_of_not_lt hn
        have hmod : n % base < base := Nat.mod_lt n (by omega)
        rw [Nat.toDigits_of_base_le hbase hle, List.map_append, List.foldlM_append,
          ih (n / base) (Nat.div_lt_self (by omega) hbase)]
        simp [hpush _ _ hmod, Nat.div_add_mod']
  rw [readDigits?, hfold, if_neg]
  simp [Nat.toDigits_ne_nil]

/-- The first digit of a number other than zero is not zero. -/
lemma head?_toDigits_ne {base : Nat} (hbase : 1 < base) (hsixteen : base ≤ 16) {n : Nat}
    (hn : n ≠ 0) : (Nat.toDigits base n).head? ≠ some '0' := by
  induction n using Nat.strong_induction_on with
  | _ n ih =>
    by_cases hlt : n < base
    · rw [Nat.toDigits_of_lt_base hlt]
      have : n < 16 := by omega
      interval_cases n <;> simp_all
    · have hle : base ≤ n := Nat.le_of_not_lt hlt
      have hdiv : n / base ≠ 0 := (Nat.div_pos hle (by omega)).ne'
      rw [Nat.toDigits_of_base_le hbase hle, List.head?_append_of_ne_nil _ Nat.toDigits_ne_nil]
      exact ih (n / base) (Nat.div_lt_self (by omega) hbase) hdiv

/-- A text of white space. -/
def Blank (t : Text) : Prop := ∀ c ∈ t, isSpace c = true

lemma trimStart_append {gap body : Text} (hgap : Blank gap) (hbody : NoLeading body) :
    trimStart (gap ++ body) = body := by
  rw [trimStart, List.dropWhile_append_of_pos hgap]
  exact trimStart_eq_self hbody

lemma exists_blank_append (t : Text) : ∃ gap, Blank gap ∧ t = gap ++ trimStart t :=
  ⟨t.takeWhile isSpace, fun _ hc => List.mem_takeWhile_imp hc,
    List.takeWhile_append_dropWhile.symm⟩

end Text

namespace Numeral

/-- A literal without marks stands for a number: hexadecimal digits behind a dollar sign, binary
ones behind a percent sign, octal ones behind a zero, and decimal ones that do not start with a zero
unless they are one. -/
inductive Literal : Text → Nat → Prop
  | hexadecimal {ds : Text} {n : Nat} : Text.Spells 16 ds n → Literal ('$' :: ds) n
  | binary {ds : Text} {n : Nat} : Text.Spells 2 ds n → Literal ('%' :: ds) n
  | octal {ds : Text} {n : Nat} : Text.Spells 8 ds n → Literal ('0' :: ds) n
  | zero : Literal ['0'] 0
  | decimal {ds : Text} {n : Nat} : Text.Spells 10 ds n → ds.head? ≠ some '0' → Literal ds n

/-- What stands in front of a literal selects a part of its value. -/
inductive Selects : Text → Nat → Nat → Prop
  | whole (n : Nat) : Selects [] n n
  | low {gap : Text} (n : Nat) : Text.Blank gap → Selects ('<' :: gap) n (n % 256)
  | high {gap : Text} (n : Nat) : Text.Blank gap → Selects ('>' :: gap) n (n / 256)

/-- A text is a number with its marks: a number sign or none, white space, a selector or none, and a
literal whose value fits in a signed number of 64 bits. -/
def Writes (t : Text) (v : Nat) : Prop :=
  ∃ mark gap selector literal n, t = mark ++ gap ++ selector ++ literal ∧
    (mark = [] ∨ mark = ['#']) ∧ Text.Blank gap ∧ Selects selector n v ∧ Literal literal n ∧
    n ≤ 2 ^ 63 - 1

lemma lt_bound_iff {n : Nat} : n < bound ↔ n ≤ 2 ^ 63 - 1 := by
  rw [bound, Bound.signedLong]
  omega

lemma Selects.le {selector : Text} {n v : Nat} (h : Selects selector n v) : v ≤ n := by
  cases h with
  | whole => exact Nat.le_refl n
  | low => exact Nat.mod_le n 256
  | high => exact Nat.div_le_self n 256

/-! ## Literals -/

lemma Literal.ne_nil {t : Text} {n : Nat} (h : Literal t n) : t ≠ [] := by
  cases h with
  | decimal hds _ => exact hds.1
  | _ => exact List.cons_ne_nil _ _

lemma Literal.plain {t : Text} {n : Nat} (h : Literal t n) : ∀ c ∈ t, Text.Plain c := by
  cases h with
  | hexadecimal hds => exact List.forall_mem_cons.mpr ⟨by decide, hds.plain (by decide)⟩
  | binary hds => exact List.forall_mem_cons.mpr ⟨by decide, hds.plain (by decide)⟩
  | octal hds => exact List.forall_mem_cons.mpr ⟨by decide, hds.plain (by decide)⟩
  | zero => exact List.forall_mem_singleton.mpr (by decide)
  | decimal hds _ => exact hds.plain (by decide)

lemma Literal.trimmed {t : Text} {n : Nat} (h : Literal t n) : Text.Trimmed t :=
  Text.trimmed_of_forall fun c hc => (h.plain c hc).1

lemma digits_base_le (t : Text) : (digits t).1 ≤ 16 := by
  unfold digits
  split <;> exact Nat.le_of_ble_eq_true rfl

/-- The base and the digits that are split off a text are those of a literal. -/
lemma spells_digits_iff {t : Text} {n : Nat} :
    Text.Spells (digits t).1 (digits t).2 n ↔ Literal t n := by
  constructor
  · intro h
    unfold digits at h
    split at h
    · exact .hexadecimal h
    · exact .binary h
    · exact .octal h
    · rename_i hoctal
      by_cases hzero : t.head? = some '0'
      · obtain ⟨rest, rfl⟩ : ∃ rest, t = '0' :: rest := ⟨t.tail, (List.cons_head?_tail hzero).symm⟩
        cases rest with
        | nil =>
          have hread := (Text.readDigits?_eq_some_iff (by decide)).mpr h
          cases hread
          exact .zero
        | cons c rest => exact absurd rfl (hoctal c rest)
      · exact .decimal h hzero
  · intro h
    cases h with
    | hexadecimal hds => exact hds
    | binary hds => exact hds
    | @octal ds _ hds =>
      cases ds with
      | nil => exact absurd rfl hds.1
      | cons c ds => exact hds
    | zero => exact (Text.readDigits?_eq_some_iff (by decide)).mp rfl
    | decimal hds hhead =>
      have hten : digits t = (10, t) := by
        unfold digits
        split
        · exact absurd rfl (hds.head (by decide))
        · exact absurd rfl (hds.head (by decide))
        · exact absurd rfl hhead
        · rfl
      rwa [hten]

lemma literal?_eq_filter (t : Text) :
    literal? t = (Text.readDigits? (digits t).1 (digits t).2).filter (· < bound) := by
  rcases hdigits : digits t with ⟨base, ds⟩
  simp only [literal?, hdigits]
  cases Text.readDigits? base ds with
  | none => rfl
  | some n => simp [Option.filter_some]

theorem literal?_eq_some_iff {t : Text} {n : Nat} :
    literal? t = some n ↔ Literal t n ∧ n ≤ 2 ^ 63 - 1 := by
  rw [literal?_eq_filter, Option.filter_eq_some_iff, decide_eq_true_iff, lt_bound_iff,
    Text.readDigits?_eq_some_iff (digits_base_le t), spells_digits_iff]

/-! ## Marks -/

lemma exists_selects_part (t : Text) (n : Nat) :
    ∃ selector, t = selector ++ (part t).2 ∧ Selects selector n ((part t).1.of n) := by
  unfold part
  split
  · rename_i rest
    obtain ⟨gap, hgap, hrest⟩ := Text.exists_blank_append rest
    exact ⟨'<' :: gap, congrArg ('<' :: ·) hrest, .low n hgap⟩
  · rename_i rest
    obtain ⟨gap, hgap, hrest⟩ := Text.exists_blank_append rest
    exact ⟨'>' :: gap, congrArg ('>' :: ·) hrest, .high n hgap⟩
  · exact ⟨[], rfl, .whole n⟩

lemma part_append {selector literal : Text} {n m v : Nat} (hselector : Selects selector n v)
    (hliteral : Literal literal m) :
    (part (selector ++ literal)).2 = literal ∧ (part (selector ++ literal)).1.of n = v := by
  cases hselector with
  | whole =>
    have hhead := hliteral.plain
    have hnone : part literal = (.whole, literal) := by
      unfold part
      split
      · exact absurd rfl (hhead _ List.mem_cons_self).2.2.2.1
      · exact absurd rfl (hhead _ List.mem_cons_self).2.2.2.2
      · rfl
    rw [List.nil_append, hnone]
    exact ⟨rfl, rfl⟩
  | low _ hgap => exact ⟨Text.trimStart_append hgap hliteral.trimmed.1, rfl⟩
  | high _ hgap => exact ⟨Text.trimStart_append hgap hliteral.trimmed.1, rfl⟩

lemma exists_mark_unmarked (t : Text) :
    ∃ mark gap, t = mark ++ gap ++ unmarked t ∧ (mark = [] ∨ mark = ['#']) ∧ Text.Blank gap := by
  unfold unmarked
  split
  · rename_i rest
    obtain ⟨gap, hgap, hrest⟩ := Text.exists_blank_append rest
    exact ⟨['#'], gap, congrArg ('#' :: ·) hrest, Or.inr rfl, hgap⟩
  · exact ⟨[], [], rfl, Or.inl rfl, nofun⟩

/-- Behind the number sign and the white space stands what is left when they are taken away. -/
lemma unmarked_append {mark gap : Text} {c : Char} {body : Text}
    (hmark : mark = [] ∨ mark = ['#']) (hgap : Text.Blank gap) (hspace : Text.isSpace c = false)
    (hsign : c ≠ '#') (hleading : Text.NoLeading (mark ++ gap ++ c :: body)) :
    unmarked (mark ++ gap ++ c :: body) = c :: body := by
  have hbody : Text.NoLeading (c :: body) := by
    rintro _ ⟨⟩
    exact hspace
  rcases hmark with rfl | rfl
  · cases gap with
    | nil =>
      unfold unmarked
      split
      · rename_i heq
        cases heq
        exact absurd rfl hsign
      · rfl
    | cons d gap =>
      have hblank := hgap d List.mem_cons_self
      rw [hleading d rfl] at hblank
      cases hblank
  · exact Text.trimStart_append hgap hbody

lemma exists_head_of_selects {selector literal : Text} {n m v : Nat}
    (hselector : Selects selector n v) (hliteral : Literal literal m) :
    ∃ c body, selector ++ literal = c :: body ∧ Text.isSpace c = false ∧ c ≠ '#' := by
  cases hselector with
  | whole =>
    obtain ⟨c, body, rfl⟩ := List.exists_cons_of_ne_nil hliteral.ne_nil
    have hplain := hliteral.plain c List.mem_cons_self
    exact ⟨c, body, rfl, hplain.1, hplain.2.2.1⟩
  | low => exact ⟨'<', _, rfl, by decide, by decide⟩
  | high => exact ⟨'>', _, rfl, by decide, by decide⟩

/-- Reading accepts the numbers with their marks and nothing else. -/
theorem value?_eq_some_iff {t : Text} {v : Nat} :
    value? t = some v ↔ Writes (Text.trim t) v := by
  rw [value?, Option.map_eq_some_iff]
  constructor
  · rintro ⟨n, hread, rfl⟩
    obtain ⟨hliteral, hn⟩ := literal?_eq_some_iff.mp hread
    obtain ⟨mark, gap, htrim, hmark, hgap⟩ := exists_mark_unmarked (Text.trim t)
    obtain ⟨selector, hbody, hselector⟩ := exists_selects_part (unmarked (Text.trim t)) n
    refine ⟨mark, gap, selector, _, n, ?_, hmark, hgap, hselector, hliteral, hn⟩
    rw [List.append_assoc, ← hbody]
    exact htrim
  · rintro ⟨mark, gap, selector, literal, n, htrim, hmark, hgap, hselector, hliteral, hn⟩
    obtain ⟨c, body, hbody, hspace, hsign⟩ := exists_head_of_selects hselector hliteral
    have hleading := (Text.trimmed_trim t).1
    rw [htrim, List.append_assoc, hbody] at hleading
    have hunmarked : unmarked (Text.trim t) = selector ++ literal := by
      rw [htrim, List.append_assoc, hbody]
      exact unmarked_append hmark hgap hspace hsign hleading
    obtain ⟨hrest, hpart⟩ := part_append hselector hliteral
    rw [hunmarked, hrest]
    exact ⟨n, literal?_eq_some_iff.mpr ⟨hliteral, hn⟩, hpart⟩

lemma value?_of_selects {t literal : Text} {n v : Nat} (selector : Text)
    (ht : t = selector ++ literal) (hspace : ∀ c ∈ selector, Text.isSpace c = false)
    (hselector : Selects selector n v) (hliteral : Literal literal n) (hn : n ≤ 2 ^ 63 - 1) :
    value? t = some v := by
  have htrimmed : Text.Trimmed (selector ++ literal) :=
    Text.trimmed_of_forall (List.forall_mem_append.mpr
      ⟨hspace, fun c hc => (hliteral.plain c hc).1⟩)
  rw [value?_eq_some_iff, ht, Text.trim_eq_self htrimmed]
  exact ⟨[], [], selector, literal, n, rfl, Or.inl rfl, nofun, hselector, hliteral, hn⟩

lemma value?_of_literal {t : Text} {n : Nat} (h : Literal t n) (hn : n ≤ 2 ^ 63 - 1) :
    value? t = some n :=
  value?_of_selects [] rfl nofun (.whole n) h hn

/-! ## What is shown for a value -/

lemma literal_ofNat (n : Nat) : Literal (Text.ofNat n) n := by
  by_cases hn : n = 0
  · rw [hn]
    exact .zero
  · exact .decimal ((Text.readDigits?_eq_some_iff (by decide)).mp (Text.readDigits?_ofNat n))
      (Text.head?_toDigits_ne (by decide) (by decide) hn)

lemma literal_ofNatHex (n : Nat) : Literal ('$' :: Text.ofNatHex n) n :=
  .hexadecimal ((Text.readDigits?_eq_some_iff (by decide)).mp
    (Text.readDigits?_map_toDigits (by decide) Char.toUpper (by decide) n))

lemma literal_ofNatBinary (n : Nat) : Literal ('%' :: Text.ofNatBinary n) n := by
  have hread : Text.readDigits? 2 ((Nat.toDigits 2 n).map id) = some n :=
    Text.readDigits?_map_toDigits (by decide) id (by decide) n
  rw [List.map_id] at hread
  exact .binary ((Text.readDigits?_eq_some_iff (by decide)).mp hread)

/-- The texts that are shown for a value, with bars between them. -/
def shownParts (n : Nat) : List Text :=
  [Text.ofNat n, '$' :: Text.ofNatHex n] ++
    if n ≤ binaryLimit then ['%' :: Text.ofNatBinary n] else []

lemma describe_eq_join (n : Nat) : describe n = Text.join " | ".toList (shownParts n) := by
  show Text.ofNat n ++ " | $".toList ++ Text.ofNatHex n ++ _ = _
  by_cases hn : n ≤ binaryLimit <;> simp [shownParts, hn, Text.join]

lemma literal_of_mem_shownParts {n : Nat} {shown : Text} (h : shown ∈ shownParts n) :
    Literal shown n := by
  simp only [shownParts, List.mem_append, List.mem_cons, List.not_mem_nil, or_false,
    List.mem_ite_nil_right] at h
  rcases h with (rfl | rfl) | ⟨_, rfl⟩
  · exact literal_ofNat n
  · exact literal_ofNatHex n
  · exact literal_ofNatBinary n

lemma length_shownParts (n : Nat) : (shownParts n).length = if n ≤ 0xFFFF then 3 else 2 := by
  by_cases hn : n ≤ 0xFFFF <;> simp [shownParts, binaryLimit, hn]

/-- A text is read as a number exactly when it is one: trimmed, it is a number sign or none, white
space, a byte selector or none, and a literal of a value below two to the sixty-third. The selected
part is never larger, and the two bytes make up the value again. What is shown for a value is made
of texts, with bars between them, that are all read as that value. -/
theorem reads_written_numbers :
    (∀ t v, value? t = some v ↔ Writes (Text.trim t) v) ∧
    (∀ t v, value? t = some v → v ≤ 2 ^ 63 - 1) ∧
    (∀ literal n, Literal literal n → n ≤ 2 ^ 63 - 1 → ∃ high low,
      value? literal = some n ∧ value? ('>' :: literal) = some high ∧
        value? ('<' :: literal) = some low ∧ high * 256 + low = n) ∧
    ∀ n : Nat, n ≤ 2 ^ 63 - 1 → ∃ parts,
      describe n = Text.join " | ".toList parts ∧
      parts.length = (if n ≤ 0xFFFF then 3 else 2) ∧
      ∀ shown ∈ parts, '|' ∉ shown ∧ value? shown = some n := by
  refine ⟨fun t v => value?_eq_some_iff, ?_, ?_, ?_⟩
  · intro t v h
    obtain ⟨_, _, _, _, n, _, _, _, hselector, _, hn⟩ := value?_eq_some_iff.mp h
    exact hselector.le.trans hn
  · intro literal n hliteral hn
    refine ⟨n / 256, n % 256, value?_of_literal hliteral hn, ?_, ?_, Nat.div_add_mod' n 256⟩
    · have hmark : ∀ c ∈ ['>'], Text.isSpace c = false := List.forall_mem_singleton.mpr rfl
      exact value?_of_selects ['>'] rfl hmark (.high n nofun) hliteral hn
    · have hmark : ∀ c ∈ ['<'], Text.isSpace c = false := List.forall_mem_singleton.mpr rfl
      exact value?_of_selects ['<'] rfl hmark (.low n nofun) hliteral hn
  · intro n hn
    refine ⟨shownParts n, describe_eq_join n, length_shownParts n, ?_⟩
    intro shown hshown
    have hliteral := literal_of_mem_shownParts hshown
    exact ⟨fun hbar => (hliteral.plain _ hbar).2.1 rfl, value?_of_literal hliteral hn⟩

theorem reads_written_numbers_marked :
    value? " #\t> $1Ff0".toList = some 0x1F ∧ Writes "#\t> $1Ff0".toList 0x1F ∧
    ¬ Writes "#08".toList 8 ∧ ¬ Writes "9223372036854775808".toList (2 ^ 63) ∧
    Literal "$1Ff0".toList 0x1FF0 ∧
    (∃ high low, value? "$1Ff0".toList = some 0x1FF0 ∧ value? ">$1Ff0".toList = some high ∧
      value? "<$1Ff0".toList = some low ∧ high * 256 + low = 0x1FF0) ∧
    ∃ parts, describe 0x1FF0 = Text.join " | ".toList parts ∧ parts.length = 3 ∧
      ∀ shown ∈ parts, '|' ∉ shown ∧ value? shown = some 0x1FF0 := by
  obtain ⟨hreads, _, hbytes, hshown⟩ := reads_written_numbers
  have hread : value? " #\t> $1Ff0".toList = some 0x1F := by decide
  have hliteral : Literal "$1Ff0".toList 0x1FF0 :=
    (literal?_eq_some_iff.mp (by decide : literal? "$1Ff0".toList = some 0x1FF0)).1
  refine ⟨hread, (hreads _ _).mp hread, ?_, ?_, hliteral,
    hbytes _ _ hliteral (by decide), hshown 0x1FF0 (by decide)⟩
  · intro h
    have haccepted := (hreads "#08".toList 8).mpr h
    revert haccepted
    decide
  · intro h
    have haccepted := (hreads "9223372036854775808".toList (2 ^ 63)).mpr h
    revert haccepted
    decide

end Numeral

end AsmLens
