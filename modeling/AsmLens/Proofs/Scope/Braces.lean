import AsmLens.Proofs.Scope.Rows
import Mathlib.Data.List.Infix
import Mathlib.Order.Bounds.Basic

/-!
# Scopes and matching braces

Brace matching reads a text character by character: an opening brace is put on a stack and a closing
one takes the last of them off, if there is any. On lines with at most one brace of each kind, none
of which declares a file namespace, the survey sees every brace, so its stack is that of the
matching. Two lines then start in the same scope exactly when the braces that are open at the first
of them stay open up to the second and no other brace is open there.
-/

namespace AsmLens.Scope

/-- The number of open braces behind a character. A closing brace without a partner closes none. -/
def levelBehind (level : Nat) (c : Char) : Nat :=
  if c = '\x7b' then level + 1 else if c = '\x7d' then level - 1 else level

/-- The number of open braces behind a text that starts with some open. -/
def levelFrom (level : Nat) (t : Text) : Nat := t.foldl levelBehind level

/-- The number of open braces behind a text. -/
def braceLevel (t : Text) : Nat := levelFrom 0 t

/-- The text above a line, every line with its line feed. -/
def above (lines : List Text) (i : Nat) : Text := (lines.take i).flatMap (· ++ ['\n'])

/-- A line of which the survey sees every brace. -/
structure PlainLine (bare : Text) : Prop where
  opening : bare.count '\x7b' ≤ 1
  closing : bare.count '\x7d' ≤ 1
  braced : Opening.isFileNamespace bare = false

instance (bare : Text) : Decidable (PlainLine bare) :=
  decidable_of_iff
    (bare.count '\x7b' ≤ 1 ∧ bare.count '\x7d' ≤ 1 ∧ Opening.isFileNamespace bare = false)
    ⟨fun h => ⟨h.1, h.2.1, h.2.2⟩, fun h => ⟨h.opening, h.closing, h.braced⟩⟩

lemma levelFrom_append (level : Nat) (s t : Text) :
    levelFrom level (s ++ t) = levelFrom (levelFrom level s) t := List.foldl_append

lemma braceLevel_append (s t : Text) : braceLevel (s ++ t) = levelFrom (braceLevel s) t :=
  levelFrom_append 0 s t

lemma above_append (lines : List Text) {i j : Nat} (h : i ≤ j) :
    above lines j = above lines i ++ above (lines.drop i) (j - i) := by
  have htake : lines.take j = lines.take i ++ (lines.drop i).take (j - i) := by
    rw [← List.take_add, Nat.add_sub_cancel' h]
  rw [above, htake, List.flatMap_append]
  rfl

/-! ## Matching -/

/-- The braces that are open, innermost first, each with a number, and the number of the next. -/
structure Matching where
  opened : List Nat
  next : Nat

namespace Matching

/-- The matching behind a character. -/
def behind (m : Matching) (c : Char) : Matching :=
  if c = '\x7b' then ⟨m.next :: m.opened, m.next + 1⟩
  else if c = '\x7d' then { m with opened := m.opened.tail }
  else m

/-- The matching behind a text. -/
def read (m : Matching) (t : Text) : Matching := t.foldl behind m

lemma read_append (m : Matching) (s t : Text) : m.read (s ++ t) = (m.read s).read t :=
  List.foldl_append

lemma read_concat (m : Matching) (t : Text) (c : Char) :
    m.read (t ++ [c]) = (m.read t).behind c := read_append m t [c]

/-- Opening and closing braces. -/
def isBrace (c : Char) : Bool := c == '\x7b' || c == '\x7d'

lemma behind_of_not_isBrace (m : Matching) {c : Char} (h : isBrace c = false) : m.behind c = m := by
  obtain ⟨hopen, hclose⟩ : c ≠ '\x7b' ∧ c ≠ '\x7d' := by simpa [isBrace] using h
  rw [behind, if_neg hopen, if_neg hclose]

/-- The other characters do not matter. -/
lemma read_filter (m : Matching) (t : Text) : m.read (t.filter isBrace) = m.read t := by
  induction t generalizing m with
  | nil => rfl
  | cons c cs ih =>
    by_cases hc : isBrace c = true
    · rw [List.filter_cons_of_pos hc]
      exact ih (m.behind c)
    · have hsame := m.behind_of_not_isBrace (Bool.eq_false_iff.mpr hc)
      rw [List.filter_cons_of_neg hc, ih m]
      exact congrArg (read · cs) hsame.symm

lemma length_opened_behind (m : Matching) (c : Char) :
    (m.behind c).opened.length = levelBehind m.opened.length c := by
  unfold behind levelBehind
  split
  · rfl
  · split
    · exact List.length_tail
    · rfl

/-- The level is the number of open braces. -/
theorem length_opened_read (m : Matching) (t : Text) :
    (m.read t).opened.length = levelFrom m.opened.length t := by
  induction t generalizing m with
  | nil => rfl
  | cons c cs ih =>
    have hread := ih (m.behind c)
    rw [length_opened_behind] at hread
    exact hread

lemma next_le_next_read (m : Matching) (t : Text) : m.next ≤ (m.read t).next := by
  induction t generalizing m with
  | nil => exact Nat.le_refl _
  | cons c cs ih =>
    have hstep : m.next ≤ (m.behind c).next := by
      unfold behind
      split
      · exact Nat.le_succ _
      · split <;> exact Nat.le_refl _
    exact hstep.trans (ih (m.behind c))

/-- The levels in a text that starts with some braces open. -/
def levels (level : Nat) (t : Text) : Set Nat :=
  { k | ∃ part, part <+: t ∧ levelFrom level part = k }

lemma levels_concat (level : Nat) (t : Text) (c : Char) :
    levels level (t ++ [c]) = insert (levelFrom level (t ++ [c])) (levels level t) := by
  ext k
  constructor
  · rintro ⟨part, hpart, rfl⟩
    rcases List.prefix_concat_iff.mp hpart with rfl | hfront
    · exact Or.inl (by simp)
    · exact Or.inr ⟨part, hfront, rfl⟩
  · rintro (rfl | ⟨part, hpart, rfl⟩)
    · exact ⟨t ++ [c], List.prefix_rfl, rfl⟩
    · exact ⟨part, hpart.trans (List.prefix_append t [c]), rfl⟩

/-- The levels behind a text are those of its extensions. -/
lemma levels_bounded_iff (s t : Text) (bound : Nat) :
    (∀ k ∈ levels (braceLevel s) t, bound ≤ k) ↔
      ∀ mid, s <+: mid → mid <+: s ++ t → bound ≤ braceLevel mid := by
  constructor
  · rintro h _ ⟨part, rfl⟩ hmid
    have hpart : part <+: t := (List.prefix_append_right_inj s).mp hmid
    exact braceLevel_append s part ▸ h _ ⟨part, hpart, rfl⟩
  · rintro h _ ⟨part, hpart, rfl⟩
    have hmid := h (s ++ part) (List.prefix_append s part)
      ((List.prefix_append_right_inj s).mpr hpart)
    exact braceLevel_append s part ▸ hmid

/-- A character opens a brace on top, or it closes one, of the lower part only when it is all there
is. -/
lemma exists_kept_behind {m : Matching} {fresh kept : List Nat} (h : m.opened = fresh ++ kept)
    (c : Char) :
    ∃ fresh' kept', (m.behind c).opened = fresh' ++ kept' ∧ kept' <:+ kept ∧
      (∀ id ∈ fresh', id ∈ fresh ∨ id = m.next) ∧
      kept'.length = min (levelBehind m.opened.length c) kept.length := by
  have hlength : m.opened.length = fresh.length + kept.length := by
    rw [h, List.length_append]
  unfold behind levelBehind
  split
  · refine ⟨m.next :: fresh, kept, congrArg _ h, List.suffix_rfl, ?_, by omega⟩
    intro id hid
    exact (List.mem_cons.mp hid).symm
  · split
    · cases fresh with
      | nil =>
        refine ⟨[], kept.tail, congrArg List.tail h, List.tail_suffix kept, nofun, ?_⟩
        rw [List.length_nil] at hlength
        rw [List.length_tail]
        omega
      | cons top fresh =>
        rw [List.length_cons] at hlength
        exact ⟨fresh, kept, congrArg List.tail h, List.suffix_rfl,
          fun id hid => Or.inl (List.mem_cons_of_mem top hid), by omega⟩
    · exact ⟨fresh, kept, h, List.suffix_rfl, fun id hid => Or.inl hid, by omega⟩

/-- Behind a text there are braces of the text on top of those from before that were never closed.
Of these there are as many as the lowest level in the text. -/
theorem exists_kept (m : Matching) (t : Text) :
    ∃ fresh kept, (m.read t).opened = fresh ++ kept ∧ kept <:+ m.opened ∧
      (∀ id ∈ fresh, m.next ≤ id) ∧ IsLeast (levels m.opened.length t) kept.length := by
  induction t using List.reverseRecOn with
  | nil =>
    refine ⟨[], m.opened, rfl, List.suffix_rfl, nofun, ⟨[], List.prefix_rfl, rfl⟩, ?_⟩
    rintro k ⟨part, hpart, rfl⟩
    rw [List.prefix_nil.mp hpart]
    exact Nat.le_refl _
  | append_singleton t c ih =>
    obtain ⟨fresh, kept, hopened, hsuffix, hfresh, hleast⟩ := ih
    obtain ⟨fresh', kept', hopened', hsuffix', hfresh', hlength⟩ := exists_kept_behind hopened c
    have hlevel : levelFrom m.opened.length (t ++ [c]) =
        levelBehind (m.read t).opened.length c := by
      rw [levelFrom_append, length_opened_read]
      rfl
    refine ⟨fresh', kept', ?_, hsuffix'.trans hsuffix, ?_, ?_⟩
    · rw [read_concat, hopened']
    · intro id hid
      rcases hfresh' id hid with hid | rfl
      · exact hfresh id hid
      · exact next_le_next_read m t
    · rw [hlength, ← hlevel, levels_concat]
      exact hleast.insert _

/-- The innermost open brace, or zero when none is open. -/
def top (m : Matching) : Nat := m.opened.headD 0

/-- The open braces have numbers of their own, from one on and below that of the next. -/
structure Numbered (m : Matching) : Prop where
  next_pos : 0 < m.next
  bounds : ∀ id ∈ m.opened, 0 < id ∧ id < m.next
  nodup : m.opened.Nodup

variable {m : Matching}

lemma Numbered.top_lt (h : m.Numbered) : m.top < m.next := by
  unfold top
  cases hopened : m.opened with
  | nil => exact h.next_pos
  | cons id rest => exact (h.bounds id (hopened ▸ List.mem_cons_self)).2

/-- The innermost brace tells the open ones of an earlier part of the stack apart. -/
lemma Numbered.eq_of_suffix (h : m.Numbered) {kept : List Nat} (hsuffix : kept <:+ m.opened)
    (htop : kept.headD 0 = m.top) : kept = m.opened := by
  obtain ⟨front, hfront⟩ := hsuffix
  cases front with
  | nil => exact hfront
  | cons id front =>
    have hid : m.top = id := by rw [top, ← hfront]; rfl
    have hpos := (h.bounds id (hfront ▸ List.mem_cons_self)).1
    have hmem : id ∈ kept := by
      cases kept with
      | nil => rw [hid] at htop; exact absurd htop (Nat.ne_of_lt hpos)
      | cons first rest => rw [← hid, ← htop]; exact List.mem_cons_self
    have hnodup := h.nodup
    rw [← hfront, List.cons_append, List.nodup_cons] at hnodup
    exact absurd (List.mem_append_right front hmem) hnodup.1

/-- Behind a text the same brace is the innermost one exactly when as many braces are open as before
and the level was never lower in between. -/
theorem Numbered.top_read_eq_iff (h : m.Numbered) (t : Text) :
    (m.read t).top = m.top ↔
      levelFrom m.opened.length t = m.opened.length ∧
        ∀ k ∈ levels m.opened.length t, m.opened.length ≤ k := by
  obtain ⟨fresh, kept, hopened, hsuffix, hfresh, hmem, hlowest⟩ := m.exists_kept t
  have hlevel : levelFrom m.opened.length t = fresh.length + kept.length := by
    rw [← length_opened_read, hopened, List.length_append]
  rw [hlevel]
  constructor
  · intro htop
    rw [top, hopened] at htop
    -- a brace of the text has a number that none of the earlier ones has
    have hnil : fresh = [] := by
      cases fresh with
      | nil => rfl
      | cons id rest =>
        have hle := hfresh id List.mem_cons_self
        have hlt := h.top_lt
        rw [List.cons_append, List.headD_cons] at htop
        omega
    rw [hnil, List.nil_append] at htop
    have hkept := h.eq_of_suffix hsuffix htop
    rw [hnil, ← hkept, List.length_nil, Nat.zero_add]
    exact ⟨rfl, hkept ▸ hlowest⟩
  · rintro ⟨hlength, hlow⟩
    have hkept : kept = m.opened := hsuffix.eq_of_length_le (hlow _ hmem)
    have hnil : fresh = [] := List.length_eq_zero_iff.mp (by rw [hkept] at hlength; omega)
    rw [top, hopened, hnil, hkept]
    rfl

end Matching

/-! ## The survey -/

namespace Walk

/-- The open scopes as open braces. -/
def matching (w : Walk) : Matching := ⟨w.stack, w.forest.size⟩

/-- The braces of a plain line. -/
lemma braces_cases {bare : Text} (h : PlainLine bare) :
    bare.filter Matching.isBrace ∈
      [[], ['\x7b'], ['\x7d'], ['\x7b', '\x7d'], ['\x7d', '\x7b']] := by
  have hopening : (bare.filter Matching.isBrace).count '\x7b' ≤ 1 := by
    rw [List.count_filter (by rfl)]
    exact h.opening
  have hclosing : (bare.filter Matching.isBrace).count '\x7d' ≤ 1 := by
    rw [List.count_filter (by rfl)]
    exact h.closing
  have hbrace : ∀ c ∈ bare.filter Matching.isBrace, c = '\x7b' ∨ c = '\x7d' := by
    intro c hc
    simpa [Matching.isBrace] using List.of_mem_filter hc
  generalize bare.filter Matching.isBrace = braces at hopening hclosing hbrace ⊢
  match braces with
  | [] => simp
  | [a] =>
    rcases hbrace a (by simp) with rfl | rfl <;> simp
  | [a, b] =>
    rcases hbrace a (by simp) with rfl | rfl <;> rcases hbrace b (by simp) with rfl | rfl <;>
      simp_all
  | a :: b :: c :: rest =>
    rcases hbrace a (by simp) with rfl | rfl <;> rcases hbrace b (by simp) with rfl | rfl <;>
      rcases hbrace c (by simp) with rfl | rfl <;> simp at hopening hclosing

lemma ofLine_braces (bare : Text) :
    Braces.ofLine (bare.filter Matching.isBrace) = Braces.ofLine bare := by
  have hfind : (bare.filter Matching.isBrace).find? Matching.isBrace =
      bare.find? Matching.isBrace := by
    rw [List.find?_filter]
    simp
  have hopening : '\x7b' ∈ bare.filter Matching.isBrace ↔ '\x7b' ∈ bare := by
    simp [Matching.isBrace]
  have hclosing : '\x7d' ∈ bare.filter Matching.isBrace ↔ '\x7d' ∈ bare := by
    simp [Matching.isBrace]
  unfold Braces.ofLine
  rw [show (fun c => c == '\x7b' || c == '\x7d') = Matching.isBrace from rfl, hfind]
  simp only [hopening, hclosing]

/-- On a plain line the survey matches the braces. -/
theorem matching_step {bare : Text} (h : PlainLine bare) (file number : Nat) (w : Walk) :
    (w.step file number bare).matching = w.matching.read bare := by
  have hcases := braces_cases h
  have hbraces := ofLine_braces bare
  rw [← Matching.read_filter]
  generalize bare.filter Matching.isBrace = braces at hcases hbraces ⊢
  simp only [List.mem_cons, List.not_mem_nil, or_false] at hcases
  rw [step, ← hbraces, h.braced]
  have hsize : ∀ v : Walk, (v.enter file number).forest.size = v.forest.size + 1 :=
    fun v => Forest.size_add v.forest _
  rcases hcases with rfl | rfl | rfl | rfl | rfl
  · rfl
  · exact congrArg (Matching.mk _) (hsize _)
  · rfl
  · exact congrArg (Matching.mk _) (hsize _)
  · exact congrArg (Matching.mk _) (hsize _)

/-- The survey of plain lines matches the braces of the text above each of them. -/
theorem matching_starts {lines : List (Text × Text)} (h : ∀ line ∈ lines, PlainLine line.2)
    {file number i : Nat} {w v : Walk} (hv : (w.starts file number lines)[i]? = some v) :
    v.matching = w.matching.read (above (lines.map Prod.snd) i) := by
  induction lines generalizing number w i with
  | nil => cases hv
  | cons line rest ih =>
    cases i with
    | zero =>
      cases hv
      rfl
    | succ i =>
      have hfeed : ∀ m : Matching, m.read ['\n'] = m := fun m => rfl
      have hline : above ((line :: rest).map Prod.snd) (i + 1) =
          line.2 ++ (['\n'] ++ above (rest.map Prod.snd) i) := by
        simp [above]
      rw [hline, Matching.read_append, Matching.read_append, hfeed,
        ← matching_step (h line List.mem_cons_self) file number w]
      exact ih (fun next hnext => h next (List.mem_cons_of_mem line hnext)) hv

lemma Sound.numbered {file number : Nat} {w : Walk} (h : w.Sound file number) :
    w.matching.Numbered where
  next_pos := Nat.succ_pos _
  bounds := by
    intro id hid
    obtain ⟨n, hn, _⟩ := h.opened id hid
    exact ⟨Nat.pos_of_ne_zero (Forest.ne_zero_of_node? hn), Forest.node?_lt_size hn⟩
  nodup := by
    have hnodup := w.forest.nodup_ancestors w.current
    rw [← h.chain] at hnodup
    exact hnodup.of_append_left

end Walk

section Lines

variable {start f : Forest} {s : Sheet} (hstart : start.Ordered) (hf : f.Ordered)
  (hgrown : (survey start s.file s.text s.comments).2.nodes <+: f.nodes)
  (hplain : ∀ bare ∈ Source.blank (Source.lines s.text) s.comments, PlainLine bare)

/-- The braces that are open above a line. -/
def Sheet.matchingAt (s : Sheet) (start : Forest) (i : Nat) : Matching :=
  Matching.read ⟨[], start.size⟩ (above (Source.blank (Source.lines s.text) s.comments) i)

include hstart hf hgrown hplain

/-- A line starts in the scope of the innermost brace that is open above it. -/
theorem scopeAt_survey {i : Nat} (hi : i < (Source.blank (Source.lines s.text) s.comments).length) :
    (s.matchingAt start i).Numbered ∧
      (survey start s.file s.text s.comments).1.scopeAt i = (s.matchingAt start i).top ∧
      f.depth ((s.matchingAt start i).top) = (s.matchingAt start i).opened.length := by
  have hw : (Walk.ofForest start).Sound s.file 0 := Walk.Sound.start hstart s.file 0
  have hrows : (survey start s.file s.text s.comments).1.rows.map (fun r => (r.raw, r.bare)) =
      s.lines := Walk.rows_texts s.file 0 (.ofForest start) s.lines
  have hlength : i < (survey start s.file s.text s.comments).1.rows.length := by
    rw [← List.length_map (f := fun r : Row => (r.raw, r.bare)), hrows,
      ← List.length_map (f := Prod.snd), s.map_snd_lines]
    exact hi
  have hrow := List.getElem?_eq_getElem hlength
  obtain ⟨_, v, hv, hcurrent, hsound, hbefore⟩ := hw.row hrow
  have hmatching : v.matching = s.matchingAt start i := by
    rw [Sheet.matchingAt, ← s.map_snd_lines]
    refine Walk.matching_starts (fun line hline => hplain line.2 ?_) hv
    rw [← s.map_snd_lines]
    exact List.mem_map_of_mem hline
  rw [← hmatching]
  refine ⟨hsound.numbered, ?_, hsound.depth_current hf (hbefore.trans hgrown)⟩
  rw [Listing.scopeAt, Listing.row?, hrow]
  exact hcurrent.symm

end Lines

/-- On plain lines the survey is exact brace matching. Whatever was surveyed before and is surveyed
after a file of plain lines, every line starts as deep as braces are open above it, and two lines
start in the same scope exactly when as many braces are open above both and never fewer in
between. -/
theorem survey_matches_braces (before : List Sheet) (s : Sheet) (after : List Sheet)
    (h : ∀ bare ∈ Source.blank (Source.lines s.text) s.comments, PlainLine bare) :
    let bares := Source.blank (Source.lines s.text) s.comments
    let listing := (survey (surveyAll {} before).2 s.file s.text s.comments).1
    let f := (surveyAll {} (before ++ s :: after)).2
    listing.rows.map (·.bare) = bares ∧
    (∀ i < bares.length, f.depth (listing.scopeAt i) = braceLevel (above bares i)) ∧
    ∀ i j, i < j → j < bares.length →
      (listing.scopeAt i = listing.scopeAt j ↔
        braceLevel (above bares i) = braceLevel (above bares j) ∧
        ∀ mid, above bares i <+: mid → mid <+: above bares j →
          braceLevel (above bares i) ≤ braceLevel mid) := by
  intro bares listing f
  have hstart : (surveyAll {} before).2.Ordered := (surveyAll_grows Forest.ordered_empty before).1
  have hf : f.Ordered := (surveyAll_grows Forest.ordered_empty (before ++ s :: after)).1
  have hgrown := survey_isPrefix_surveyAll Forest.ordered_empty before s after
  have hline := fun i (hi : i < bares.length) => scopeAt_survey hstart hf hgrown h hi
  have hlevel : ∀ i, (s.matchingAt (surveyAll {} before).2 i).opened.length =
      braceLevel (above bares i) := fun i => Matching.length_opened_read _ _
  refine ⟨?_, ?_, ?_⟩
  · have htexts := congrArg (List.map Prod.snd)
      (Walk.rows_texts s.file 0 (.ofForest (surveyAll {} before).2) s.lines)
    rw [List.map_map, s.map_snd_lines] at htexts
    exact htexts
  · intro i hi
    obtain ⟨_, hscope, hdepth⟩ := hline i hi
    rw [hscope, hdepth, hlevel]
  · intro i j hij hj
    obtain ⟨hnumbered, hi, _⟩ := hline i (by omega)
    obtain ⟨_, hj, _⟩ := hline j hj
    have habove := above_append bares (Nat.le_of_lt hij)
    have hread : s.matchingAt (surveyAll {} before).2 j =
        (s.matchingAt (surveyAll {} before).2 i).read (above (bares.drop i) (j - i)) := by
      rw [Sheet.matchingAt, habove, Matching.read_append]
      rfl
    rw [hi, hj, hread, eq_comm, hnumbered.top_read_eq_iff, hlevel, habove,
      Matching.levels_bounded_iff, braceLevel_append, eq_comm]

/-- A closing brace too many, a block that ends where the next one starts, a brace in a comment, and
a block on one line. -/
def bracedSheet : Sheet :=
  ⟨1, "\x7d\na: \x7b\n\x7d b: \x7b // \x7d\n\x7b \x7d\nnop\n\x7d".toList, [.onLine 1 2 7 11]⟩

theorem survey_matches_braces_reopened :
    let bares := Source.blank (Source.lines bracedSheet.text) bracedSheet.comments
    let listing := (survey {} bracedSheet.file bracedSheet.text bracedSheet.comments).1
    (∀ bare ∈ bares, PlainLine bare) ∧
    (List.range bares.length).map listing.scopeAt = [0, 0, 1, 2, 2, 2] ∧
    braceLevel (above bares 2) = braceLevel (above bares 3) ∧
    (∃ mid, above bares 2 <+: mid ∧ mid <+: above bares 3 ∧
      braceLevel mid < braceLevel (above bares 2)) ∧
    ∀ mid, above bares 3 <+: mid → mid <+: above bares 5 →
      braceLevel (above bares 3) ≤ braceLevel mid := by
  intro bares listing
  obtain ⟨hplain, hscopes, hlevels, hlength, hapart, hsame⟩ :
      (∀ bare ∈ bares, PlainLine bare) ∧
      (List.range bares.length).map listing.scopeAt = [0, 0, 1, 2, 2, 2] ∧
      braceLevel (above bares 2) = braceLevel (above bares 3) ∧ 5 < bares.length ∧
      listing.scopeAt 2 ≠ listing.scopeAt 3 ∧ listing.scopeAt 3 = listing.scopeAt 5 := by
    decide +kernel
  obtain ⟨_, _, hiff⟩ := survey_matches_braces [] bracedSheet [] hplain
  refine ⟨hplain, hscopes, hlevels, ?_,
    ((hiff 3 5 (by decide) hlength).mp hsame).2⟩
  have hnot := mt (hiff 2 3 (by decide) (Nat.lt_trans (by decide) hlength)).mpr hapart
  push Not at hnot
  exact hnot hlevels

end AsmLens.Scope
