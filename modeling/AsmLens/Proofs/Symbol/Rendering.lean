import AsmLens.Proofs.Symbol.Annotation
import Mathlib.Logic.Relation

/-!
# Prose and annotations

A documentation comment is prose with annotations between its lines, and the two never meet. The
text is made of the prose alone, and none of its lines reads as an annotation. The parameters are
made of the annotations alone: what the first parameter of a name becomes is settled by the notes on
this name, in their order, and no other parameter changes. So the annotations can be moved among the
prose and past each other, as long as those on one name keep their order.
-/

namespace AsmLens

namespace Text

/-! ## Lines of a trimmed text -/

lemma split_cons_self (sep : Char) (t : Text) : split sep (sep :: t) = [] :: split sep t :=
  split_append_cons List.not_mem_nil t

lemma split_cons_of_ne {sep c : Char} (h : c ≠ sep) {t part : Text} {parts : List Text}
    (ht : split sep t = part :: parts) : split sep (c :: t) = (c :: part) :: parts := by
  rw [split] at ht ⊢
  simp [splitBy, h, ht]

/-- Where two texts meet, the last part of the one and the first of the other become one. -/
theorem split_append (sep : Char) (s t : Text) :
    ∃ init last first rest, split sep s = init ++ [last] ∧ split sep t = first :: rest ∧
      split sep (s ++ t) = init ++ (last ++ first) :: rest := by
  induction s with
  | nil =>
    obtain ⟨first, rest, hfirst⟩ := List.exists_cons_of_ne_nil (split_ne_nil sep t)
    exact ⟨[], [], first, rest, rfl, hfirst, hfirst⟩
  | cons c cs ih =>
    obtain ⟨init, last, first, rest, hs, ht, happend⟩ := ih
    by_cases hc : c = sep
    · subst hc
      refine ⟨[] :: init, last, first, rest, ?_, ht, ?_⟩
      · rw [split_cons_self, hs, List.cons_append]
      · rw [List.cons_append, split_cons_self, happend, List.cons_append]
    · cases init with
      | nil =>
        exact ⟨[], c :: last, first, rest, split_cons_of_ne hc hs, ht, split_cons_of_ne hc happend⟩
      | cons part parts =>
        exact ⟨(c :: part) :: parts, last, first, rest, split_cons_of_ne hc hs, ht,
          split_cons_of_ne hc happend⟩

lemma blank_of_mem_split {sep : Char} {t part : Text} (ht : Blank t) (h : part ∈ split sep t) :
    Blank part := fun c hc => ht c (mem_of_mem_split h hc)

/-- White space behind a text goes to its last part. -/
lemma exists_mem_split_append {sep : Char} {t trail part : Text} (htrail : Blank trail)
    (h : part ∈ split sep t) : ∃ more, Blank more ∧ part ++ more ∈ split sep (t ++ trail) := by
  obtain ⟨init, last, first, rest, ht, hfirst, hwhole⟩ := split_append sep t trail
  rw [ht] at h
  rcases List.mem_append.mp h with hinit | hlast
  · exact ⟨[], blank_nil, by simp [hwhole, hinit]⟩
  · have hmem : first ∈ split sep trail := by simp [hfirst]
    exact ⟨first, blank_of_mem_split htrail hmem, by simp [hwhole, List.mem_singleton.mp hlast]⟩

/-- White space in front of a text goes to its first part. -/
lemma exists_mem_append_split {sep : Char} {gap t part : Text} (hgap : Blank gap)
    (h : part ∈ split sep t) : ∃ more, Blank more ∧ more ++ part ∈ split sep (gap ++ t) := by
  obtain ⟨init, last, first, rest, hlast, ht, hwhole⟩ := split_append sep gap t
  rw [ht] at h
  rcases List.mem_cons.mp h with rfl | hrest
  · have hmem : last ∈ split sep gap := by simp [hlast]
    exact ⟨last, blank_of_mem_split hgap hmem, by simp [hwhole]⟩
  · exact ⟨[], blank_nil, by simp [hwhole, hrest]⟩

/-- A line of a trimmed text is a line of the text, but for white space at its ends. -/
theorem exists_line_of_trim {sep : Char} {t line : Text} (h : line ∈ split sep (trim t)) :
    ∃ line' ∈ split sep t, trim line' = trim line := by
  obtain ⟨gap, trail, hgap, htrail, ht⟩ := exists_trim_append t
  obtain ⟨after, hafter, hmem⟩ := exists_mem_split_append htrail h
  obtain ⟨before, hbefore, hmem⟩ := exists_mem_append_split hgap hmem
  rw [← ht] at hmem
  exact ⟨before ++ (line ++ after), hmem, trim_between hbefore line hafter⟩

lemma mem_split_feeds {feeds t line : Text} (hfeeds : ∀ c ∈ feeds, c = '\n')
    (h : line ∈ split '\n' (feeds ++ t)) : line = [] ∨ line ∈ split '\n' t := by
  induction feeds with
  | nil => exact Or.inr h
  | cons c cs ih =>
    rw [hfeeds c List.mem_cons_self, List.cons_append, split_cons_self] at h
    rcases List.mem_cons.mp h with hnil | h
    · exact Or.inl hnil
    · exact ih (fun d hd => hfeeds d (List.mem_cons_of_mem c hd)) h

/-- The lines of lines that are joined with line feeds are these, and empty ones. -/
lemma mem_split_join {feeds : Text} (hfeeds : ∀ c ∈ feeds, c = '\n') {lines : List Text}
    (hlines : ∀ line ∈ lines, '\n' ∉ line) {line : Text}
    (h : line ∈ split '\n' (join ('\n' :: feeds) lines)) : line ∈ lines ∨ line = [] := by
  induction lines with
  | nil => exact Or.inr (List.mem_singleton.mp h)
  | cons first rest ih =>
    have hfirst := hlines first List.mem_cons_self
    by_cases hrest : rest = []
    · have hsingle := split_join '\n' [first] (List.cons_ne_nil first []) (by simpa using hfirst)
      rw [join, List.intercalate_singleton] at hsingle
      rw [hrest, join, List.intercalate_singleton, hsingle] at h
      exact Or.inl (hrest ▸ h)
    · rw [join_cons_of_ne_nil hrest, List.append_assoc, List.cons_append,
        split_append_cons hfirst] at h
      rcases List.mem_cons.mp h with rfl | h
      · exact Or.inl List.mem_cons_self
      · rcases mem_split_feeds hfeeds h with hnil | h
        · exact Or.inr hnil
        · have hlater := ih (fun l hl => hlines l (List.mem_cons_of_mem first hl)) h
          exact hlater.imp_left (List.mem_cons_of_mem first)

/-! ## Characters of a part -/

lemma mem_of_mem_after? {head t : Text} {c : Char} (h : c ∈ (after? head t).getD t) : c ∈ t := by
  cases hbehind : after? head t with
  | none => rwa [hbehind] at h
  | some rest =>
    rw [hbehind] at h
    exact after?_eq_some_iff.mp hbehind ▸ List.mem_append_right head h

lemma mem_of_mem_before? {tail t : Text} {c : Char} (h : c ∈ (before? tail t).getD t) : c ∈ t := by
  cases hfront : before? tail t with
  | none => rwa [hfront] at h
  | some rest =>
    rw [hfront] at h
    exact before?_eq_some_iff.mp hfront ▸ List.mem_append_left tail h

end Text

namespace ParameterNote

/-! ## Notes on one parameter -/

lemma read?_congr {line line' : Text} (h : Text.trim line = Text.trim line') :
    read? line = read? line' := by
  rw [read?, read?, h]

/-- What the notes on a parameter make of it: the last kind and the last description that are given,
and optional if one of the notes says so. -/
def settle (notes : List ParameterNote) (p : Parameter) : Parameter :=
  { p with
    kind := ((notes.filterMap (·.kind)).getLast?).getD p.kind
    isOptional := p.isOptional || notes.any (·.isOptional)
    description := (notes.filterMap (·.description)).getLast? <|> p.description }

lemma settle_nil (p : Parameter) : settle [] p = p := by
  simp [settle]

lemma getLast?_filterMap_cons {α β : Type} (f : α → Option β) (a : α) (rest : List α) :
    ((a :: rest).filterMap f).getLast? = (rest.filterMap f).getLast?.or (f a) := by
  rw [List.filterMap_cons]
  cases f a with
  | none => exact Option.or_none.symm
  | some b => rw [List.getLast?_cons, Option.or_some]

/-- The first note is merged before the others are settled. -/
lemma settle_cons (a : ParameterNote) (notes : List ParameterNote) (p : Parameter) :
    settle (a :: notes) p = settle notes (a.merge p) := by
  simp only [settle, merge, getLast?_filterMap_cons, List.any_cons, Bool.or_assoc, Option.getD_or,
    Option.orElse_eq_orElse, Option.orElse_eq_or, Option.or_assoc]

lemma name_merge (a : ParameterNote) (p : Parameter) : (a.merge p).name = p.name := rfl

lemma map_name_apply (a : ParameterNote) (ps : List Parameter) :
    (a.apply ps).map (·.name) = ps.map (·.name) := by
  have hnames := congrArg (List.map (·.name)) (a.map_undocumented_apply ps)
  rwa [List.map_map, List.map_map] at hnames

/-- A note reaches the first parameter of its name and no other. -/
theorem getElem?_apply_eq (a : ParameterNote) (ps : List Parameter) (i : Nat) :
    (a.apply ps)[i]? = ps[i]?.map fun p =>
      if p.name = a.name ∧ p.name ∉ (ps.map (·.name)).take i then a.merge p else p := by
  induction ps generalizing i with
  | nil => rfl
  | cons q ps ih =>
    rw [apply]
    by_cases hq : q.name = a.name
    · rw [if_pos hq]
      cases i with
      | zero => simp [hq]
      | succ i =>
        -- `q` stands in front of all that follow
        have hlater : ∀ p : Parameter,
            ¬(p.name = a.name ∧ p.name ∉ ((q :: ps).map (·.name)).take (i + 1)) := by
          rintro p ⟨hname, hfirst⟩
          exact hfirst (by simp [hname, hq])
        simp only [hlater, if_false, Option.map_id_fun', id_eq, List.getElem?_cons_succ]
    · rw [if_neg hq]
      cases i with
      | zero => simp [hq]
      | succ i =>
        rw [List.getElem?_cons_succ, List.getElem?_cons_succ, ih]
        refine Option.map_congr fun p _ => ?_
        by_cases hname : p.name = a.name
        · have hne : p.name ≠ q.name := fun heq => hq (heq.symm.trans hname)
          simp [hne]
        · simp [hname]

/-- Folding notes in settles the first parameter of each name by the notes on this name, and leaves
the others as they are. -/
theorem getElem?_foldl_apply (notes : List ParameterNote) (ps : List Parameter) (i : Nat) :
    (notes.foldl (fun ps a => a.apply ps) ps)[i]? = ps[i]?.map fun p =>
      if p.name ∈ (ps.map (·.name)).take i then p
      else settle (notes.filter (·.name = p.name)) p := by
  induction notes generalizing ps with
  | nil => simp [settle_nil]
  | cons a notes ih =>
    rw [List.foldl_cons, ih, map_name_apply, getElem?_apply_eq, Option.map_map]
    refine Option.map_congr fun p _ => ?_
    dsimp only [Function.comp]
    by_cases hfirst : p.name = a.name ∧ p.name ∉ (ps.map (·.name)).take i
    · simp only [if_pos hfirst, name_merge, if_neg hfirst.2]
      rw [List.filter_cons_of_pos (by simpa using hfirst.1.symm), settle_cons]
    · simp only [if_neg hfirst]
      refine ite_congr rfl (fun _ => rfl) fun hout => ?_
      have hother : a.name ≠ p.name := fun heq => hfirst ⟨heq.symm, hout⟩
      rw [List.filter_cons_of_neg (by simpa using hother)]

end ParameterNote

namespace Doc

open ParameterNote

/-! ## The text of a comment -/

/-- A line that stands in the text is no annotation. -/
theorem read?_of_mem_text {d : Doc} (hlines : ∀ line ∈ d.lines, '\n' ∉ line) {t line : Text}
    (ht : d.text? = some t) (hline : line ∈ Text.split '\n' t) : read? line = none := by
  obtain ⟨feeds, hseparator, hfeeds⟩ := exists_feeds_separator d.style
  have hprose : ∀ l ∈ d.prose, '\n' ∉ l ∧ read? l = none := by
    intro l hl
    obtain ⟨hmem, hnone⟩ := List.mem_filter.mp hl
    exact ⟨hlines l hmem, Option.isNone_iff_eq_none.mp hnone⟩
  obtain ⟨-, htext⟩ := Option.ite_none_left_eq_some.mp ht
  rw [← Option.some.inj htext] at hline
  obtain ⟨line', hline', htrim⟩ := Text.exists_line_of_trim hline
  rw [hseparator] at hline'
  rw [← read?_congr htrim]
  rcases Text.mem_split_join hfeeds (fun l hl => (hprose l hl).1) hline' with hmem | rfl
  · exact (hprose line' hmem).2
  · rfl

/-! ## Comments with the same prose and the same notes -/

/-- The annotations of one name. -/
def notesOn (d : Doc) (name : Text) : List ParameterNote := d.notes.filter (·.name = name)

theorem getElem?_annotate (d : Doc) (ps : List Parameter) (i : Nat) :
    (d.annotate ps)[i]? = ps[i]?.map fun p =>
      if p.name ∈ (ps.map (·.name)).take i then p else settle (d.notesOn p.name) p :=
  getElem?_foldl_apply d.notes ps i

/-- The parameters depend on the notes on their names only. -/
theorem annotate_congr {d d' : Doc} {ps : List Parameter}
    (h : ∀ name ∈ ps.map (·.name), d'.notesOn name = d.notesOn name) :
    d'.annotate ps = d.annotate ps := by
  refine List.ext_getElem? fun i => ?_
  rw [getElem?_annotate, getElem?_annotate]
  refine Option.map_congr fun p hp => ?_
  rw [h p.name (List.mem_map_of_mem (List.mem_of_getElem? hp))]

theorem text?_congr {d d' : Doc} (hstyle : d'.style = d.style) (hprose : d'.prose = d.prose) :
    d'.text? = d.text? := by
  rw [text?, text?, hstyle, hprose]

/-- A change of the lines of a comment on parameters with the names `known`: an annotation passes a
line of prose or an annotation of another name, or one of an unknown name is added. -/
inductive Rearranges (known : List Text) : List Text → List Text → Prop
  | pass (before after : List Text) {note line : Text} {a : ParameterNote}
      (hnote : read? note = some a) (hline : read? line = none) :
      Rearranges known (before ++ note :: line :: after) (before ++ line :: note :: after)
  | swap (before after : List Text) {note note' : Text} {a a' : ParameterNote}
      (hnote : read? note = some a) (hnote' : read? note' = some a') (hne : a.name ≠ a'.name) :
      Rearranges known (before ++ note :: note' :: after) (before ++ note' :: note :: after)
  | add (before after : List Text) {note : Text} {a : ParameterNote}
      (hnote : read? note = some a) (hunknown : a.name ∉ known) :
      Rearranges known (before ++ after) (before ++ note :: after)

/-- A change keeps the prose and the annotations of each known name, in their order. -/
lemma Rearranges.same {known lines lines' : List Text} (h : Rearranges known lines lines')
    (style : DocStyle) :
    prose ⟨style, lines'⟩ = prose ⟨style, lines⟩ ∧
      ∀ name ∈ known, notesOn ⟨style, lines'⟩ name = notesOn ⟨style, lines⟩ name := by
  cases h with
  | pass before after hnote hline => simp [prose, notesOn, notes, hnote, hline]
  | @swap before after _ _ a a' hnote hnote' hne =>
    refine ⟨by simp [prose, hnote, hnote'], fun name _ => ?_⟩
    -- at most one of the two is on the name
    by_cases hfirst : a.name = name
    · have hsecond : a'.name ≠ name := fun heq => hne (hfirst.trans heq.symm)
      simp [notesOn, notes, hnote, hnote', hfirst, hsecond]
    · simp [notesOn, notes, hnote, hnote', List.filter_cons, hfirst]
  | @add before after _ a hnote hunknown =>
    refine ⟨by simp [prose, hnote], fun name hname => ?_⟩
    have hother : a.name ≠ name := fun heq => hunknown (heq ▸ hname)
    simp [notesOn, notes, hnote, hother]

/-- Changes one after the other, and back, keep them too. -/
lemma same_of_eqvGen {known lines lines' : List Text}
    (h : Relation.EqvGen (Rearranges known) lines lines') (style : DocStyle) :
    prose ⟨style, lines'⟩ = prose ⟨style, lines⟩ ∧
      ∀ name ∈ known, notesOn ⟨style, lines'⟩ name = notesOn ⟨style, lines⟩ name := by
  induction h with
  | rel _ _ h => exact h.same style
  | refl _ => exact ⟨rfl, fun _ _ => rfl⟩
  | symm _ _ _ ih => exact ⟨ih.1.symm, fun name hname => (ih.2 name hname).symm⟩
  | trans _ _ _ _ _ ih ih' =>
    exact ⟨ih'.1.trans ih.1, fun name hname => (ih'.2 name hname).trans (ih.2 name hname)⟩

/-! ## Comments of a source -/

lemma mem_of_mem_leadingComments {above : List Text} {line : Text} {c : Char}
    (hline : line ∈ leadingComments above) (hc : c ∈ line) : ∃ t ∈ above, c ∈ t := by
  induction above with
  | nil => cases hline
  | cons t rest ih =>
    rw [leadingComments] at hline
    cases hbody : lineComment? t with
    | none =>
      rw [hbody] at hline
      cases hline
    | some body =>
      rw [hbody] at hline
      rcases List.mem_cons.mp hline with rfl | hline
      · obtain ⟨behind, hbehind, rfl⟩ := Option.map_eq_some_iff.mp hbody
        have hmem := (List.dropWhile_suffix _).subset (Text.mem_of_mem_trim hc)
        exact ⟨t, List.mem_cons_self, Text.after?_eq_some_iff.mp hbehind ▸
          List.mem_append_right _ hmem⟩
      · obtain ⟨u, hu, hmem⟩ := ih hline
        exact ⟨u, List.mem_cons_of_mem t hu, hmem⟩

lemma mem_of_mem_blockLine {raw : Text} {c : Char} (h : c ∈ blockLine raw) : c ∈ raw := by
  have hstars := (List.dropWhile_suffix _).subset (Text.mem_of_mem_trim h)
  have hclosing := Text.mem_of_mem_before? (Text.mem_of_mem_trim hstars)
  exact Text.mem_of_mem_trim (Text.mem_of_mem_after? hclosing)

lemma mem_of_through? {α : Type} {p : α → Bool} {items found : List α}
    (h : through? p items = some found) {a : α} (ha : a ∈ found) : a ∈ items := by
  induction items generalizing found with
  | nil => cases h
  | cons b rest ih =>
    rw [through?] at h
    split at h
    · cases h
      exact List.mem_singleton.mp ha ▸ List.mem_cons_self
    · obtain ⟨more, hmore, rfl⟩ := Option.map_eq_some_iff.mp h
      rcases List.mem_cons.mp ha with rfl | ha
      · exact List.mem_cons_self
      · exact List.mem_cons_of_mem b (ih hmore ha)

lemma mem_of_trailing? {raw line : Text} {column : Nat} {d : Doc} {c : Char}
    (h : trailing? raw column = some d) (hline : line ∈ d.lines) (hc : c ∈ line) : c ∈ raw := by
  unfold trailing? at h
  split at h
  · cases h
  · dsimp only at h
    split at h
    · cases h
    · cases h
      rw [List.mem_singleton.mp hline] at hc
      have hmem := (List.dropWhile_suffix _).subset (Text.mem_of_mem_trim hc)
      exact List.mem_of_mem_drop hmem

lemma mem_of_run? {above : List Text} {line : Text} {d : Doc} {c : Char}
    (h : run? above = some d) (hline : line ∈ d.lines) (hc : c ∈ line) : ∃ t ∈ above, c ∈ t := by
  obtain ⟨-, hd⟩ := Option.ite_none_left_eq_some.mp h
  cases hd
  obtain ⟨u, hu, hmem⟩ := mem_of_mem_leadingComments (List.mem_reverse.mp hline) hc
  obtain ⟨t, ht, rfl⟩ := List.mem_map.mp (List.mem_of_mem_filter hu)
  exact ⟨t, ht, Text.mem_of_mem_trim hmem⟩

lemma mem_of_block? {above : List Text} {line : Text} {d : Doc} {c : Char}
    (h : block? above = some d) (hline : line ∈ d.lines) (hc : c ∈ line) : ∃ t ∈ above, c ∈ t := by
  unfold block? at h
  dsimp only at h
  split at h
  · cases h
  · obtain ⟨-, h⟩ := Option.ite_none_left_eq_some.mp h
    split at h
    · cases h
    · rename_i block hblock
      split at h
      · cases h
      · obtain ⟨-, h⟩ := Option.ite_none_left_eq_some.mp h
        obtain ⟨-, hd⟩ := Option.ite_none_left_eq_some.mp h
        cases hd
        obtain ⟨t, ht, rfl⟩ := List.mem_map.mp (List.mem_of_mem_filter hline)
        have habove := mem_of_through? hblock (List.mem_reverse.mp ht)
        exact ⟨t, (List.dropWhile_suffix _).subset habove, mem_of_mem_blockLine hc⟩

/-- What is found as documentation is written in the rows. -/
theorem mem_of_find? {rows : List Scope.Row} {n column : Nat} {line : Text} {d : Doc} {c : Char}
    (h : find? rows n column = some d) (hline : line ∈ d.lines) (hc : c ∈ line) :
    ∃ row ∈ rows, c ∈ row.raw := by
  unfold find? at h
  split at h
  · cases h
  · rename_i row hrow
    have habove : (∃ t ∈ ((rows.take n).map (·.raw)).reverse, c ∈ t) →
        ∃ row ∈ rows, c ∈ row.raw := by
      rintro ⟨t, ht, hmem⟩
      obtain ⟨r, hr, rfl⟩ := List.mem_map.mp (List.mem_reverse.mp ht)
      exact ⟨r, List.mem_of_mem_take hr, hmem⟩
    simp only [Option.orElse_eq_orElse, Option.orElse_eq_or, Option.or_eq_some_iff] at h
    rcases h with htrailing | ⟨-, hrun | ⟨-, hblock⟩⟩
    · exact ⟨row, List.mem_of_getElem? hrow, mem_of_trailing? htrailing hline hc⟩
    · exact habove (mem_of_run? hrun hline hc)
    · exact habove (mem_of_block? hblock hline hc)

/-- The lines of a comment that is found in a surveyed source hold no line feed. -/
theorem feed_notMem_of_find? {f : Scope.Forest} {sheet : Scope.Sheet} {n column : Nat} {d : Doc}
    (h : find? (Scope.survey f sheet.file sheet.text sheet.comments).1.rows n column = some d) :
    ∀ line ∈ d.lines, '\n' ∉ line := by
  intro line hline hfeed
  obtain ⟨row, hrow, hmem⟩ := mem_of_find? h hline hfeed
  have hraw : row.raw ∈ Source.lines sheet.text := by
    rw [← Scope.raw_survey f sheet]
    exact List.mem_map_of_mem hrow
  obtain ⟨part, hpart, hreturn⟩ := List.mem_map.mp hraw
  rw [← hreturn] at hmem
  exact Text.not_mem_of_mem_split hpart (Text.mem_of_mem_before? hmem)

/-! ## Prose and annotations apart -/

/-- Prose and annotations do not meet. The lines of a comment that is found in a source hold no line
feed. For every comment with such lines, and whatever the parameters, one pass over the lines gives
the annotated parameters and the text. The parameters keep their number, their order and their
names; the text is determined by the style and the prose, and none of its lines is an annotation;
the first parameter of a name is settled by the annotations of this name, in their order, and a
later one of the same name is unchanged. So the text and the parameters stay the same when
annotations are moved among the prose or past those of other names, and when annotations of unknown
names are added or taken away. -/
theorem notes_apart_from_prose :
    (∀ (f : Scope.Forest) (sheet : Scope.Sheet) (n column : Nat) (d : Doc),
      find? (Scope.survey f sheet.file sheet.text sheet.comments).1.rows n column = some d →
        ∀ line ∈ d.lines, '\n' ∉ line) ∧
    ∀ (d : Doc) (ps : List Parameter), (∀ line ∈ d.lines, '\n' ∉ line) →
      d.render ps = (d.annotate ps, d.text?) ∧
      (d.annotate ps).map (·.name) = ps.map (·.name) ∧
      (∀ d' : Doc, d'.style = d.style → d'.prose = d.prose → d'.text? = d.text?) ∧
      (∀ t, d.text? = some t → ∀ line ∈ Text.split '\n' t, read? line = none) ∧
      (∀ i p, ps[i]? = some p →
        (p.name ∉ (ps.map (·.name)).take i →
          (d.annotate ps)[i]? = some (settle (d.notesOn p.name) p)) ∧
        (p.name ∈ (ps.map (·.name)).take i → (d.annotate ps)[i]? = some p)) ∧
      ∀ lines', Relation.EqvGen (Rearranges (ps.map (·.name))) d.lines lines' →
        text? ⟨d.style, lines'⟩ = d.text? ∧ annotate ⟨d.style, lines'⟩ ps = d.annotate ps := by
  refine ⟨fun _ _ _ _ _ h => feed_notMem_of_find? h, fun d ps hlines => ?_⟩
  refine ⟨render_eq d ps, map_name_annotate d ps, fun _ => text?_congr, fun _ ht _ hline => ?_,
    ?_, ?_⟩
  · exact read?_of_mem_text hlines ht hline
  · intro i p hp
    have hannotated := getElem?_annotate d ps i
    rw [hp, Option.map_some] at hannotated
    exact ⟨fun hfirst => by rw [hannotated, if_neg hfirst],
      fun hlater => by rw [hannotated, if_pos hlater]⟩
  · intro lines' h
    obtain ⟨hprose, hnotes⟩ := same_of_eqvGen h d.style
    exact ⟨text?_congr rfl hprose, annotate_congr hnotes⟩

/-- A macro with a repeated parameter. Its comment names one parameter twice, with a kind and a
description in different lines. -/
def filledSheet : Scope.Sheet where
  file := 1
  text := ("// Fills.\n// @param [size] bytes\n// @param string to start\n// At once.\n" ++
    "// @param size number\n.macro fill(to, size, size) \x7b\n\x7d").toList
  comments := []

def filledDoc : Doc :=
  ⟨.run, ["Fills.".toList, "@param [size] bytes".toList, "@param string to start".toList,
    "At once.".toList, "@param size number".toList]⟩

def filledParameters : List Parameter :=
  [{ name := "to".toList }, { name := "size".toList }, { name := "size".toList }]

/-- The comment with the note on `to` in front of the others, behind one on an unknown name. -/
def movedLines : List Text :=
  ["@param from start".toList, "@param string to start".toList, "Fills.".toList,
    "@param [size] bytes".toList, "At once.".toList, "@param size number".toList]

theorem notes_apart_from_prose_moved :
    find? (Scope.survey {} filledSheet.file filledSheet.text filledSheet.comments).1.rows 5 0 =
      some filledDoc ∧
    (∀ line ∈ filledDoc.lines, '\n' ∉ line) ∧
    filledDoc.text? = some "Fills.\nAt once.".toList ∧
    (∀ line ∈ Text.split '\n' "Fills.\nAt once.".toList, read? line = none) ∧
    filledDoc.annotate filledParameters =
      [{ name := "to".toList, kind := .string, description := some "start".toList },
        { name := "size".toList, isOptional := true, description := some "number".toList },
        { name := "size".toList }] ∧
    text? ⟨.run, movedLines⟩ = filledDoc.text? ∧
    annotate ⟨.run, movedLines⟩ filledParameters = filledDoc.annotate filledParameters := by
  have hfound : find? (Scope.survey {} filledSheet.file filledSheet.text
      filledSheet.comments).1.rows 5 0 = some filledDoc := by decide +kernel
  obtain ⟨hfeeds, happart⟩ := notes_apart_from_prose
  have hlines := hfeeds {} filledSheet 5 0 filledDoc hfound
  obtain ⟨-, -, -, hnone, -, hmoved⟩ := happart filledDoc filledParameters hlines
  have htext : filledDoc.text? = some "Fills.\nAt once.".toList := by decide +kernel
  have hchange : Relation.EqvGen (Rearranges (filledParameters.map (·.name))) filledDoc.lines
      movedLines := by
    have hsize : read? "@param [size] bytes".toList =
        some ⟨"size".toList, none, true, some "bytes".toList⟩ := by decide +kernel
    have hto : read? "@param string to start".toList =
        some ⟨"to".toList, some .string, false, some "start".toList⟩ := by decide +kernel
    have hfrom : read? "@param from start".toList =
        some ⟨"from".toList, none, false, some "start".toList⟩ := by decide +kernel
    have hprose : read? "Fills.".toList = none := by decide +kernel
    refine .trans _ _ _ (.rel _ _ (.swap ["Fills.".toList] _ hsize hto (by decide))) ?_
    refine .trans _ _ _ (.symm _ _ (.rel _ _ (.pass [] _ hto hprose))) ?_
    exact .rel _ _ (.add [] _ hfrom (by decide))
  exact ⟨hfound, hlines, htext, hnone _ htext, by decide +kernel, hmoved movedLines hchange⟩

end Doc

end AsmLens
