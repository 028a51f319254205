import AsmLens.Catalogue.Outline
import AsmLens.Proofs.Symbol.Declaration
import Mathlib.Data.List.DropRight

/-!
# One declaration, read twice

A directive that opens a scope is read twice: by the survey on the whole line, and for the catalogue
on the text from a mark to the trimmed end of the line. The two readings use different keywords in a
different order, but no text starts with two of these keywords, and neither the white space in front
of the directive nor the one behind it belongs to a name. So both find the same name and kind.
-/

namespace AsmLens

namespace Text

lemma exists_range_of_covered {ranges : List CodeRange} {n : Nat} (h : covered ranges n = true) :
    ∃ r ∈ ranges, r.1 ≤ n ∧ n ≤ r.2 := by
  induction ranges with
  | nil => cases h
  | cons r rest ih =>
    rw [covered] at h
    split at h
    · cases h
    · rename_i hlow
      rcases Bool.or_eq_true_iff.mp h with hhigh | hrest
      · exact ⟨r, List.mem_cons_self, Nat.le_of_not_lt hlow, of_decide_eq_true hhigh⟩
      · obtain ⟨r', hr', hn⟩ := ih hrest
        exact ⟨r', List.mem_cons_of_mem r hr', hn⟩

/-- White space does not stand in names. -/
theorem isWord_of_isSpace {c : Char} (h : isSpace c = true) : isWord c = false := by
  have hall : ∀ r ∈ spaceRanges, ∀ i < r.2 - r.1 + 1,
      (covered alphabeticRanges (r.1 + i) || covered wordMarkRanges (r.1 + i)) = false := by
    decide +kernel
  obtain ⟨r, hr, hlow, hhigh⟩ := exists_range_of_covered h
  have hn := hall r hr (c.toNat - r.1) (by omega)
  rwa [Nat.add_sub_cancel' hlow] at hn

lemma exists_trimEnd_append (t : Text) :
    ∃ trail, t = trimEnd t ++ trail ∧ ∀ c ∈ trail, isSpace c = true := by
  refine ⟨(t.reverse.takeWhile isSpace).reverse, ?_, ?_⟩
  · rw [trimEnd, dropEndWhile, ← List.reverse_append, List.takeWhile_append_dropWhile,
      List.reverse_reverse]
  · intro c hc
    exact List.mem_takeWhile_imp (List.mem_reverse.mp hc)

end Text

namespace Source

/-! ## Keywords -/

/-- A character that only its own letter cases fold to another one of. -/
def Plain (letter : Char) : Prop := letter ≠ 'ſ' ∧ letter ≠ '\u212a'

instance (letter : Char) : Decidable (Plain letter) := inferInstanceAs (Decidable (_ ∧ _))

lemma foldsTo_cases {letter c : Char} (hplain : Plain letter) (h : foldsTo letter c = true) :
    (c = 'ſ' ∧ letter = 's') ∨ (c = '\u212a' ∧ letter = 'k') ∨
      (c ≠ 'ſ' ∧ c ≠ '\u212a' ∧ letter = c.toLower) := by
  by_cases hs : c = 'ſ'
  · subst hs
    have hlower : ('ſ' : Char).toLower = 'ſ' := by decide
    have hne : ('ſ' : Char) ≠ letter := hplain.1.symm
    simpa [foldsTo, hlower, hne] using h
  · by_cases hk : c = '\u212a'
    · subst hk
      have hlower : ('\u212a' : Char).toLower = '\u212a' := by decide
      have hne : ('\u212a' : Char) ≠ letter := hplain.2.symm
      simpa [foldsTo, hlower, hne] using h
    · simp only [foldsTo, hs, hk, beq_iff_eq, Bool.or_eq_true, Bool.and_eq_true, and_false,
        or_false] at h
      exact Or.inr (Or.inr ⟨hs, hk, h.symm⟩)

/-- No character folds to two letters. -/
lemma eq_of_foldsTo {a b c : Char} (ha : Plain a) (hb : Plain b) (hac : foldsTo a c = true)
    (hbc : foldsTo b c = true) : a = b := by
  rcases foldsTo_cases ha hac with ⟨h, ha⟩ | ⟨h, ha⟩ | ⟨hs, hk, ha⟩ <;>
  rcases foldsTo_cases hb hbc with ⟨h', hb⟩ | ⟨h', hb⟩ | ⟨hs', hk', hb⟩ <;> simp_all

/-- Of two keywords at the start of one text, one starts with the other. -/
theorem isPrefix_or_isPrefix_of_afterKeyword? {ks ls t u v : Text} (hks : ∀ c ∈ ks, Plain c)
    (hls : ∀ c ∈ ls, Plain c) (hu : afterKeyword? ks t = some u)
    (hv : afterKeyword? ls t = some v) : ks <+: ls ∨ ls <+: ks := by
  induction ks generalizing ls t with
  | nil => exact Or.inl List.nil_prefix
  | cons k ks ih =>
    cases ls with
    | nil => exact Or.inr List.nil_prefix
    | cons l ls =>
      cases t with
      | nil => cases hu
      | cons c cs =>
        rw [afterKeyword?] at hu hv
        split at hu
        · rename_i hk
          split at hv
          · rename_i hl
            have hkl := eq_of_foldsTo (hks k List.mem_cons_self) (hls l List.mem_cons_self) hk hl
            subst hkl
            have hrest := ih (fun c hc => hks c (List.mem_cons_of_mem k hc))
              (fun c hc => hls c (List.mem_cons_of_mem k hc)) hu hv
            simpa only [List.prefix_cons_inj] using hrest
          · cases hv
        · cases hu

theorem afterKeyword?_append {ks t u : Text} (r : Text) (h : afterKeyword? ks t = some u) :
    afterKeyword? ks (t ++ r) = some (u ++ r) := by
  induction ks generalizing t with
  | nil =>
    cases h
    rfl
  | cons k ks ih =>
    cases t with
    | nil => cases h
    | cons c cs =>
      rw [afterKeyword?] at h
      split at h
      · rename_i hk
        rw [List.cons_append, afterKeyword?, if_pos hk]
        exact ih h
      · cases h

theorem afterSpace?_append {t u : Text} (r : Text) (h : afterSpace? t = some u) (hu : u ≠ []) :
    afterSpace? (t ++ r) = some (u ++ r) := by
  cases t with
  | nil => cases h
  | cons c cs =>
    rw [afterSpace?] at h
    split at h
    · rename_i hc
      cases h
      have hne : (cs.dropWhile Text.isSpace).isEmpty = false := by simpa [Text.trimStart] using hu
      rw [List.cons_append, afterSpace?, if_pos hc, Text.trimStart, List.dropWhile_append, hne]
      rfl
    · cases h

/-- What follows a keyword has the same start in a longer text. -/
theorem afterKeywordSpace?_append {ks t u : Text} (r : Text)
    (h : afterKeywordSpace? ks t = some u) (hu : u ≠ []) :
    afterKeywordSpace? ks (t ++ r) = some (u ++ r) := by
  obtain ⟨v, hv, hspace⟩ := Option.bind_eq_some_iff.mp h
  rw [afterKeywordSpace?, afterKeyword?_append r hv]
  exact afterSpace?_append r hspace hu

/-- Only lower-case letters have another character folded to them. -/
lemma eq_of_foldsTo_mark {mark c : Char} (hmark : mark.isLower = false)
    (h : foldsTo mark c = true) : c = mark := by
  have hs : mark ≠ 's' := by
    rintro rfl
    exact absurd hmark (by decide)
  have hk : mark ≠ 'k' := by
    rintro rfl
    exact absurd hmark (by decide)
  have hlower : c.toLower = mark := by simpa [foldsTo, hs, hk] using h
  unfold Char.toLower at hlower
  split at hlower
  · rename_i hc
    -- an upper-case letter would have made a lower-case one of the mark
    have hlow : 65 ≤ c.val.toNat := UInt32.le_iff_toNat_le.mp hc.1
    have hhigh : c.val.toNat ≤ 90 := UInt32.le_iff_toNat_le.mp hc.2
    have hval : mark.val.toNat = (c.val.toNat + 32) % 4294967296 := by
      rw [← hlower]
      rfl
    have hrange : (decide (97 ≤ mark.val) && decide (mark.val ≤ 122)) = false := hmark
    simp only [Bool.and_eq_false_iff, decide_eq_false_iff_not, UInt32.le_iff_toNat_le] at hrange
    have hbounds : 97 ≤ mark.val.toNat ∧ mark.val.toNat ≤ 122 := by omega
    rcases hrange with hrange | hrange
    · exact absurd hbounds.1 hrange
    · exact absurd hbounds.2 hrange
  · exact hlower

/-- A text that starts with a keyword starts with the mark of the keyword. -/
theorem head?_of_afterKeyword? {mark : Char} {ks t u : Text} (hmark : mark.isLower = false)
    (h : afterKeyword? (mark :: ks) t = some u) : t.head? = some mark := by
  cases t with
  | nil => cases h
  | cons c cs =>
    rw [afterKeyword?] at h
    split at h
    · rename_i hc
      rw [eq_of_foldsTo_mark hmark hc]
      rfl
    · cases h

/-! ## Names -/

/-- The name at the start of a text, behind an at-sign if there is one. -/
def nameOf (t : Text) : Text := (takeName (takeAt t).2).1

/-- White space at the end of a text does not belong to its name. -/
theorem nameOf_append {t trail : Text} (ht : t ≠ []) (htrail : ∀ c ∈ trail, Text.isSpace c = true) :
    nameOf (t ++ trail) = nameOf t := by
  have hat : (takeAt (t ++ trail)).2 = (takeAt t).2 ++ trail := by
    cases t with
    | nil => exact absurd rfl ht
    | cons c cs =>
      by_cases hc : c = '@'
      · subst hc
        rfl
      · simp [takeAt, hc]
  have hnone : trail.takeWhile Text.isWord = [] := by
    cases trail with
    | nil => rfl
    | cons c cs => simp [Text.isWord_of_isSpace (htrail c List.mem_cons_self)]
  rw [nameOf, nameOf, hat, takeName_eq, takeName_eq, List.takeWhile_append, hnone]
  split
  · rename_i hlength
    rw [List.append_nil, (List.takeWhile_prefix _).eq_of_length hlength]
  · rfl

end Source

/-! ## The survey's reading -/

namespace Scope.Opening

/-- The directives that open scopes, in the order in which the survey looks for them. -/
def directives : List (String × Kind) :=
  [(".namespace", .nameSpace), (".filenamespace", .nameSpace), (".function", .function),
    (".macro", .macroBody), (".pseudocommand", .pseudoCommand)]

/-- No text starts with two of the directives. -/
lemma directives_apart :
    directives.Pairwise fun p q => ¬p.1.toList <+: q.1.toList ∧ ¬q.1.toList <+: p.1.toList := by
  decide

lemma directives_plain : ∀ p ∈ directives, ∀ c ∈ p.1.toList, Source.Plain c := by
  have hall : ∀ p ∈ directives, (p.1.toList.all fun c => decide (Source.Plain c)) = true := by
    decide
  intro p hp c hc
  exact of_decide_eq_true (List.all_eq_true.mp (hall p hp) c hc)

lemma directives_head : ∀ p ∈ directives, p.1.toList.head? = some '.' := by decide

lemma ofLine?_eq (line : Text) :
    ofLine? line =
      directives.foldr (fun p rest => directive? p.1 p.2 (Text.trimStart line) <|> rest)
        (label? (Text.trimStart line)) := rfl

lemma foldr_orElse_of_findSome? {α β : Type} {f : α → Option β} {items : List α} {b : β}
    (last : Option β) (h : items.findSome? f = some b) :
    items.foldr (fun a rest => f a <|> rest) last = some b := by
  induction items with
  | nil => cases h
  | cons a items ih =>
    rw [List.foldr_cons]
    cases ha : f a with
    | none =>
      rw [List.findSome?_cons_of_isNone (by rw [ha]; rfl)] at h
      exact ih h
    | some b' =>
      rw [List.findSome?_cons_of_isSome (by rw [ha]; rfl), ha] at h
      exact h

lemma foldr_orElse_of_none {α β : Type} {f : α → Option β} {items : List α} (last : Option β)
    (h : ∀ a ∈ items, f a = none) : items.foldr (fun a rest => f a <|> rest) last = last := by
  induction items with
  | nil => rfl
  | cons a items ih =>
    rw [List.foldr_cons, h a List.mem_cons_self, ih fun b hb => h b (List.mem_cons_of_mem a hb)]
    rfl

/-- A line that starts with a directive declares the name behind the directive. -/
theorem ofLine?_of_directive {line rest : Text} {keyword : String} {kind : Kind}
    (hmem : (keyword, kind) ∈ directives)
    (h : Source.afterKeywordSpace? keyword.toList (Text.trimStart line) = some rest) :
    ofLine? line = some ⟨Source.nameOf rest, kind⟩ := by
  obtain ⟨front, back, hsplit⟩ := List.append_of_mem hmem
  rw [ofLine?_eq]
  apply foldr_orElse_of_findSome?
  rw [List.findSome?_eq_some_iff]
  refine ⟨front, (keyword, kind), back, hsplit, ?_, ?_⟩
  · rw [directive?, h]
    rfl
  · intro p hp
    have hapart := directives_apart
    rw [hsplit, List.pairwise_append] at hapart
    obtain ⟨hforward, hbackward⟩ := hapart.2.2 p hp (keyword, kind) List.mem_cons_self
    have hpmem : p ∈ directives := hsplit ▸ List.mem_append_left _ hp
    obtain ⟨u, hu, _⟩ := Option.bind_eq_some_iff.mp h
    rw [directive?, Option.map_eq_none_iff, Option.eq_none_iff_forall_ne_some]
    intro v hv
    obtain ⟨w, hw, _⟩ := Option.bind_eq_some_iff.mp hv
    rcases Source.isPrefix_or_isPrefix_of_afterKeyword? (directives_plain p hpmem)
      (directives_plain _ hmem) hw hu with hp | hp
    · exact hforward hp
    · exact hbackward hp

end Scope.Opening

/-! ## The catalogue's reading -/

namespace Declaration

/-- If the declaration `x` read from `d` can own a scope other than the block of a label, `d` starts
with a directive for such a scope and the name of `x`. -/
def Directed (d : Text) (x : Declaration) : Prop :=
  ∀ kind, Outline.ownedKind? x.kind.category = some kind → kind ≠ .label →
    ∃ keyword rest, (keyword, kind) ∈ Scope.Opening.directives ∧
      Source.afterKeywordSpace? keyword.toList d = some rest ∧ Source.nameOf rest = x.name

theorem exists_tail_of_named? {d rest : Text} {kind? : Text → Option SymbolKind} {x : Declaration}
    (h : named? d rest kind? = some x) :
    Source.nameOf rest = x.name ∧ ∃ tail, kind? tail = some x.kind := by
  simp only [named?] at h
  split at h
  · cases h
  · obtain ⟨kind, hkind, rfl⟩ := Option.map_eq_some_iff.mp h
    exact ⟨rfl, _, hkind⟩

theorem directive?_directed {d : Text} {keyword : String} {kind? : Text → Option SymbolKind}
    {x : Declaration}
    (hkind : ∀ tail k kind, kind? tail = some k → Outline.ownedKind? k.category = some kind →
      (keyword, kind) ∈ Scope.Opening.directives)
    (h : directive? d keyword kind? = some x) : Directed d x := by
  intro kind howned _
  obtain ⟨rest, hkeyword, hnamed⟩ := Option.bind_eq_some_iff.mp h
  obtain ⟨hname, tail, htail⟩ := exists_tail_of_named? hnamed
  exact ⟨keyword, rest, hkind tail x.kind kind htail howned, hkeyword, hname⟩

theorem assignment?_unowned {make : Option AssignedValue → SymbolKind}
    (hmake : ∀ v, Outline.ownedKind? (make v).category = none) {tail : Text} {k : SymbolKind}
    (h : assignment? make tail = some k) : Outline.ownedKind? k.category = none := by
  unfold assignment? at h
  split at h
  · cases h
    exact hmake none
  · cases h
    exact hmake _
  · cases h

theorem evalVar?_directed {d : Text} {x : Declaration} (h : evalVar? d = some x) :
    Directed d x := by
  intro kind howned _
  obtain ⟨behind, _, hvar⟩ := Option.bind_eq_some_iff.mp h
  obtain ⟨rest, _, hnamed⟩ := Option.bind_eq_some_iff.mp hvar
  obtain ⟨_, tail, htail⟩ := exists_tail_of_named? hnamed
  have hunowned := assignment?_unowned (fun _ => rfl) htail
  rw [hunowned] at howned
  cases howned

theorem label?_directed {d : Text} {x : Declaration} (h : label? d = some x) : Directed d x := by
  intro kind howned hkind
  obtain ⟨_, tail, htail⟩ := exists_tail_of_named? h
  have hlabel : x.kind = .namedLabel := by
    split at htail
    · exact (Option.some.inj htail).symm
    · cases htail
  rw [hlabel] at howned
  exact absurd (Option.some.inj howned).symm hkind

theorem read?_directed {d : Text} {x : Declaration} (h : read? d = some x) : Directed d x := by
  have hvalue : ∀ {keyword : String} {make : Option AssignedValue → SymbolKind},
      (∀ v, Outline.ownedKind? (make v).category = none) →
      directive? d keyword (assignment? make) = some x → Directed d x := by
    intro keyword make hmake
    refine directive?_directed fun tail k kind hk howned => ?_
    rw [assignment?_unowned hmake hk] at howned
    cases howned
  have hplain : ∀ {keyword : String} {make : Text → SymbolKind},
      (∀ tail kind, Outline.ownedKind? (make tail).category = some kind →
        (keyword, kind) ∈ Scope.Opening.directives) →
      directive? d keyword (fun tail => some (make tail)) = some x → Directed d x := by
    intro keyword make hmake
    refine directive?_directed fun tail k kind hk howned => ?_
    cases hk
    exact hmake tail kind howned
  rw [read?] at h
  split at h
  · cases h
  · revert h
    refine of_orElse (hvalue fun _ => rfl) ?_
    refine of_orElse (hvalue fun _ => rfl) ?_
    refine of_orElse (hvalue fun _ => rfl) ?_
    refine of_orElse evalVar?_directed ?_
    refine of_orElse (hplain fun _ _ howned => by cases howned) ?_
    iterate 5 refine of_orElse (hplain fun _ _ howned => by cases howned; decide) ?_
    exact label?_directed

end Declaration

/-- The survey and the catalogue agree on a directive with only white space in front of it. -/
theorem Scope.Opening.ofLine?_of_read? {line : Text} {column : Nat} {x : Declaration}
    {kind : Scope.Kind} (hspace : ∀ c ∈ line.take column, Text.isSpace c = true)
    (h : Declaration.read? (Text.trimEnd (line.drop column)) = some x)
    (howned : Outline.ownedKind? x.kind.category = some kind) (hkind : kind ≠ .label) :
    ofLine? line = some ⟨x.name, kind⟩ := by
  obtain ⟨keyword, rest, hmem, hkeyword, hname⟩ := Declaration.read?_directed h kind howned hkind
  have hrest : rest ≠ [] := by
    rintro rfl
    exact (Declaration.read?_spelled h).nonempty hname.symm
  obtain ⟨trail, htrail, hblank⟩ := Text.exists_trimEnd_append (line.drop column)
  have hbehind : Source.afterKeywordSpace? keyword.toList (line.drop column) =
      some (rest ++ trail) := by
    rw [htrail]
    exact Source.afterKeywordSpace?_append trail hkeyword hrest
  have hpoint : (line.drop column).head? = some '.' := by
    obtain ⟨u, hu, _⟩ := Option.bind_eq_some_iff.mp hbehind
    obtain ⟨ks, hks⟩ := List.head?_eq_some_iff.mp (directives_head _ hmem)
    rw [hks] at hu
    exact Source.head?_of_afterKeyword? (by decide) hu
  have htrim : Text.trimStart line = line.drop column := by
    obtain ⟨cs, hcs⟩ := List.head?_eq_some_iff.mp hpoint
    have hnospace : Text.isSpace '.' = false := by decide
    rw [Text.trimStart, ← List.take_append_drop column line, List.dropWhile_append_of_pos hspace,
      List.take_append_drop, hcs, List.dropWhile_cons_of_neg (by simp [hnospace])]
  rw [← htrim] at hbehind
  rw [ofLine?_of_directive hmem hbehind, Source.nameOf_append hrest hblank, hname]

end AsmLens
