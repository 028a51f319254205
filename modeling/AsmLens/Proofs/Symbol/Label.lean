import AsmLens.Proofs.Symbol.Signature

/-!
# One label, read twice

A label that opens a block is read by the survey at the front of the line and for the catalogue at
a mark. Both take an at-sign off and read the longest name, but the catalogue lets white space stand
between the name and the colon, and the survey does not. So the survey reads the label of the
catalogue if the colon follows its name, and nothing otherwise.
-/

namespace AsmLens

namespace Declaration

/-- The text `d` is the label `x`: an at-sign or nothing, the name, white space and a colon. -/
structure WritesLabel (d : Text) (x : Declaration) (sign gap rest : Text) : Prop where
  text : d = sign ++ (x.name ++ (gap ++ ':' :: rest))
  column : x.column = sign.length
  sign : sign = [] ∨ sign = ['@']
  nonempty : x.name ≠ []
  word : ∀ c ∈ x.name, Text.isWord c = true
  gap : Text.Blank gap

variable {d : Text} {x : Declaration}

/-- Only the last form reads a label. -/
theorem label?_of_read? (h : read? d = some x) (hlabel : x.kind = .namedLabel) :
    label? d = some x := by
  have hdirective : ∀ {keyword : String} {kind? : Text → Option SymbolKind},
      (∀ tail, kind? tail ≠ some .namedLabel) → directive? d keyword kind? = some x →
        label? d = some x := by
    intro keyword kind? hkind hread
    obtain ⟨rest, _, hnamed⟩ := Option.bind_eq_some_iff.mp hread
    obtain ⟨_, tail, htail⟩ := exists_tail_of_named? hnamed
    rw [hlabel] at htail
    exact absurd htail (hkind tail)
  have hvalue : ∀ {make : Option AssignedValue → SymbolKind}, (∀ v, make v ≠ .namedLabel) →
      ∀ tail, assignment? make tail ≠ some .namedLabel := by
    intro make hmake tail hkind
    unfold assignment? at hkind
    split at hkind
    · exact hmake none (Option.some.inj hkind)
    · exact hmake _ (Option.some.inj hkind)
    · cases hkind
  have heval : evalVar? d = some x → label? d = some x := by
    intro hread
    obtain ⟨behind, _, hvar⟩ := Option.bind_eq_some_iff.mp hread
    obtain ⟨rest, _, hnamed⟩ := Option.bind_eq_some_iff.mp hvar
    obtain ⟨_, tail, htail⟩ := exists_tail_of_named? hnamed
    have hkind : ∀ v, SymbolKind.var v ≠ .namedLabel := fun _ hv => by cases hv
    rw [hlabel] at htail
    exact absurd htail (hvalue hkind tail)
  rw [read?] at h
  split at h
  · cases h
  · revert h
    iterate 3 refine of_orElse (hdirective (hvalue fun _ hv => by cases hv)) ?_
    refine of_orElse heval ?_
    iterate 6 refine of_orElse (hdirective fun _ hkind => by cases hkind) ?_
    exact id

/-- White space in front of the colon is neither part of the name nor the colon. -/
lemma WritesLabel.of_gap {sign gap rest more : Text} {space : Char}
    (h : WritesLabel d x sign gap rest) (hgap : gap = space :: more) :
    Text.isWord space = false ∧ space ≠ ':' := by
  have hspace : Text.isSpace space = true := h.gap space (hgap ▸ List.mem_cons_self)
  refine ⟨Text.isWord_of_isSpace hspace, ?_⟩
  rintro rfl
  exact absurd hspace (by decide)

theorem writesLabel_of_label? (h : label? d = some x) :
    ∃ sign gap rest, WritesLabel d x sign gap rest := by
  have hspelled := label?_spelled h
  obtain ⟨sign, hd, hsign⟩ :
      ∃ sign, d = sign ++ (Source.takeAt d).2 ∧ (sign = [] ∨ sign = ['@']) := by
    rcases Source.takeAt_cases d with ⟨bare, hbare, hat⟩ | hat
    · exact ⟨['@'], by rw [hat]; exact hbare, Or.inr rfl⟩
    · exact ⟨[], by rw [hat]; rfl, Or.inl rfl⟩
  simp only [label?, named?, Source.takeName_eq] at h
  split at h
  · cases h
  · obtain ⟨kind, hkind, rfl⟩ := Option.map_eq_some_iff.mp h
    split at hkind
    · rename_i rest hrest
      have htail : (Source.takeAt d).2 = (Source.takeAt d).2.takeWhile Text.isWord ++
          (((Source.takeAt d).2.dropWhile Text.isWord).takeWhile Text.isSpace ++ ':' :: rest) := by
        rw [← hrest, Text.trimStart, List.takeWhile_append_dropWhile,
          List.takeWhile_append_dropWhile]
      refine ⟨sign, _, rest, hd.trans (congrArg (sign ++ ·) htail), ?_, hsign, hspelled.nonempty,
        hspelled.word, fun c hc => List.mem_takeWhile_imp hc⟩
      have hlength := congrArg List.length hd
      rw [List.length_append] at hlength
      dsimp only
      omega
    · cases hkind

end Declaration

namespace Scope.Opening

open Declaration

variable {d sign gap rest : Text} {x : Declaration}

/-- The survey takes the name of a label if nothing stands between the name and the colon. -/
lemma label?_of_writesLabel (h : WritesLabel d x sign gap rest) :
    label? d = if gap = [] then some ⟨x.name, .label⟩ else none := by
  have hat : (Source.takeAt d).2 = x.name ++ (gap ++ ':' :: rest) := by
    rw [h.text]
    rcases h.sign with rfl | rfl
    · rw [List.nil_append, takeAt_name h.nonempty h.word]
    · rfl
  have hstop : ∀ c ∈ (gap ++ ':' :: rest).head?, Text.isWord c = false := by
    intro c hc
    cases hgap : gap with
    | nil =>
      rw [hgap] at hc
      cases hc
      decide
    | cons space more =>
      rw [hgap] at hc
      cases hc
      exact (h.of_gap hgap).1
  have hname := takeName_name h.word hstop
  obtain ⟨c, cs, hcs⟩ := List.exists_cons_of_ne_nil h.nonempty
  rw [hcs] at hname hat ⊢
  rw [label?, hat, hname]
  cases hgap : gap with
  | nil => rfl
  | cons space more =>
    rw [if_neg (List.cons_ne_nil space more)]
    simp [(h.of_gap hgap).2]

/-- The character behind the name of a label is its colon if nothing stands in between. -/
lemma getElem?_of_writesLabel (h : WritesLabel d x sign gap rest) :
    d[x.column + x.name.length]? = some ':' ↔ gap = [] := by
  have hchar : d[x.column + x.name.length]? = (gap ++ ':' :: rest).head? := by
    rw [h.text, h.column, ← List.append_assoc, ← List.length_append,
      List.getElem?_append_right le_rfl, Nat.sub_self, List.head?_eq_getElem?]
  rw [hchar]
  cases hgap : gap with
  | nil => simp
  | cons space more => simp [(h.of_gap hgap).2]

/-- A line that starts with no directive can only have a label. -/
lemma ofLine?_eq_label? {line : Text} (h : (Text.trimStart line).head? ≠ some '.') :
    ofLine? line = label? (Text.trimStart line) := by
  rw [ofLine?_eq]
  apply foldr_orElse_of_none
  intro p hp
  rw [directive?, Option.map_eq_none_iff, Option.eq_none_iff_forall_ne_some]
  intro u hu
  obtain ⟨v, hv, _⟩ := Option.bind_eq_some_iff.mp hu
  obtain ⟨ks, hks⟩ := List.head?_eq_some_iff.mp (directives_head p hp)
  rw [hks] at hv
  exact h (Source.head?_of_afterKeyword? (by decide) hv)

/-- A label that is read at a column with white space in front of it is what the survey reads on the
line if the colon follows the name, and otherwise the survey reads nothing. -/
theorem ofLine?_of_label {t : Text} {column : Nat}
    (hspace : ∀ c ∈ t.take column, Text.isSpace c = true)
    (h : read? (Text.trimEnd (t.drop column)) = some x) (hlabel : x.kind = .namedLabel) :
    ofLine? t =
      if t[column + x.column + x.name.length]? = some ':' then some ⟨x.name, .label⟩
      else none := by
  obtain ⟨sign, gap, rest, hwrites⟩ := writesLabel_of_label? (label?_of_read? h hlabel)
  obtain ⟨trail, htrail, _⟩ := Text.exists_trimEnd_append (t.drop column)
  -- the label ends with its colon, so what was trimmed off stands behind it
  have hline : WritesLabel (t.drop column) x sign gap (rest ++ trail) := by
    refine ⟨?_, hwrites.column, hwrites.sign, hwrites.nonempty, hwrites.word, hwrites.gap⟩
    rw [htrail, hwrites.text]
    simp
  obtain ⟨c, cs, hhead, hc, hpoint⟩ : ∃ c cs, t.drop column = c :: cs ∧
      Text.isSpace c = false ∧ c ≠ '.' := by
    obtain ⟨c, cs, hcs, hc, _, _, hpoint, _⟩ := exists_head_of_name hline.nonempty hline.word
    rw [hline.text, hcs]
    rcases hline.sign with rfl | rfl
    · exact ⟨c, _, rfl, hc, hpoint⟩
    · exact ⟨'@', _, rfl, by decide, by decide⟩
  have htrim : Text.trimStart t = t.drop column := by
    rw [Text.trimStart, ← List.take_append_drop column t, List.dropWhile_append_of_pos hspace,
      List.take_append_drop, hhead, List.dropWhile_cons_of_neg (by simp [hc])]
  have hfirst : (Text.trimStart t).head? ≠ some '.' := by
    rw [htrim, hhead]
    simpa using hpoint
  have hcolon : t[column + x.column + x.name.length]? = some ':' ↔ gap = [] := by
    rw [← getElem?_of_writesLabel hline, List.getElem?_drop, Nat.add_assoc]
  rw [ofLine?_eq_label? hfirst, htrim, label?_of_writesLabel hline]
  simp only [hcolon]

end Scope.Opening

end AsmLens
