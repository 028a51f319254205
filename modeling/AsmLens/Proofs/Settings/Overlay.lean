import AsmLens.Proofs.Text.Fields
import AsmLens.Settings

/-!
# Settings are a normalised overlay

What an overlay may look like is said here by two tables, the groups of settings and their members
with the shape of each. An overlay that departs from them in one place gives nothing at all, and any
other one gives the values of the members that are there and not null. A payload holds two overlays:
what its own section gives comes first, then what the bare payload gives, then what was set before.

All settings that can come about are in normal form, and a payload that is merged twice has no more
effect than once.
-/

namespace AsmLens

namespace Json

/-- Whether a value is null. -/
def isNull : Json → Bool
  | .null => true
  | _ => false

/-- Whether a value is an object. -/
def isObject : Json → Bool
  | .obj _ => true
  | _ => false

/-- The member with a key in the group with a key. -/
def member? (j : Json) (group key : String) : Option Json := (j.at? group).bind (·.at? key)

end Json

namespace SettingsPatch

/-- What a member of an overlay holds. -/
inductive Shape where
  | text
  | texts
  | truth
  | delay
  | level

/-- Whether a value has a shape. -/
def Shape.admits : Shape → Json → Bool
  | .text, .str _ => true
  | .texts, .arr items => items.all fun
    | .str _ => true
    | _ => false
  | .truth, .bool _ => true
  | .delay, .int n => 0 ≤ n && n < Bound.long
  | .level, .str name => LogLevel.named.any (·.1 == name)
  | .level, .obj members => LogLevel.named.any fun known =>
    members.all (·.1 == known.1) && ((Json.obj members).get? known.1).any (·.isNull)
  | _, _ => false

/-- The groups of an overlay. -/
def groups : List String := ["assembler", "diagnostics", "logging"]

/-- The members of an overlay, each with its group and its shape. -/
def members : List (String × String × Shape) :=
  [("assembler", "javaPath", .text), ("assembler", "jarPath", .text),
    ("assembler", "extraArgs", .texts), ("diagnostics", "onType", .truth),
    ("diagnostics", "onSave", .truth), ("diagnostics", "debounceMs", .delay),
    ("logging", "level", .level)]

/-- An overlay is an object in which every known group is an object or null, where it is there, and
every known member of a group has its shape or is null, where it is there. -/
def wellFormed (j : Json) : Bool :=
  j.isObject &&
  (groups.all fun group => (j.at? group).all fun v => v.isNull || v.isObject) &&
  members.all fun (group, key, shape) =>
    (j.member? group key).all fun v => v.isNull || shape.admits v

/-- The value that an overlay gives for a member. An overlay that is not well formed gives none. -/
def given? {α : Type} (decode : Json → Option α) (group key : String) (j : Json) : Option α :=
  if wellFormed j then (j.member? group key).bind decode else none

/-! ## Shapes -/

lemma isSome_text? (v : Json) : (text? v).isSome = Shape.text.admits v := by
  cases v <;> rfl

lemma isSome_bool? (v : Json) : (bool? v).isSome = Shape.truth.admits v := by
  cases v <;> rfl

lemma isSome_texts? (v : Json) : (texts? v).isSome = Shape.texts.admits v := by
  cases v with
  | arr items =>
    simp only [texts?, Shape.admits]
    induction items with
    | nil => rfl
    | cons item items ih =>
      rw [List.mapM_cons, List.all_cons, ← ih]
      cases item with
      | str s => cases items.mapM text? <;> simp [text?]
      | _ => rfl
  | _ => rfl

lemma isSome_delay? (v : Json) : (delay? v).isSome = Shape.delay.admits v := by
  cases v with
  | int n =>
    simp only [delay?, Shape.admits]
    split <;> simp_all
  | _ => rfl

lemma isSome_ofName? (name : Text) :
    (LogLevel.ofName? name).isSome = LogLevel.named.any (·.1 == name) := by
  rw [LogLevel.ofName?, Option.isSome_map, List.isSome_find?]

lemma isSome_level?_obj (name : Text) (value : Json) (others : List (Text × Json)) :
    (level? (.obj ((name, value) :: others))).isSome =
      ((LogLevel.ofName? name).isSome && (others.all (·.1 == name) &&
        ((Json.obj ((name, value) :: others)).get? name).any (·.isNull))) := by
  simp only [level?]
  cases others.all (·.1 == name) with
  | false => simp
  | true =>
    cases (Json.obj ((name, value) :: others)).get? name with
    | none => simp
    | some v => cases v <;> simp [Json.isNull]

/-- A name that all keys agree with is the first key. -/
lemma admits_level_obj (name : Text) (value : Json) (others : List (Text × Json)) :
    Shape.level.admits (.obj ((name, value) :: others)) =
      (LogLevel.named.any (·.1 == name) && (others.all (·.1 == name) &&
        ((Json.obj ((name, value) :: others)).get? name).any (·.isNull))) := by
  rw [List.and_any_distrib_right, Shape.admits]
  congr 1
  funext known
  by_cases h : known.1 = name
  · simp [h]
  · rw [List.all_cons, beq_eq_false_iff_ne.mpr h, beq_eq_false_iff_ne.mpr (Ne.symm h)]
    rfl

lemma isSome_level? (v : Json) : (level? v).isSome = Shape.level.admits v := by
  cases v with
  | str name => exact isSome_ofName? name
  | obj members =>
    cases members with
    | nil => decide
    | cons first others =>
      obtain ⟨name, value⟩ := first
      rw [isSome_level?_obj, admits_level_obj, isSome_ofName?]
  | _ => rfl

/-! ## What an overlay gives -/

/-- The settings that the members of an overlay stand for. -/
def ofMembers (j : Json) : SettingsPatch where
  java := (j.member? "assembler" "javaPath").bind text?
  jar := (j.member? "assembler" "jarPath").bind text?
  extraArguments := (j.member? "assembler" "extraArgs").bind texts?
  onType := (j.member? "diagnostics" "onType").bind bool?
  onSave := (j.member? "diagnostics" "onSave").bind bool?
  delay := (j.member? "diagnostics" "debounceMs").bind delay?
  level := (j.member? "logging" "level").bind level?

/-- The group that is read, an empty one where there is none. -/
def groupOf (j : Json) (group : String) : Json :=
  match j.at? group with
  | some (.obj members) => .obj members
  | _ => .obj []

lemma at?_groupOf (j : Json) (group key : String) :
    (groupOf j group).at? key = j.member? group key := by
  unfold groupOf Json.member?
  cases j.at? group with
  | none => rfl
  | some v => cases v <;> rfl

lemma group?_eq_some_iff {j o : Json} {group : String} :
    group? j group = some o ↔
      ((j.at? group).all fun v => v.isNull || v.isObject) = true ∧ groupOf j group = o := by
  unfold group? groupOf
  cases j.at? group with
  | none => simp
  | some v => cases v <;> simp [Json.isNull, Json.isObject]

lemma field_eq_some_iff {α : Type} {decode : Json → Option α} {shape : Shape}
    (hshape : ∀ v, (decode v).isSome = shape.admits v) (hnull : decode .null = none)
    {o : Json} {key : String} {x : Option α} :
    field decode o key = some x ↔
      ((o.at? key).all fun v => v.isNull || shape.admits v) = true ∧
        (o.at? key).bind decode = x := by
  unfold field
  cases o.at? key with
  | none => simp
  | some v =>
    have hsome : (decode v).isSome = shape.admits v := hshape v
    cases v with
    | null => simp [Json.isNull, hnull]
    | _ =>
      simp only [Option.all_some, Json.isNull, Bool.false_or, Option.bind_some, ← hsome]
      cases decode _ <;> simp

/-- An overlay is read exactly when it is well formed, and then it gives what its members stand
for. -/
theorem ofJson?_eq_some_iff {j : Json} {p : SettingsPatch} :
    ofJson? j = some p ↔ wellFormed j = true ∧ ofMembers j = p := by
  cases j with
  | obj ms =>
    -- one step of the reader after the other: each asks for a shape and hands on a value
    simp only [ofJson?, Option.bind_eq_bind, Option.pure_def, Option.bind_eq_some_iff,
      group?_eq_some_iff, field_eq_some_iff isSome_text? rfl, field_eq_some_iff isSome_texts? rfl,
      field_eq_some_iff isSome_bool? rfl, field_eq_some_iff isSome_delay? rfl,
      field_eq_some_iff isSome_level? rfl, and_assoc, exists_and_left, exists_eq_left',
      at?_groupOf, Option.some.injEq]
    simp only [wellFormed, groups, members, List.all_cons, List.all_nil, Bool.and_true,
      Bool.and_eq_true, and_assoc, Json.isObject, true_and, ofMembers]
  | _ => simp [ofJson?, wellFormed, Json.isObject]

/-- The settings that an overlay gives. -/
def contribution (j : Json) : SettingsPatch := if wellFormed j then ofMembers j else {}

/-- The settings of a patch and, where it gives none, those of another. -/
def backedBy (p q : SettingsPatch) : SettingsPatch where
  java := p.java <|> q.java
  jar := p.jar <|> q.jar
  extraArguments := p.extraArguments <|> q.extraArguments
  onType := p.onType <|> q.onType
  onSave := p.onSave <|> q.onSave
  delay := p.delay <|> q.delay
  level := p.level <|> q.level

end SettingsPatch

namespace Settings

open SettingsPatch

/-- The value that a payload gives for a member: that of its section, else that of the bare
payload. -/
def chosen? {α : Type} (decode : Json → Option α) (group key : String) (payload : Json) :
    Option α :=
  (payload.at? sectionKey).bind (given? decode group key) <|> given? decode group key payload

/-- The settings with the values that a payload gives, in normal form, in their places. -/
def overlaid (s : Settings) (payload : Json) : Settings where
  assembler :=
    { java := (chosen? text? "assembler" "javaPath" payload).elim s.assembler.java fun t =>
        (trimmed? t).getD "java".toList
      jar := (chosen? text? "assembler" "jarPath" payload).elim s.assembler.jar trimmed?
      extraArguments := (chosen? texts? "assembler" "extraArgs" payload).elim
        s.assembler.extraArguments (·.filterMap trimmed?) }
  onType := (chosen? bool? "diagnostics" "onType" payload).getD s.onType
  onSave := (chosen? bool? "diagnostics" "onSave" payload).getD s.onSave
  delay := (chosen? delay? "diagnostics" "debounceMs" payload).elim s.delay fun n =>
    max 50 (min n 5000)
  level := (chosen? level? "logging" "level" payload).getD s.level

/-! ## Two overlays are one -/

lemma overlay_empty (s : Settings) : s.overlay {} = s := rfl

lemma overlay_overlay (s : Settings) (p q : SettingsPatch) :
    (s.overlay q).overlay p = s.overlay (p.backedBy q) := by
  have hgetD : ∀ {α : Type} (a b : Option α) (c : α), a.getD (b.getD c) = (a <|> b).getD c := by
    intro α a b c
    cases a <;> rfl
  have horElse : ∀ a b c : Option Text, (a <|> (b <|> c)) = ((a <|> b) <|> c) := by
    intro a b c
    cases a <;> rfl
  simp only [overlay, backedBy, hgetD, horElse]

/-- A candidate that is not well formed contributes nothing. -/
theorem applyCandidate_eq (s : Settings) (j : Json) :
    s.applyCandidate j = s.overlay (contribution j) := by
  unfold applyCandidate
  cases hread : ofJson? j with
  | none =>
    have hshape : ¬ wellFormed j = true := by
      intro hshape
      cases hread.symm.trans (ofJson?_eq_some_iff.mpr ⟨hshape, rfl⟩)
    rw [contribution, if_neg hshape, overlay_empty]
  | some p =>
    obtain ⟨hshape, rfl⟩ := ofJson?_eq_some_iff.mp hread
    rw [contribution, if_pos hshape]

/-- The settings that a payload gives. -/
def ofPayload (payload : Json) : SettingsPatch where
  java := chosen? text? "assembler" "javaPath" payload
  jar := chosen? text? "assembler" "jarPath" payload
  extraArguments := chosen? texts? "assembler" "extraArgs" payload
  onType := chosen? bool? "diagnostics" "onType" payload
  onSave := chosen? bool? "diagnostics" "onSave" payload
  delay := chosen? delay? "diagnostics" "debounceMs" payload
  level := chosen? level? "logging" "level" payload

theorem merge_eq (s : Settings) (payload : Json) :
    s.merge payload = (s.overlay (ofPayload payload)).normalise := by
  unfold merge candidates
  cases hsection : payload.at? sectionKey with
  | none =>
    have hpatch : ofPayload payload = contribution payload := by
      simp only [ofPayload, chosen?, hsection, given?, contribution]
      split <;> rfl
    rw [hpatch, ← applyCandidate_eq]
    rfl
  | some j =>
    have hpatch : ofPayload payload = (contribution j).backedBy (contribution payload) := by
      simp only [ofPayload, chosen?, hsection, Option.bind_some, given?, contribution]
      split <;> split <;> rfl
    rw [hpatch, ← overlay_overlay, ← applyCandidate_eq, ← applyCandidate_eq]
    rfl

/-! ## Normal form -/

/-- No blanks stand around texts, no text is empty, and the delay lies within its bounds. -/
structure Normal (s : Settings) : Prop where
  java : s.assembler.java ≠ [] ∧ Text.Trimmed s.assembler.java
  jar : ∀ t ∈ s.assembler.jar, t ≠ [] ∧ Text.Trimmed t
  extraArguments : ∀ t ∈ s.assembler.extraArguments, t ≠ [] ∧ Text.Trimmed t
  delay : 50 ≤ s.delay ∧ s.delay ≤ 5000

lemma normal_of_trimmed? {t u : Text} (h : trimmed? t = some u) : u ≠ [] ∧ Text.Trimmed u := by
  unfold trimmed? at h
  dsimp only at h
  split at h
  · cases h
  · rename_i hne
    cases h
    exact ⟨by simpa using hne, Text.trimmed_trim t⟩

lemma trimmed?_eq_self {t : Text} (h : t ≠ [] ∧ Text.Trimmed t) : trimmed? t = some t := by
  have hne : t.isEmpty = false := by simpa using h.1
  simp [trimmed?, Text.trim_eq_self h.2, hne]

lemma normal_java : "java".toList ≠ [] ∧ Text.Trimmed "java".toList := by
  have hletters : ("java".toList.all fun c => !Text.isSpace c) = true := by decide
  refine ⟨by decide, Text.trimmed_of_forall fun c hc => ?_⟩
  simpa using List.all_eq_true.mp hletters c hc

theorem normalise_normal (s : Settings) : s.normalise.Normal where
  java := by
    simp only [normalise]
    cases h : trimmed? s.assembler.java with
    | none => exact normal_java
    | some t => exact normal_of_trimmed? h
  jar := by
    intro t ht
    obtain ⟨u, _, hu⟩ := Option.bind_eq_some_iff.mp ht
    exact normal_of_trimmed? hu
  extraArguments := by
    intro t ht
    obtain ⟨u, _, hu⟩ := List.mem_filterMap.mp ht
    exact normal_of_trimmed? hu
  delay := by
    simp only [normalise, leastDelay, greatestDelay]
    omega

/-- On settings in normal form a payload changes the settings that it gives and no others. -/
theorem Normal.merge_eq_overlaid {s : Settings} (h : s.Normal) (payload : Json) :
    s.merge payload = s.overlaid payload := by
  have hjava : ∀ o : Option Text, (trimmed? (o.getD s.assembler.java)).getD "java".toList =
      o.elim s.assembler.java fun t => (trimmed? t).getD "java".toList := by
    intro o
    cases o with
    | none => rw [Option.getD_none, trimmed?_eq_self h.java, Option.getD_some, Option.elim_none]
    | some t => rfl
  have hjar : ∀ o : Option Text,
      (o <|> s.assembler.jar).bind trimmed? = o.elim s.assembler.jar trimmed? := by
    intro o
    cases o with
    | none =>
      cases hj : s.assembler.jar with
      | none => rfl
      | some t => exact trimmed?_eq_self (h.jar t hj)
    | some t => rfl
  have harguments : ∀ o : Option (List Text),
      (o.getD s.assembler.extraArguments).filterMap trimmed? =
        o.elim s.assembler.extraArguments (·.filterMap trimmed?) := by
    intro o
    cases o with
    | none =>
      calc s.assembler.extraArguments.filterMap trimmed?
          _ = s.assembler.extraArguments.filterMap some :=
            List.filterMap_congr fun t ht => trimmed?_eq_self (h.extraArguments t ht)
          _ = s.assembler.extraArguments := List.filterMap_some
    | some ts => rfl
  have hdelay : ∀ o : Option Nat, max leastDelay (min (o.getD s.delay) greatestDelay) =
      o.elim s.delay fun n => max 50 (min n 5000) := by
    intro o
    cases o with
    | none =>
      have := h.delay
      simp only [leastDelay, greatestDelay, Option.getD_none, Option.elim_none]
      omega
    | some n => rfl
  rw [merge_eq]
  simp only [overlay, ofPayload, normalise, overlaid, hjava, hjar, harguments, hdelay]

theorem overlaid_overlaid (s : Settings) (payload : Json) :
    (s.overlaid payload).overlaid payload = s.overlaid payload := by
  have helim : ∀ {α β : Type} (o : Option α) (b : β) (f : α → β),
      o.elim (o.elim b f) f = o.elim b f := by
    intro α β o b f
    cases o <;> rfl
  have hgetD : ∀ {α : Type} (o : Option α) (b : α), o.getD (o.getD b) = o.getD b := by
    intro α o b
    cases o <;> rfl
  simp only [overlaid, helim, hgetD]

/-- The settings that can come about: the initial ones, and those after a payload of the editor or
the text of a settings file. -/
inductive Reachable : Settings → Prop
  | initial : Reachable {}
  | merge {s : Settings} (payload : Json) : Reachable s → Reachable (s.merge payload)
  | mergeFile {s : Settings} (text : Text) : Reachable s → Reachable (s.mergeFile text)

theorem Reachable.normal {s : Settings} (h : Reachable s) : s.Normal := by
  induction h with
  | initial => exact ⟨normal_java, by simp, by simp, by decide⟩
  | merge payload _ _ => exact normalise_normal _
  | mergeFile text _ ih =>
    unfold Settings.mergeFile
    split
    · exact normalise_normal _
    · exact ih

/-- Settings are a normalised overlay. Those that can come about are in normal form; a payload puts
the values that it gives, in normal form, into their places and leaves all else; an overlay that is
not well formed changes nothing; and merging a payload again changes nothing. -/
theorem merge_overlays {s : Settings} (h : Reachable s) :
    s.Normal ∧
    (∀ payload, s.merge payload = s.overlaid payload) ∧
    (∀ j, wellFormed j = false → s.applyCandidate j = s) ∧
    ∀ payload, (s.merge payload).merge payload = s.merge payload := by
  refine ⟨h.normal, h.normal.merge_eq_overlaid, ?_, ?_⟩
  · intro j hshape
    rw [applyCandidate_eq, contribution, hshape]
    exact overlay_empty s
  · intro payload
    have hagain := (h.merge payload).normal.merge_eq_overlaid payload
    rw [hagain, h.normal.merge_eq_overlaid, overlaid_overlaid]

/-- A section with a blank archive beside bare settings. -/
def sectioned : Json := .record [
  ("assembler", .record [("javaPath", .string " jdk "), ("jarPath", .string "k.jar")]),
  ("diagnostics", .record [("debounceMs", .nat 9), ("onType", .bool false)]),
  ("kickass-analyzer", .record [
    ("assembler", .record [("jarPath", .string "  "),
      ("extraArgs", .arr [.string " -v ", .string ""])]),
    ("diagnostics", .record [("debounceMs", .nat 99999), ("onType", .null)])])]

/-- Settings with a level that is no level. -/
def misspelt : Json := .record [
  ("assembler", .record [("javaPath", .string "jre")]),
  ("logging", .record [("level", .string "loud")])]

theorem merge_overlays_sectioned :
    let s := ({} : Settings).mergeFile "[logging]\nlevel = \"debug\"\n".toList
    Reachable s ∧
    s.merge sectioned = s.overlaid sectioned ∧
    s.overlaid sectioned =
      { assembler := { java := "jdk".toList, jar := none, extraArguments := ["-v".toList] }
        onType := false, onSave := true, delay := 5000, level := .debug } ∧
    wellFormed misspelt = false ∧ s.applyCandidate misspelt = s ∧
    (s.merge sectioned).merge sectioned = s.merge sectioned := by
  intro s
  have hs : Reachable s := .mergeFile _ .initial
  have h := merge_overlays hs
  have hshape : wellFormed misspelt = false := by decide +kernel
  exact ⟨hs, h.2.1 sectioned, by decide +kernel, hshape, h.2.2.1 misspelt hshape,
    h.2.2.2 sectioned⟩

end Settings

end AsmLens
