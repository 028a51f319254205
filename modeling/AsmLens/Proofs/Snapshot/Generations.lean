import AsmLens.Snapshot.Store
import Mathlib.Data.Set.Function

/-!
# Generations of one buffer

A history is a sequence of calls on the store together with the generations it handed out and the
snapshots it accepted. The calls may concern any number of buffers and come in any order; the only
rule is that a snapshot to commit carries a generation handed out for its buffer before.

Each record has a floor, the larger of the generation at its last closing and the generation of its
snapshot. A snapshot is accepted when it lies above the floor, no call lowers the floor, and what
was accepted before lies at or below it. That digests of different buffers differ is used only to
keep the buffers apart.
-/

namespace AsmLens

namespace ProjectRecord

/-- The generation at the last closing, zero for a buffer that was never closed. -/
def closing (r : ProjectRecord) : Nat := r.closedAt.getD 0

/-- The generation at or below which nothing is accepted any more. -/
def floor (r : ProjectRecord) : Nat :=
  max r.closing ((r.snapshot.map Snapshot.generation).getD 0)

/-- What holds of every record that calls can lead to. -/
structure Sound (r : ProjectRecord) : Prop where
  floor_le : r.floor ≤ r.generation
  closing_lt : ∀ x ∈ r.snapshot, r.closing < x.generation

theorem accepts_iff (r : ProjectRecord) {generation : Nat} (hpos : 0 < generation) :
    r.accepts generation = true ↔ r.floor < generation := by
  rw [floor, closing, Nat.max_lt, accepts, Bool.and_eq_true]
  apply and_congr
  · cases r.closedAt with
    | none => simpa using hpos
    | some closed => simp
  · cases r.snapshot with
    | none => simpa using hpos
    | some current => simp

lemma floor_close (r : ProjectRecord) : r.close.floor = r.generation := by
  simp [close, floor, closing]

lemma generation_le_floor {r : ProjectRecord} {x : Snapshot} (h : r.snapshot = some x) :
    x.generation ≤ r.floor := by
  rw [floor, h]
  exact Nat.le_max_right _ _

lemma sound_blank : Sound {} := ⟨Nat.le_refl 0, fun _ h => by cases h⟩

lemma Sound.start {r : ProjectRecord} (h : r.Sound) : r.start.Sound where
  floor_le := Nat.le_succ_of_le h.floor_le
  closing_lt := h.closing_lt

lemma Sound.close {r : ProjectRecord} : r.close.Sound where
  floor_le := Nat.le_of_eq (floor_close r)
  closing_lt := fun _ h => by cases h

/-- Storing an accepted snapshot raises the floor to its generation. -/
lemma floor_store {r : ProjectRecord} {x : Snapshot} (h : r.floor < x.generation) :
    floor { r with snapshot := some x } = x.generation := by
  have hclosing : r.closing ≤ r.floor := Nat.le_max_left _ _
  have hle : r.closing ≤ x.generation := by omega
  exact Nat.max_eq_right hle

lemma Sound.store {r : ProjectRecord} {x : Snapshot} (h : r.floor < x.generation)
    (hle : x.generation ≤ r.generation) : Sound { r with snapshot := some x } where
  floor_le := (floor_store h).symm ▸ hle
  closing_lt := by
    intro y hy
    cases hy
    exact Nat.lt_of_le_of_lt (Nat.le_max_left _ _) h

/-- What one call can do to a record. -/
inductive Step (r : ProjectRecord) : ProjectRecord → Prop
  | same : Step r r
  | start : Step r r.start
  | close : Step r r.close
  | store {x : Snapshot} (above : r.floor < x.generation) (issued : x.generation ≤ r.generation) :
      Step r { r with snapshot := some x }

theorem Step.sound {r r' : ProjectRecord} (h : Step r r') (hr : r.Sound) : r'.Sound := by
  cases h with
  | same => exact hr
  | start => exact hr.start
  | close => exact Sound.close
  | store above issued => exact Sound.store above issued

theorem Step.generation_le {r r' : ProjectRecord} (h : Step r r') :
    r.generation ≤ r'.generation := by
  cases h with
  | same => exact Nat.le_refl _
  | start => exact Nat.le_succ _
  | close => exact Nat.le_refl _
  | store above issued => exact Nat.le_refl _

/-- No call lowers the floor, closing included. -/
theorem Step.floor_le {r r' : ProjectRecord} (h : Step r r') (hr : r.Sound) :
    r.floor ≤ r'.floor := by
  cases h with
  | same => exact Nat.le_refl _
  | start => exact Nat.le_refl _
  | close => exact (floor_close r).symm ▸ hr.floor_le
  | store above issued => exact (floor_store above).symm ▸ Nat.le_of_lt above

theorem Step.closing_le {r r' : ProjectRecord} (h : Step r r') (hr : r.Sound) :
    r.closing ≤ r'.closing := by
  cases h with
  | same => exact Nat.le_refl _
  | start => exact Nat.le_refl _
  | close => exact Nat.le_trans (Nat.le_max_left _ _) hr.floor_le
  | store above issued => exact Nat.le_refl _

end ProjectRecord

namespace Projects

@[simp] theorem record_put_self (s : Projects) (id : ProjectId) (r : ProjectRecord) :
    (s.put id r).record id = r := by
  simp [put, record]

theorem record_put_of_ne (s : Projects) {id other : ProjectId} (h : other ≠ id)
    (r : ProjectRecord) : (s.put id r).record other = s.record other := by
  have hfind : (s.records.filter (·.1 != id)).find? (·.1 == other) =
      s.records.find? (·.1 == other) := by
    rw [List.find?_filter]
    congr 1
    funext p
    by_cases hp : p.1 = other
    · simp [hp, h]
    · simp [hp]
  have hne : (id == other) = false := by simpa using fun e => h e.symm
  simp only [put, record, List.find?_cons, hne, hfind]

/-- The generation at the last closing of a buffer, zero when it was never closed. -/
def closing (s : Projects) (uri : Uri) : Nat := (s.record (ProjectId.ofUri uri)).closing

lemma closing_remove (s : Projects) (uri : Uri) : (s.remove uri).closing uri = s.latest uri := by
  simp [closing, remove, latest, ProjectRecord.close, ProjectRecord.closing]

/-- A call that changes the store. -/
inductive Call
  | begin (uri : Uri)
  | commit (snapshot : Snapshot)
  | remove (uri : Uri)

/-- The buffer that a call is about. -/
def Call.uri : Call → Uri
  | .begin uri => uri
  | .commit snapshot => snapshot.uri
  | .remove uri => uri

/-- A store with the generations it has handed out and the snapshots it has accepted, in order. -/
structure History where
  store : Projects := {}
  issued : List (Uri × Nat) := []
  accepted : List Snapshot := []

namespace History

/-- A snapshot may be offered when its generation was handed out for its buffer. -/
def Allows (h : History) : Call → Prop
  | .commit snapshot => (snapshot.uri, snapshot.generation) ∈ h.issued
  | _ => True

def step (h : History) : Call → History
  | .begin uri =>
    { h with
      store := (h.store.begin uri).2
      issued := h.issued ++ [(uri, (h.store.begin uri).1)] }
  | .commit snapshot =>
    { h with
      store := h.store.commit snapshot
      accepted := h.accepted ++ if (h.store.commit? snapshot).isSome then [snapshot] else [] }
  | .remove uri => { h with store := h.store.remove uri }

/-- The history behind a sequence of calls. -/
def run (h : History) (calls : List Call) : History := calls.foldl step h

/-- Every call of a sequence is allowed where it stands. -/
def Legal (h : History) : List Call → Prop
  | [] => True
  | c :: calls => h.Allows c ∧ (h.step c).Legal calls

instance (h : History) (c : Call) : Decidable (h.Allows c) :=
  match c with
  | .begin _ => isTrue trivial
  | .commit snapshot =>
    inferInstanceAs (Decidable ((snapshot.uri, snapshot.generation) ∈ h.issued))
  | .remove _ => isTrue trivial

instance decidableLegal (h : History) : (calls : List Call) → Decidable (h.Legal calls)
  | [] => isTrue trivial
  | c :: calls =>
    have := decidableLegal (h.step c) calls
    inferInstanceAs (Decidable (_ ∧ _))

/-- What holds of every history. -/
structure Sound (h : History) : Prop where
  record : ∀ id, (h.store.record id).Sound
  issued_pos : ∀ p ∈ h.issued, 0 < p.2
  issued_le : ∀ p ∈ h.issued, p.2 ≤ h.store.latest p.1
  accepted_le : ∀ x ∈ h.accepted, x.generation ≤ (h.store.record x.id).floor
  increasing : ∀ uri,
    ((h.accepted.filter (·.uri = uri)).map Snapshot.generation).Pairwise (· < ·)

theorem sound_start : Sound {} where
  record := fun _ => ProjectRecord.sound_blank
  issued_pos := fun _ h => by cases h
  issued_le := fun _ h => by cases h
  accepted_le := fun _ h => by cases h
  increasing := fun _ => List.Pairwise.nil

end History

theorem commit?_eq_some {s t : Projects} {x : Snapshot} (h : s.commit? x = some t) :
    (s.record x.id).accepts x.generation = true ∧
      t = s.put x.id { s.record x.id with snapshot := some x } := by
  unfold commit? at h
  dsimp only at h
  split at h
  · rename_i hacc
    exact ⟨hacc, (Option.some.inj h).symm⟩
  · cases h

/-- A refused commit changes nothing. -/
theorem commit_eq_self {s : Projects} {x : Snapshot} (h : s.commit? x = none) :
    s.commit x = s := by
  rw [commit, h, Option.getD_none]

namespace History

/-- A call leaves the records of all other projects as they are. -/
theorem record_step_of_ne (h : History) (c : Call) {id : ProjectId}
    (hne : id ≠ ProjectId.ofUri c.uri) :
    (h.step c).store.record id = h.store.record id := by
  cases c with
  | begin uri => exact record_put_of_ne _ hne _
  | remove uri => exact record_put_of_ne _ hne _
  | commit x =>
    cases hx : h.store.commit? x with
    | none => simp only [step, commit_eq_self hx]
    | some t =>
      obtain ⟨_, rfl⟩ := commit?_eq_some hx
      simp only [step, commit, hx, Option.getD_some]
      exact record_put_of_ne _ hne _

/-- An accepted snapshot lies above the floor of its record. -/
lemma floor_lt_of_commit? {h : History} (hs : h.Sound) {x : Snapshot}
    (hx : h.Allows (.commit x)) {t : Projects} (ht : h.store.commit? x = some t) :
    (h.store.record x.id).floor < x.generation :=
  (ProjectRecord.accepts_iff _ (hs.issued_pos _ hx)).mp (commit?_eq_some ht).1

/-- Every allowed call does to every record one of the things a call can do. -/
theorem record_step {h : History} (hs : h.Sound) {c : Call} (hc : h.Allows c)
    (id : ProjectId) : (h.store.record id).Step ((h.step c).store.record id) := by
  by_cases hid : id = ProjectId.ofUri c.uri
  · subst hid
    cases c with
    | begin uri =>
      have hrec : (step h (.begin uri)).store.record (ProjectId.ofUri uri) =
          (h.store.record (ProjectId.ofUri uri)).start := record_put_self _ _ _
      rw [Call.uri, hrec]
      exact .start
    | remove uri =>
      have hrec : (step h (.remove uri)).store.record (ProjectId.ofUri uri) =
          (h.store.record (ProjectId.ofUri uri)).close := record_put_self _ _ _
      rw [Call.uri, hrec]
      exact .close
    | commit x =>
      cases hx : h.store.commit? x with
      | none =>
        simp only [step, commit_eq_self hx]
        exact .same
      | some t =>
        have above := floor_lt_of_commit? hs hc hx
        have hrec : (step h (.commit x)).store.record x.id =
            { h.store.record x.id with snapshot := some x } := by
          simp only [step, commit, hx, Option.getD_some, (commit?_eq_some hx).2, record_put_self]
        change (h.store.record x.id).Step ((step h (.commit x)).store.record x.id)
        rw [hrec]
        exact .store above (hs.issued_le _ hc)
  · rw [record_step_of_ne h c hid]
    exact .same

lemma issued_step {h : History} (hs : h.Sound) {c : Call} (hc : h.Allows c) :
    ∀ p ∈ (h.step c).issued, 0 < p.2 ∧ p.2 ≤ (h.step c).store.latest p.1 := by
  have old : ∀ p ∈ h.issued, 0 < p.2 ∧ p.2 ≤ (h.step c).store.latest p.1 := fun p hp =>
    ⟨hs.issued_pos p hp, Nat.le_trans (hs.issued_le p hp) (record_step hs hc _).generation_le⟩
  cases c with
  | commit x => exact old
  | remove uri => exact old
  | begin uri =>
    intro p hp
    rcases List.mem_append.mp hp with hp | hp
    · exact old p hp
    · have hp := List.mem_singleton.mp hp
      subst hp
      refine ⟨Nat.succ_pos _, Nat.le_of_eq ?_⟩
      simp [step, begin, latest]

/-- The snapshots accepted behind a call: one more only for a commit above the floor. -/
lemma accepted_step {h : History} (hs : h.Sound) {c : Call} (hc : h.Allows c) :
    (h.step c).accepted = h.accepted ∨
      ∃ x, (h.step c).accepted = h.accepted ++ [x] ∧
        (h.store.record x.id).floor < x.generation ∧
        x.generation ≤ ((h.step c).store.record x.id).floor := by
  cases c with
  | begin uri => exact Or.inl rfl
  | remove uri => exact Or.inl rfl
  | commit x =>
    cases hx : h.store.commit? x with
    | none => exact Or.inl (by simp [step, hx])
    | some t =>
      have above := floor_lt_of_commit? hs hc hx
      refine Or.inr ⟨x, by simp [step, hx], above, Nat.le_of_eq ?_⟩
      simp only [step, commit, hx, Option.getD_some, (commit?_eq_some hx).2, record_put_self,
        ProjectRecord.floor_store above]

theorem Sound.step {h : History} (hs : h.Sound) {c : Call} (hc : h.Allows c) :
    (h.step c).Sound := by
  have floor_le := fun id => (record_step hs hc id).floor_le (hs.record id)
  refine ⟨fun id => (record_step hs hc id).sound (hs.record id),
    fun p hp => (issued_step hs hc p hp).1, fun p hp => (issued_step hs hc p hp).2, ?_, ?_⟩
  · intro y hy
    rcases accepted_step hs hc with heq | ⟨x, heq, above, reached⟩
    · rw [heq] at hy
      exact Nat.le_trans (hs.accepted_le y hy) (floor_le _)
    · rw [heq] at hy
      rcases List.mem_append.mp hy with hy | hy
      · exact Nat.le_trans (hs.accepted_le y hy) (floor_le _)
      · rw [List.mem_singleton.mp hy]
        exact reached
  · intro uri
    rcases accepted_step hs hc with heq | ⟨x, heq, above, reached⟩
    · rw [heq]
      exact hs.increasing uri
    · rw [heq, List.filter_append, List.map_append, List.pairwise_append]
      refine ⟨hs.increasing uri, ?_, ?_⟩
      · by_cases hx : x.uri = uri <;> simp [hx]
      · intro g hg g' hg'
        obtain ⟨y, hy, rfl⟩ := List.mem_map.mp hg
        obtain ⟨z, hz, rfl⟩ := List.mem_map.mp hg'
        obtain ⟨hyin, hyuri⟩ := List.mem_filter.mp hy
        obtain ⟨hzin, hzuri⟩ := List.mem_filter.mp hz
        have hzx : z = x := List.mem_singleton.mp hzin
        subst hzx
        have hid : y.id = z.id := by
          rw [Snapshot.id, Snapshot.id, of_decide_eq_true hyuri, of_decide_eq_true hzuri]
        have hfloor := hs.accepted_le y hyin
        rw [hid] at hfloor
        exact Nat.lt_of_le_of_lt hfloor above

/-- Every legal run from a sound history ends in a sound history, and no generation at a closing
is taken back on the way. -/
theorem sound_run {h : History} (hs : h.Sound) {calls : List Call} (legal : h.Legal calls) :
    (h.run calls).Sound ∧
      ∀ uri, h.store.closing uri ≤ (h.run calls).store.closing uri := by
  induction calls generalizing h with
  | nil => exact ⟨hs, fun _ => Nat.le_refl _⟩
  | cons c calls ih =>
    obtain ⟨hc, rest⟩ := legal
    obtain ⟨sound, closing⟩ := ih (hs.step hc) rest
    refine ⟨sound, fun uri => Nat.le_trans ?_ (closing uri)⟩
    exact (record_step hs hc _).closing_le (hs.record _)

lemma legal_append {h : History} {first second : List Call} :
    h.Legal (first ++ second) ↔ h.Legal first ∧ (h.run first).Legal second := by
  induction first generalizing h with
  | nil => simp [Legal, run]
  | cons c first ih =>
    simp only [List.cons_append, Legal, ih, and_assoc]
    rfl

lemma run_append (h : History) (first second : List Call) :
    h.run (first ++ second) = (h.run first).run second := List.foldl_append

end History

/-- A call on one buffer leaves what the store says about another as it was. -/
lemma History.step_other {used : Set Uri} (inj : Set.InjOn ProjectId.ofUri used) (h : History)
    {c : Call} (hc : c.uri ∈ used) {uri : Uri} (huri : uri ∈ used) (hne : uri ≠ c.uri) :
    (h.step c).store.record (ProjectId.ofUri uri) =
      h.store.record (ProjectId.ofUri uri) :=
  h.record_step_of_ne c fun e => hne (inj huri hc e)

/-- Generations are safe. Behind any legal sequence of calls the snapshots accepted for one buffer
have increasing generations; what is visible of a buffer was started after its last closing and is
not newer than the generation handed out last, so nothing handed out before a closing is visible
behind it; a refused commit changes nothing; and a call on one buffer changes nothing that the store
says about another. -/
theorem generations_safe (used : Set Uri) (inj : Set.InjOn ProjectId.ofUri used)
    (calls : List Call) (legal : History.Legal {} calls) :
    let h := History.run {} calls
    (∀ uri, ((h.accepted.filter (·.uri = uri)).map Snapshot.generation).Pairwise (· < ·)) ∧
    (∀ uri x, h.store.get? uri = some x →
      h.store.closing uri < x.generation ∧ x.generation ≤ h.store.latest uri) ∧
    (∀ before after uri, calls = before ++ .remove uri :: after →
      ∀ g, (uri, g) ∈ (History.run {} before).issued →
        ∀ x, h.store.get? uri = some x → g < x.generation) ∧
    (∀ x, h.store.commit? x = none → h.store.commit x = h.store) ∧
    (∀ c : Call, c.uri ∈ used → ∀ uri ∈ used, uri ≠ c.uri →
      (h.step c).store.get? uri = h.store.get? uri ∧
      (h.step c).store.latest uri = h.store.latest uri ∧
      ∀ g, (h.step c).store.isLatest uri g = h.store.isLatest uri g) := by
  intro h
  have hs : h.Sound := (History.sound_run History.sound_start legal).1
  have visible : ∀ uri x, h.store.get? uri = some x →
      h.store.closing uri < x.generation ∧ x.generation ≤ h.store.latest uri := by
    intro uri x hx
    have hr := hs.record (ProjectId.ofUri uri)
    exact ⟨hr.closing_lt x hx,
      Nat.le_trans (ProjectRecord.generation_le_floor hx) hr.floor_le⟩
  refine ⟨hs.increasing, visible, ?_, fun x hx => commit_eq_self hx, ?_⟩
  · rintro before after uri rfl g hg x hx
    obtain ⟨legalBefore, _, legalAfter⟩ := History.legal_append.mp legal
    have sound := (History.sound_run History.sound_start legalBefore).1
    have removed := sound.step (c := .remove uri) trivial
    have kept := (History.sound_run removed legalAfter).2 uri
    calc g ≤ (History.run {} before).store.latest uri := sound.issued_le _ hg
      _ = ((History.run {} before).step (.remove uri)).store.closing uri :=
        (closing_remove _ uri).symm
      _ ≤ h.store.closing uri := by
        rw [show h = _ from History.run_append _ before _]
        exact kept
      _ < x.generation := (visible uri x hx).1
  · intro c hc uri huri hne
    have hrec := History.step_other inj h hc huri hne
    simp only [get?, latest, isLatest, hrec, and_self, implies_true]

/-- A file at the root of the local disk. -/
def rootFile (name : String) : Uri :=
  ⟨"file".toList, some {}, .rooted [name.toList], none, none⟩

/-- Two buffers are built side by side. The first one is closed with a rebuild in flight and opened
again, and the late snapshot is offered to the new session. -/
def reopening : List Call :=
  [.begin (rootFile "a"), .begin (rootFile "b"), .begin (rootFile "a"),
    .commit ⟨rootFile "a", 2, {}, [], .empty, none⟩, .begin (rootFile "a"),
    .remove (rootFile "a"), .begin (rootFile "a"), .commit ⟨rootFile "a", 3, {}, [], .empty, none⟩,
    .commit ⟨rootFile "b", 1, {}, [], .empty, none⟩,
    .commit ⟨rootFile "a", 4, {}, [], .empty, none⟩]

theorem generations_safe_reopening :
    let used : Set Uri := {rootFile "a", rootFile "b"}
    let h := History.run {} reopening
    Set.InjOn ProjectId.ofUri used ∧ History.Legal {} reopening ∧
    h.accepted.map Snapshot.generation = [2, 1, 4] ∧
    (h.store.get? (rootFile "a")).map Snapshot.generation = some 4 ∧
    (∀ uri, ((h.accepted.filter (·.uri = uri)).map Snapshot.generation).Pairwise (· < ·)) ∧
    ∀ uri x, h.store.get? uri = some x →
      h.store.closing uri < x.generation ∧ x.generation ≤ h.store.latest uri := by
  intro used h
  have different : ProjectId.ofUri (rootFile "a") ≠ ProjectId.ofUri (rootFile "b") := by
    decide +kernel
  have inj : Set.InjOn ProjectId.ofUri used := by
    rintro u (rfl | rfl) v (rfl | rfl) huv
    · rfl
    · exact absurd huv different
    · exact absurd huv.symm different
    · rfl
  have legal : History.Legal {} reopening := by decide +kernel
  have safe := generations_safe used inj reopening legal
  exact ⟨inj, legal, by decide +kernel, by decide +kernel, safe.1, safe.2.1⟩

end Projects

end AsmLens
