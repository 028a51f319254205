import AsmLens.Proofs.Snapshot.Generations
import AsmLens.Session.Rebuild
import Mathlib.Data.List.Nodup
import Mathlib.Order.Bounds.Basic

/-!
# Rebuilds of one buffer beside each other

While a buffer is open, its document states follow each other, and any number of rebuilds read it,
draw a generation, run and commit, one step at a time and in any order. The store decides by the
generations, so the snapshots that it accepts follow the order in which the generations were drawn,
and behind the last rebuild the one that drew last is committed. But a rebuild reads the buffer one
step before it draws. Another rebuild can read newer text and draw in between, and then the older
text has the later generation, replaces the newer text and stays.
-/

namespace AsmLens

/-- A rebuild with the number of the document state that it has read. -/
structure Course.Task where
  rebuild : Rebuild
  seen : Nat := 0

/-- What can happen around one open buffer. -/
inductive Course.Event where
  /-- The buffer is opened again or replaced. -/
  | opened (text : Text) (version : Int)
  | edited (edits : List Edit) (version : Int)
  /-- One more rebuild is on its way. -/
  | requested
  /-- A rebuild takes its next step. -/
  | advanced (task : Nat)

/-- The course of events around one open buffer: its document states, the rebuilds, the generations
drawn, each with the state that its rebuild has read, and the snapshots accepted, each with the
state that it was built from. -/
structure Course where
  workspace : Workspace
  states : List Buffer
  tasks : List Course.Task := []
  draws : List (Nat × Nat) := []
  commits : List (Nat × Snapshot) := []

namespace Course

/-- The course at the opening of a buffer. -/
def start (w : Workspace) (b : Buffer) : Course where
  workspace := { w with buffers := w.buffers.put b }
  states := [b]

/-- The course after a change of the buffer. -/
def change (uri : Uri) (c : Course) (buffers : Buffers) : Course :=
  { c with
    workspace := { c.workspace with buffers := buffers }
    states := c.states ++ (buffers.get? uri).toList }

/-- The document state that a rebuild has read behind its next step. -/
def sight (c : Course) (t : Task) : Nat :=
  match t.rebuild.stage with
  | .queued => c.states.length - 1
  | _ => t.seen

/-- What a rebuild draws in its next step. -/
def drawn (c : Course) (t : Task) : List (Nat × Nat) :=
  match t.rebuild.stage with
  | .fetched _ => [((c.workspace.projects.begin t.rebuild.uri).1, t.seen)]
  | _ => []

/-- What the store accepts from a rebuild in its next step. -/
def accepted (c : Course) (t : Task) : List (Nat × Snapshot) :=
  match t.rebuild.stage with
  | .rechecked _ x => if (c.workspace.projects.commit? x).isSome then [(t.seen, x)] else []
  | _ => []

/-- The course after the next step of the rebuild at index `i`. -/
def advance (around : Surroundings) (c : Course) (i : Nat) (t : Task) : Course :=
  let (w, stage, _) := t.rebuild.step around c.workspace
  { c with
    workspace := w
    tasks := c.tasks.set i ⟨{ t.rebuild with stage := stage }, c.sight t⟩
    draws := c.draws ++ c.drawn t
    commits := c.commits ++ c.accepted t }

def step (around : Surroundings) (uri : Uri) (c : Course) : Event → Course
  | .opened text version => c.change uri (c.workspace.buffers.setText uri text version)
  | .edited edits version =>
    match c.workspace.buffers.edit? uri edits version with
    | some buffers => c.change uri buffers
    | none => c
  | .requested => { c with tasks := c.tasks ++ [⟨{ uri }, 0⟩] }
  | .advanced i =>
    match c.tasks[i]? with
    | some t => c.advance around i t
    | none => c

def run (around : Surroundings) (uri : Uri) (c : Course) (events : List Event) : Course :=
  events.foldl (step around uri) c

end Course

def Stage.isFinished : Stage → Bool
  | .finished => true
  | _ => false

theorem Stage.eq_finished {s : Stage} (h : s.isFinished = true) : s = .finished := by
  cases s with
  | finished => rfl
  | _ => cases h

namespace Rebuild

variable (around : Surroundings) (uri : Uri) (generation : Nat) (text : Text) (outcome : Outcome)

@[simp] theorem uri_snapshotOf :
    (snapshotOf around uri generation text outcome).uri = uri := by
  unfold snapshotOf Snapshot.ofOutput
  split
  · split <;> rfl
  · rfl
  · rfl

@[simp] theorem generation_snapshotOf :
    (snapshotOf around uri generation text outcome).generation = generation := by
  unfold snapshotOf Snapshot.ofOutput
  split
  · split <;> rfl
  · rfl
  · rfl

end Rebuild

theorem Buffers.get?_put (s : Buffers) (b : Buffer) : (s.put b).get? b.uri = some b := by
  simp [put, get?]

theorem Buffers.uri_of_get? {s : Buffers} {uri : Uri} {b : Buffer} (h : s.get? uri = some b) :
    b.uri = uri := by
  simpa using List.find?_some h

namespace Projects

theorem record_begin (s : Projects) (uri : Uri) :
    (s.begin uri).2.record (ProjectId.ofUri uri) = (s.record (ProjectId.ofUri uri)).start :=
  record_put_self _ _ _

theorem commit?_of_floor_lt {s : Projects} {x : Snapshot}
    (h : (s.record x.id).floor < x.generation) :
    s.commit? x = some (s.put x.id { s.record x.id with snapshot := some x }) :=
  if_pos ((ProjectRecord.accepts_iff _ (Nat.zero_lt_of_lt h)).mpr h)

theorem commit?_of_le_floor {s : Projects} {x : Snapshot} (hpos : 0 < x.generation)
    (h : x.generation ≤ (s.record x.id).floor) : s.commit? x = none := by
  refine if_neg ?_
  rw [ProjectRecord.accepts_iff _ hpos]
  omega

end Projects

namespace Course

/-- Every rebuild has ended. -/
def Settled (c : Course) : Prop := ∀ t ∈ c.tasks, t.rebuild.stage.isFinished = true

/-- A snapshot is the one that a document state leads to. -/
def Built (around : Surroundings) (uri : Uri) (states : List Buffer) (k : Nat) (x : Snapshot) :
    Prop :=
  ∃ b, states[k]? = some b ∧
    x = Rebuild.snapshotOf around uri x.generation b.text (around.outcome b.request)

/-- What a rebuild carries comes from the document state that it has read, and its generation was
drawn with that state. -/
def Task.Sound (around : Surroundings) (uri : Uri) (states : List Buffer) (draws : List (Nat × Nat))
    (t : Task) : Prop :=
  t.rebuild.uri = uri ∧
    match t.rebuild.stage with
    | .queued => True
    | .fetched b => states[t.seen]? = some b
    | .running b generation => states[t.seen]? = some b ∧ (generation, t.seen) ∈ draws
    | .assembled _ x => Built around uri states t.seen x ∧ (x.generation, t.seen) ∈ draws
    | .rechecked _ x => Built around uri states t.seen x ∧ (x.generation, t.seen) ∈ draws
    | .committed _ _ => ∃ generation, (generation, t.seen) ∈ draws
    | .finished => ∃ generation, (generation, t.seen) ∈ draws

/-- A rebuild that has read the state of a draw and either carries its generation or has made the
store refuse it from now on. -/
def Task.Answers (floor : Nat) (d : Nat × Nat) (t : Task) : Prop :=
  t.seen = d.2 ∧
    match t.rebuild.stage with
    | .queued => False
    | .fetched _ => False
    | .running _ generation => generation = d.1
    | .assembled _ x => x.generation = d.1
    | .rechecked _ x => x.generation = d.1
    | .committed _ _ => d.1 ≤ floor
    | .finished => d.1 ≤ floor

/-- What holds at every moment around an open buffer, about which the store keeps the record `r`. -/
structure Sound (around : Surroundings) (uri : Uri) (r : ProjectRecord) (c : Course) : Prop where
  current : ∃ b, c.workspace.buffers.get? uri = some b ∧ c.states.getLast? = some b
  kept : c.workspace.projects.record (ProjectId.ofUri uri) = r
  record : r.Sound
  tasks : ∀ t ∈ c.tasks, t.Sound around uri c.states c.draws
  drawn : ∀ d ∈ c.draws, r.closing < d.1 ∧ d.1 ≤ r.generation
  increasing : c.draws.Pairwise fun d e => d.1 < e.1
  newest : ∀ d ∈ c.draws.getLast?, d.1 = r.generation
  answered : ∀ d ∈ c.draws, ∃ t ∈ c.tasks, t.Answers r.floor d
  built : ∀ e ∈ c.commits, Built around uri c.states e.1 e.2 ∧ (e.2.generation, e.1) ∈ c.draws
  rising : c.commits.Pairwise fun d e => d.2.generation < e.2.generation
  below : ∀ e ∈ c.commits, e.2.generation ≤ r.floor
  shown : r.snapshot = c.commits.getLast?.map (·.2)

variable {around : Surroundings} {uri : Uri} {r : ProjectRecord} {c : Course}

theorem getElem?_states {states states' : List Buffer} (h : states <+: states') {k : Nat}
    {b : Buffer} (hb : states[k]? = some b) : states'[k]? = some b := by
  obtain ⟨more, rfl⟩ := h
  obtain ⟨hk, _⟩ := List.getElem?_eq_some_iff.mp hb
  rwa [List.getElem?_append_left hk]

theorem Built.mono {states states' : List Buffer} (hstates : states <+: states') {k : Nat}
    {x : Snapshot} (h : Built around uri states k x) : Built around uri states' k x := by
  obtain ⟨b, hb, hx⟩ := h
  exact ⟨b, getElem?_states hstates hb, hx⟩

theorem Task.Sound.mono {states states' : List Buffer} (hstates : states <+: states')
    {draws draws' : List (Nat × Nat)} (hdraws : draws ⊆ draws') {t : Task}
    (h : t.Sound around uri states draws) : t.Sound around uri states' draws' := by
  refine ⟨h.1, ?_⟩
  have hstage := h.2
  split at hstage
  · trivial
  · exact getElem?_states hstates hstage
  · exact ⟨getElem?_states hstates hstage.1, hdraws hstage.2⟩
  · exact ⟨hstage.1.mono hstates, hdraws hstage.2⟩
  · exact ⟨hstage.1.mono hstates, hdraws hstage.2⟩
  · exact hstage.imp fun _ h => hdraws h
  · exact hstage.imp fun _ h => hdraws h

theorem Task.Answers.mono {floor floor' : Nat} (hfloor : floor ≤ floor') {d : Nat × Nat} {t : Task}
    (h : t.Answers floor d) : t.Answers floor' d := by
  refine ⟨h.1, ?_⟩
  have hstage := h.2
  split at hstage
  · exact hstage
  · exact hstage
  · exact hstage
  · exact hstage
  · exact hstage
  · exact Nat.le_trans hstage hfloor
  · exact Nat.le_trans hstage hfloor

/-! ## One step -/

theorem Sound.change (h : c.Sound around uri r) {buffers : Buffers} {b : Buffer}
    (hb : buffers.get? uri = some b) : (c.change uri buffers).Sound around uri r :=
  { h with
    current := ⟨b, hb, by simp [Course.change, hb]⟩
    tasks := fun t ht => (h.tasks t ht).mono (List.prefix_append _ _) (List.Subset.refl _)
    built := fun e he => ⟨(h.built e he).1.mono (List.prefix_append _ _), (h.built e he).2⟩ }

theorem Sound.request (h : c.Sound around uri r) :
    ({ c with tasks := c.tasks ++ [⟨{ uri }, 0⟩] } : Course).Sound around uri r :=
  { h with
    tasks := by
      intro t ht
      rcases List.mem_append.mp ht with ht | ht
      · exact h.tasks t ht
      · rw [List.mem_singleton.mp ht]
        exact ⟨rfl, trivial⟩
    answered := by
      intro d hd
      obtain ⟨t, ht, hanswers⟩ := h.answered d hd
      exact ⟨t, List.mem_append_left _ ht, hanswers⟩ }

section Advance

variable {i : Nat} {t t' : Task}

/-- A rebuild that is replaced by itself one step later takes over what it stood for. -/
theorem exists_mem_set {tasks : List Task} (hi : tasks[i]? = some t) {p q : Task → Prop}
    (hother : ∀ u, p u → q u) (hself : p t → q t') (h : ∃ u ∈ tasks, p u) :
    ∃ u ∈ tasks.set i t', q u := by
  obtain ⟨hlt, _⟩ := List.getElem?_eq_some_iff.mp hi
  obtain ⟨u, hu, hp⟩ := h
  obtain ⟨j, hj⟩ := List.mem_iff_getElem?.mp hu
  by_cases hij : i = j
  · subst hij
    cases hi.symm.trans hj
    exact ⟨t', List.mem_set hlt t', hself hp⟩
  · refine ⟨u, List.mem_of_getElem? (i := j) ?_, hother u hp⟩
    rw [List.getElem?_set_ne hij, hj]

theorem forall_mem_set {tasks : List Task} {p : Task → Prop} (h : ∀ u ∈ tasks, p u) (ht : p t') :
    ∀ u ∈ tasks.set i t', p u := by
  intro u hu
  rcases List.mem_or_eq_of_mem_set hu with hu | rfl
  · exact h u hu
  · exact ht

/-- A step that leaves the stores as they are. -/
theorem Sound.move (h : c.Sound around uri r) (hi : c.tasks[i]? = some t)
    (ht : t'.Sound around uri c.states c.draws)
    (hanswers : ∀ d, t.Answers r.floor d → t'.Answers r.floor d) :
    ({ c with tasks := c.tasks.set i t' } : Course).Sound around uri r :=
  { h with
    tasks := forall_mem_set h.tasks ht
    answered := fun d hd => exists_mem_set hi (fun _ hu => hu) (hanswers d) (h.answered d hd) }

/-- The generation that is drawn lies above all drawn before. -/
theorem Sound.draw (h : c.Sound around uri r) (hi : c.tasks[i]? = some t) {b : Buffer}
    (hstage : t.rebuild.stage = .fetched b) (hb : c.states[t.seen]? = some b) :
    ({ c with
      workspace := { c.workspace with projects := (c.workspace.projects.begin uri).2 }
      tasks := c.tasks.set i ⟨⟨uri, .running b (r.generation + 1)⟩, t.seen⟩
      draws := c.draws ++ [(r.generation + 1, t.seen)] } : Course).Sound around uri r.start := by
  have hclosing : r.closing ≤ r.generation :=
    Nat.le_trans (Nat.le_max_left _ _) h.record.floor_le
  have hself : ∀ d, ¬t.Answers r.floor d := by
    rintro d ⟨_, hanswers⟩
    rw [hstage] at hanswers
    exact hanswers
  refine ⟨h.current, ?_, h.record.start, ?_, ?_, ?_, ?_, ?_, ?_, h.rising, h.below, h.shown⟩
  · rw [← h.kept]
    exact Projects.record_begin _ _
  · refine forall_mem_set (fun u hu => ?_) ⟨rfl, hb, by simp⟩
    exact (h.tasks u hu).mono (List.prefix_refl _) (List.subset_append_left _ _)
  · intro d hd
    rcases List.mem_append.mp hd with hd | hd
    · have := h.drawn d hd
      exact ⟨this.1, Nat.le_succ_of_le this.2⟩
    · rw [List.mem_singleton.mp hd]
      exact ⟨Nat.lt_succ_of_le hclosing, Nat.le_refl _⟩
  · rw [List.pairwise_append]
    refine ⟨h.increasing, List.pairwise_singleton _ _, ?_⟩
    intro d hd e he
    rw [List.mem_singleton.mp he]
    exact Nat.lt_succ_of_le (h.drawn d hd).2
  · intro d hd
    rw [List.getLast?_concat] at hd
    cases hd
    rfl
  · intro d hd
    rcases List.mem_append.mp hd with hd | hd
    · exact exists_mem_set hi (fun _ hu => hu) (fun ht => (hself d ht).elim) (h.answered d hd)
    · rw [List.mem_singleton.mp hd]
      obtain ⟨hlt, _⟩ := List.getElem?_eq_some_iff.mp hi
      exact ⟨_, List.mem_set hlt _, rfl, rfl⟩
  · intro e he
    exact ⟨(h.built e he).1, List.mem_append_left _ (h.built e he).2⟩

theorem Built.id_eq {states : List Buffer} {k : Nat} {x : Snapshot}
    (h : Built around uri states k x) : x.id = ProjectId.ofUri uri := by
  obtain ⟨b, _, hx⟩ := h
  rw [hx, Snapshot.id, Rebuild.uri_snapshotOf]

/-- A rebuild that has offered its snapshot answers for its draw when the floor has come up to it. -/
theorem Task.Answers.offered {floor floor' : Nat} {version : Int} {x : Snapshot} {d : Nat × Nat}
    (h : t.Answers floor d) (hstage : t.rebuild.stage = .rechecked version x)
    (hfloor : x.generation ≤ floor') :
    Task.Answers floor' d ⟨⟨uri, .committed version x⟩, t.seen⟩ := by
  obtain ⟨hseen, hanswers⟩ := h
  rw [hstage] at hanswers
  exact ⟨hseen, hanswers ▸ hfloor⟩

theorem Sound.accept (h : c.Sound around uri r) (hi : c.tasks[i]? = some t) {version : Int}
    {x : Snapshot} (hstage : t.rebuild.stage = .rechecked version x)
    (hbuilt : Built around uri c.states t.seen x) (hdrawn : (x.generation, t.seen) ∈ c.draws)
    (habove : r.floor < x.generation) {projects : Projects}
    (hkept : projects.record (ProjectId.ofUri uri) = { r with snapshot := some x }) :
    ({ c with
      workspace := { c.workspace with projects := projects }
      tasks := c.tasks.set i ⟨⟨uri, .committed version x⟩, t.seen⟩
      commits := c.commits ++ [(t.seen, x)] } : Course).Sound around uri
        { r with snapshot := some x } := by
  have hfloor := ProjectRecord.floor_store habove
  refine ⟨h.current, hkept, ProjectRecord.Sound.store habove (h.drawn _ hdrawn).2, ?_, h.drawn,
    h.increasing, h.newest, ?_, ?_, ?_, ?_, ?_⟩
  · exact forall_mem_set h.tasks ⟨rfl, x.generation, hdrawn⟩
  · intro d hd
    rw [hfloor]
    exact exists_mem_set hi (fun _ hu => hu.mono (Nat.le_of_lt habove))
      (fun ht => ht.offered hstage (Nat.le_refl _)) (h.answered d hd)
  · intro e he
    rcases List.mem_append.mp he with he | he
    · exact h.built e he
    · rw [List.mem_singleton.mp he]
      exact ⟨hbuilt, hdrawn⟩
  · rw [List.pairwise_append]
    refine ⟨h.rising, List.pairwise_singleton _ _, ?_⟩
    intro d hd e he
    rw [List.mem_singleton.mp he]
    exact Nat.lt_of_le_of_lt (h.below d hd) habove
  · intro e he
    rw [hfloor]
    rcases List.mem_append.mp he with he | he
    · exact Nat.le_trans (h.below e he) (Nat.le_of_lt habove)
    · rw [List.mem_singleton.mp he]
  · rw [List.getLast?_concat]
    rfl

/-- A snapshot that is offered is accepted above the floor and refused at or below it. -/
theorem Sound.offer (h : c.Sound around uri r) (hi : c.tasks[i]? = some t) {version : Int}
    {x : Snapshot} (hstage : t.rebuild.stage = .rechecked version x)
    (hbuilt : Built around uri c.states t.seen x) (hdrawn : (x.generation, t.seen) ∈ c.draws) :
    ∃ r', ({ c with
      workspace := { c.workspace with projects := c.workspace.projects.commit x }
      tasks := c.tasks.set i ⟨⟨uri, .committed version x⟩, t.seen⟩
      commits := c.commits ++
        if (c.workspace.projects.commit? x).isSome then [(t.seen, x)] else [] } :
          Course).Sound around uri r' := by
  have hkept : c.workspace.projects.record x.id = r := by rw [hbuilt.id_eq, h.kept]
  by_cases habove : r.floor < x.generation
  · have hcommit := Projects.commit?_of_floor_lt (hkept.symm ▸ habove)
    rw [Projects.commit, hcommit, Option.getD_some, Option.isSome_some, if_pos rfl, hkept]
    refine ⟨_, h.accept hi hstage hbuilt hdrawn habove ?_⟩
    rw [← hbuilt.id_eq]
    exact Projects.record_put_self _ _ _
  · have hle : x.generation ≤ r.floor := Nat.le_of_not_lt habove
    have hpos : 0 < x.generation := Nat.zero_lt_of_lt (h.drawn _ hdrawn).1
    have hcommit := Projects.commit?_of_le_floor hpos (hkept.symm ▸ hle)
    rw [Projects.commit_eq_self hcommit, hcommit, Option.isSome_none, if_neg Bool.false_ne_true,
      List.append_nil]
    exact ⟨r, h.move hi ⟨rfl, x.generation, hdrawn⟩ fun d ht => ht.offered hstage hle⟩

/-- Every step of a rebuild keeps the course sound. The buffer is open, so that no rebuild ends
before it has offered its snapshot. -/
theorem Sound.advance (h : c.Sound around uri r) (hi : c.tasks[i]? = some t) :
    ∃ r', (c.advance around i t).Sound around uri r' := by
  obtain ⟨huri, ht⟩ := h.tasks t (List.mem_of_getElem? hi)
  obtain ⟨⟨uri', stage⟩, seen⟩ := t
  have hsame : uri = uri' := huri.symm
  subst hsame
  obtain ⟨b, hopen, hlast⟩ := h.current
  simp only [Course.advance, Rebuild.step, sight, Course.drawn, accepted]
  cases stage with
  | queued =>
    simp only [hopen, List.append_nil]
    refine ⟨r, h.move hi ⟨rfl, ?_⟩ fun d hd => hd.2.elim⟩
    rw [List.getLast?_eq_getElem?] at hlast
    exact hlast
  | fetched b =>
    simp only [List.append_nil]
    refine ⟨r.start, ?_⟩
    have hdraw := h.draw hi rfl ht
    rw [← h.kept] at hdraw ⊢
    exact hdraw
  | running b g =>
    simp only [List.append_nil]
    refine ⟨r, h.move hi ⟨rfl, ⟨b, ht.1, by simp⟩, by simpa using ht.2⟩ ?_⟩
    rintro d ⟨hseen, hd⟩
    exact ⟨hseen, by simpa using hd⟩
  | assembled version x =>
    simp only [hopen, Option.isSome_some, if_true, List.append_nil]
    exact ⟨r, h.move hi ⟨rfl, ht⟩ fun d hd => hd⟩
  | rechecked version x =>
    simp only [List.append_nil]
    exact h.offer hi rfl ht.1 ht.2
  | committed version x =>
    simp only [List.append_nil]
    split <;> exact ⟨r, h.move hi ⟨rfl, ht⟩ fun d hd => hd⟩
  | finished =>
    simp only [List.append_nil]
    exact ⟨r, h.move hi ⟨rfl, ht⟩ fun d hd => hd⟩

end Advance

theorem Sound.step (h : c.Sound around uri r) (event : Event) :
    ∃ r', (c.step around uri event).Sound around uri r' := by
  cases event with
  | opened text version => exact ⟨r, h.change (Buffers.get?_put _ ⟨uri, text, version⟩)⟩
  | edited edits version =>
    obtain ⟨b, hb, _⟩ := h.current
    simp only [Course.step, Buffers.edit?, hb, Option.map_some]
    refine ⟨r, h.change (b := b.edit edits version) ?_⟩
    rw [← Buffers.uri_of_get? hb]
    exact Buffers.get?_put c.workspace.buffers (b.edit edits version)
  | requested => exact ⟨r, h.request⟩
  | advanced i =>
    rw [Course.step]
    split
    · rename_i t hi
      exact h.advance hi
    · exact ⟨r, h⟩

theorem Sound.run (h : c.Sound around uri r) (events : List Event) :
    ∃ r', (c.run around uri events).Sound around uri r' := by
  induction events generalizing c r with
  | nil => exact ⟨r, h⟩
  | cons event events ih =>
    obtain ⟨r', h'⟩ := h.step event
    exact ih h'

theorem sound_start (around : Surroundings) {w : Workspace} {b : Buffer}
    (hrecord : (w.projects.record (ProjectId.ofUri b.uri)).Sound)
    (hnone : w.projects.get? b.uri = none) :
    (start w b).Sound around b.uri (w.projects.record (ProjectId.ofUri b.uri)) where
  current := ⟨b, Buffers.get?_put w.buffers b, rfl⟩
  kept := rfl
  record := hrecord
  tasks := fun _ h => by cases h
  drawn := fun _ h => by cases h
  increasing := List.Pairwise.nil
  newest := fun _ h => by cases h
  answered := fun _ h => by cases h
  built := fun _ h => by cases h
  rising := List.Pairwise.nil
  below := fun _ h => by cases h
  shown := hnone

/-! ## What is committed -/

/-- A generation is drawn once. -/
theorem Sound.eq_of_drawn (h : c.Sound around uri r) {d e : Nat × Nat} (hd : d ∈ c.draws)
    (he : e ∈ c.draws) (hde : d.1 = e.1) : d = e := by
  have hnodup : (c.draws.map Prod.fst).Nodup :=
    List.pairwise_map.mpr (h.increasing.imp Nat.ne_of_lt)
  exact List.inj_on_of_nodup_map hnodup hd he hde

/-- Behind the last rebuild the store holds the snapshot of the generation drawn last. -/
theorem Sound.last_commit (h : c.Sound around uri r) (hsettled : c.Settled) :
    c.commits.getLast?.map (fun e => (e.2.generation, e.1)) = c.draws.getLast? := by
  cases hlast : c.draws.getLast? with
  | none =>
    have hdraws : c.draws = [] := List.getLast?_eq_none_iff.mp hlast
    cases hcommit : c.commits.getLast? with
    | none => rfl
    | some e =>
      have := (h.built e (List.mem_of_getLast? hcommit)).2
      rw [hdraws] at this
      cases this
  | some d =>
    have hd : d ∈ c.draws := List.mem_of_getLast? hlast
    obtain ⟨hclosing, _⟩ := h.drawn d hd
    have hnewest : d.1 = r.generation := h.newest d hlast
    have hfloor : d.1 ≤ r.floor := by
      obtain ⟨t, ht, _, hanswers⟩ := h.answered d hd
      rw [Stage.eq_finished (hsettled t ht)] at hanswers
      exact hanswers
    rw [ProjectRecord.floor, h.shown] at hfloor
    cases hcommit : c.commits.getLast? with
    | none =>
      simp only [hcommit, Option.map_none, Option.getD_none] at hfloor
      omega
    | some e =>
      obtain ⟨_, he⟩ := h.built e (List.mem_of_getLast? hcommit)
      have hle := (h.drawn _ he).2
      simp only [hcommit, Option.map_some, Option.getD_some] at hfloor hle
      have heq : e.2.generation = d.1 := by omega
      exact congrArg some (h.eq_of_drawn he hd heq)

/-- Where the generations are drawn in the order of the states that were read, a later generation
means a later state. -/
theorem Sound.state_le (h : c.Sound around uri r)
    (horder : c.draws.Pairwise fun d e => d.2 ≤ e.2) {d e : Nat × Nat} (hd : d ∈ c.draws)
    (he : e ∈ c.draws) (hde : d.1 ≤ e.1) : d.2 ≤ e.2 := by
  have hforward : c.draws.Pairwise fun d e => d.1 ≤ e.1 → d.2 ≤ e.2 := by
    refine horder.imp ?_
    intro d e hle _
    exact hle
  have hbackward : c.draws.Pairwise (flip fun d e => d.1 ≤ e.1 → d.2 ≤ e.2) := by
    refine h.increasing.imp ?_
    intro d e hlt hle
    omega
  exact hforward.forall_of_forall_of_flip (fun _ _ _ => Nat.le_refl _) hbackward hd he hde

theorem Sound.latest_committed (h : c.Sound around uri r)
    (horder : c.draws.Pairwise fun d e => d.2 ≤ e.2) (hsettled : c.Settled)
    (htasks : c.tasks ≠ []) :
    ∃ e, c.commits.getLast? = some e ∧ IsGreatest { k | ∃ t ∈ c.tasks, t.seen = k } e.1 := by
  have hdrew : ∀ t ∈ c.tasks, ∃ g, (g, t.seen) ∈ c.draws := by
    intro t ht
    have hsound := (h.tasks t ht).2
    rw [Stage.eq_finished (hsettled t ht)] at hsound
    exact hsound
  obtain ⟨first, hfirst⟩ := List.exists_mem_of_ne_nil _ htasks
  obtain ⟨_, hdraw⟩ := hdrew first hfirst
  have hlast := List.getLast?_eq_some_getLast (List.ne_nil_of_mem hdraw)
  obtain ⟨e, he, hpair⟩ := Option.map_eq_some_iff.mp ((h.last_commit hsettled).trans hlast)
  have hmem := List.getLast_mem (List.ne_nil_of_mem hdraw)
  have hnewest := h.newest _ hlast
  rw [← hpair] at hmem hnewest
  refine ⟨e, he, ?_, ?_⟩
  · obtain ⟨t, ht, hseen, _⟩ := h.answered _ hmem
    exact ⟨t, ht, hseen⟩
  · rintro _ ⟨t, ht, rfl⟩
    obtain ⟨g, hg⟩ := hdrew t ht
    have hle : g ≤ e.2.generation := Nat.le_trans (h.drawn _ hg).2 (Nat.le_of_eq hnewest.symm)
    exact h.state_le horder hg hmem hle

/-- The snapshots of an open buffer are accepted in the order in which their generations were drawn,
each built from the document state that its rebuild had read, and behind the last rebuild the one
that drew last is committed. Where the generations are drawn in the order of the states that were read,
no snapshot of an earlier state replaces one of a later state, and behind the last rebuild the
snapshot of the latest state that any rebuild has read is committed. -/
theorem commits_follow_draws (around : Surroundings) (w : Workspace) (b : Buffer)
    (events : List Event) (hrecord : (w.projects.record (ProjectId.ofUri b.uri)).Sound)
    (hnone : w.projects.get? b.uri = none) :
    let c := (start w b).run around b.uri events
    c.draws.Pairwise (fun d e => d.1 < e.1) ∧
    c.commits.Pairwise (fun d e => d.2.generation < e.2.generation) ∧
    (∀ e ∈ c.commits,
      Built around b.uri c.states e.1 e.2 ∧ (e.2.generation, e.1) ∈ c.draws) ∧
    c.workspace.projects.get? b.uri = c.commits.getLast?.map (·.2) ∧
    (c.Settled → c.commits.getLast?.map (fun e => (e.2.generation, e.1)) = c.draws.getLast?) ∧
    (c.draws.Pairwise (fun d e => d.2 ≤ e.2) →
      c.commits.Pairwise (fun d e => d.1 ≤ e.1) ∧
      (c.Settled → c.tasks ≠ [] → ∃ e, c.commits.getLast? = some e ∧
        IsGreatest { k | ∃ t ∈ c.tasks, t.seen = k } e.1)) := by
  intro c
  obtain ⟨r, h⟩ := (sound_start around hrecord hnone).run events
  refine ⟨h.increasing, h.rising, h.built, ?_, h.last_commit, ?_⟩
  · rw [Projects.get?, h.kept, h.shown]
  · intro horder
    refine ⟨h.rising.imp_of_mem ?_, h.latest_committed horder⟩
    intro d e hd he hlt
    exact h.state_le horder (h.built d hd).2 (h.built e he).2 (Nat.le_of_lt hlt)

/-- An assembler that prints the text and writes no report. -/
def echo : Surroundings where
  outcome := fun request => .finished (.ok { stdout := request.text })
  waits := fun _ => false
  findFile := fun _ => none

def draft : Buffer := ⟨Projects.rootFile "a", "old".toList, 1⟩

def replacement : Event := .edited [⟨none, "new".toList⟩] 2

/-- Two rebuilds read one state each and draw in this order. The later one commits first. -/
def overtaking : List Event :=
  [.requested, .advanced 0, .advanced 0, replacement, .requested, .advanced 1, .advanced 1,
    .advanced 1, .advanced 1, .advanced 1, .advanced 0, .advanced 0, .advanced 0,
    .advanced 1, .advanced 0]

/-- The first rebuild has read the old text and draws only after the second one. -/
def lateDraw : List Event :=
  [.requested, .advanced 0, replacement, .requested, .advanced 1, .advanced 1, .advanced 0,
    .advanced 1, .advanced 1, .advanced 1, .advanced 0, .advanced 0, .advanced 0,
    .advanced 1, .advanced 0]

instance (c : Course) : Decidable c.Settled :=
  inferInstanceAs (Decidable (∀ t ∈ c.tasks, t.rebuild.stage.isFinished = true))

theorem commits_follow_draws_overtaking :
    let c := (start {} draft).run echo draft.uri overtaking
    (({} : Projects).record (ProjectId.ofUri draft.uri)).Sound ∧
    ({} : Projects).get? draft.uri = none ∧
    c.Settled ∧ c.tasks.map (·.seen) = [0, 1] ∧ c.draws = [(1, 0), (2, 1)] ∧
    c.commits.map (·.1) = [1] ∧
    ∃ e, c.commits.getLast? = some e ∧ IsGreatest { k | ∃ t ∈ c.tasks, t.seen = k } e.1 := by
  intro c
  obtain ⟨hsettled, hseen, hdraws, hcommits⟩ : c.Settled ∧ c.tasks.map (·.seen) = [0, 1] ∧
      c.draws = [(1, 0), (2, 1)] ∧ c.commits.map (·.1) = [1] := by decide +kernel
  have htasks : c.tasks ≠ [] := by
    intro hnil
    rw [hnil] at hseen
    cases hseen
  have hsafe := commits_follow_draws echo {} draft overtaking ProjectRecord.sound_blank rfl
  have hordered := hsafe.2.2.2.2.2 (hdraws ▸ by decide)
  exact ⟨ProjectRecord.sound_blank, rfl, hsettled, hseen, hdraws, hcommits,
    hordered.2 hsettled htasks⟩

/-- Text that is read early and drawn late replaces newer text and stays. -/
theorem lateDraw_regresses :
    let c := (start {} draft).run echo draft.uri lateDraw
    c.Settled ∧ c.tasks.map (·.seen) = [0, 1] ∧ c.commits.map (·.1) = [1, 0] ∧
    (c.workspace.projects.get? draft.uri).map (·.failure) = some (some "old".toList) ∧
    c.workspace.buffers.text? draft.uri = some "new".toList := by
  decide +kernel

end Course

end AsmLens
