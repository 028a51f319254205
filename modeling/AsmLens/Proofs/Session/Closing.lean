import AsmLens.Proofs.Session.Interleaving
import AsmLens.Session.Basic

/-!
# Closing a buffer beside its rebuilds

A closing takes the buffer out of the store, drops its snapshot and clears its diagnostics, in three
steps, and rebuilds of the buffer may take steps of their own in between. Once the snapshot is
dropped, none is committed until the buffer is opened again. But a rebuild looks at the buffer for
the last time before it commits, and it publishes without asking whether its commit was accepted. So
the newest rebuild, when it has taken that look before the buffer was closed, publishes once after
the closing. No other rebuild does.
-/

namespace AsmLens

namespace Lifetime

/-- How far a closing has come. -/
inductive Closing where
  | requested
  | shut
  | forgotten
  | cleared
  deriving DecidableEq

/-- What can happen around one buffer. A rebuild or a closing that is requested waits, and takes its
steps one at a time. -/
inductive Event where
  | opened (text : Text) (version : Int)
  | edited (edits : List Edit) (version : Int)
  | requested
  | advanced (rebuild : Nat)
  | closeRequested
  | closeAdvanced (closing : Nat)

def Event.opens : Event → Bool
  | .opened _ _ => true
  | _ => false

/-- The next step of a closing, with the stores behind it and what it tells the editor. -/
def Closing.step (uri : Uri) (w : Workspace) : Closing → Workspace × Closing × List Notice
  | .requested => ({ w with buffers := w.buffers.close uri }, .shut, [])
  | .shut => ({ w with projects := w.projects.remove uri }, .forgotten, [])
  | .forgotten => (w, .cleared, [.diagnostics uri [] none])
  | .cleared => (w, .cleared, [])

end Lifetime

/-- Whether a notice carries what a rebuild has found. -/
def Notice.isPublication : Notice → Bool
  | .diagnostics _ _ (some _) => true
  | _ => false

/-- The stores around one buffer that is opened and closed, its rebuilds and closings, and what the
editor was told. -/
structure Lifetime where
  workspace : Workspace := {}
  rebuilds : List Stage := []
  closings : List Lifetime.Closing := []
  notices : List Notice := []

namespace Lifetime

/-- The next step of the rebuild at index `i`. -/
def advance (around : Surroundings) (uri : Uri) (l : Lifetime) (i : Nat) (stage : Stage) :
    Lifetime :=
  let moved := Rebuild.step around l.workspace ⟨uri, stage⟩
  { l with
    workspace := moved.1
    rebuilds := l.rebuilds.set i moved.2.1
    notices := l.notices ++ moved.2.2 }

/-- The next step of the closing at index `j`. -/
def close (uri : Uri) (l : Lifetime) (j : Nat) (closing : Closing) : Lifetime :=
  let moved := closing.step uri l.workspace
  { l with
    workspace := moved.1
    closings := l.closings.set j moved.2.1
    notices := l.notices ++ moved.2.2 }

/-- The lifetime with other buffers. -/
def withBuffers (l : Lifetime) (buffers : Buffers) : Lifetime :=
  { l with workspace := { l.workspace with buffers := buffers } }

def step (around : Surroundings) (uri : Uri) (l : Lifetime) : Event → Lifetime
  | .opened text version => l.withBuffers (l.workspace.buffers.setText uri text version)
  | .edited edits version =>
    match l.workspace.buffers.edit? uri edits version with
    | some buffers => l.withBuffers buffers
    | none => l
  | .requested => { l with rebuilds := l.rebuilds ++ [.queued] }
  | .advanced i =>
    match l.rebuilds[i]? with
    | some stage => l.advance around uri i stage
    | none => l
  | .closeRequested => { l with closings := l.closings ++ [.requested] }
  | .closeAdvanced j =>
    match l.closings[j]? with
    | some closing => l.close uri j closing
    | none => l

/-- What rebuilds have published. -/
def publications (l : Lifetime) : List Notice := l.notices.filter Notice.isPublication

def run (around : Surroundings) (uri : Uri) (l : Lifetime) (events : List Event) : Lifetime :=
  events.foldl (step around uri) l

variable {around : Surroundings} {uri : Uri} {l : Lifetime}

/-- A closing that nothing interrupts does to the stores and tells the editor what a session does at
once. -/
theorem run_closing_eq (s : Session) (h : l.workspace = s.workspace) {j : Nat}
    (hj : l.closings[j]? = some .requested) :
    let last := l.run around uri [.closeAdvanced j, .closeAdvanced j, .closeAdvanced j]
    last.workspace = (s.closed uri).workspace ∧
    ∃ sent, (s.closed uri).notices = s.notices ++ sent ∧ last.notices = l.notices ++ sent := by
  obtain ⟨hlt, hget⟩ := List.getElem?_eq_some_iff.mp hj
  refine ⟨?_, _, rfl, ?_⟩
  · simp [run, step, close, Closing.step, hlt, hget, h, Session.closed, Session.notify]
  · simp [run, step, close, Closing.step, hlt, hget]

end Lifetime

/-- The generation that a rebuild has drawn and still carries. -/
def Stage.generation? : Stage → Option Nat
  | .running _ generation => some generation
  | .assembled _ x | .rechecked _ x | .committed _ x => some x.generation
  | _ => none

/-- What a rebuild has to publish when it has found its buffer open after the run. -/
def Stage.checked? : Stage → Option (Int × Snapshot)
  | .rechecked version x | .committed version x => some (version, x)
  | _ => none

theorem Stage.generation?_of_checked? {stage : Stage} {version : Int} {x : Snapshot}
    (h : stage.checked? = some (version, x)) : stage.generation? = some x.generation := by
  cases stage <;> cases h <;> rfl

/-! ## What a dropped record keeps -/

/-- The record has no snapshot and accepts none of a generation up to `top`. -/
structure ProjectRecord.Dropped (top : Nat) (r : ProjectRecord) : Prop where
  empty : r.snapshot = none
  closed : ∃ closed, r.closedAt = some closed ∧ top ≤ closed

namespace ProjectRecord

variable {top : Nat} {r : ProjectRecord}

theorem Dropped.close (h : top ≤ r.generation) : r.close.Dropped top :=
  ⟨rfl, r.generation, rfl, h⟩

theorem Dropped.start (h : r.Dropped top) : r.start.Dropped top := ⟨h.empty, h.closed⟩

theorem Dropped.not_accepts (h : r.Dropped top) {generation : Nat} (hle : generation ≤ top) :
    r.accepts generation = false := by
  obtain ⟨closed, hclosed, htop⟩ := h.closed
  have hlt : ¬closed < generation := by omega
  simp [accepts, hclosed, hlt]

end ProjectRecord

namespace Projects

theorem record_commit (s : Projects) (x : Snapshot) (id : ProjectId) :
    (s.commit x).record id = s.record id ∨
      (s.record id).accepts x.generation = true ∧
        (s.commit x).record id = { s.record id with snapshot := some x } := by
  cases hx : s.commit? x with
  | none => exact Or.inl (by rw [commit_eq_self hx])
  | some t =>
    obtain ⟨haccepts, rfl⟩ := commit?_eq_some hx
    rw [commit, hx, Option.getD_some]
    by_cases hid : id = x.id
    · subst hid
      exact Or.inr ⟨haccepts, record_put_self _ _ _⟩
    · exact Or.inl (record_put_of_ne _ hid _)

theorem record_commit_of_dropped {s : Projects} {id : ProjectId} {top : Nat}
    (h : (s.record id).Dropped top) {x : Snapshot} (hx : x.generation ≤ top) :
    (s.commit x).record id = s.record id := by
  rcases record_commit s x id with hsame | ⟨haccepts, _⟩
  · exact hsame
  · rw [h.not_accepts hx] at haccepts
    cases haccepts

theorem latest_commit (s : Projects) (x : Snapshot) (uri : Uri) :
    (s.commit x).latest uri = s.latest uri := by
  rcases record_commit s x (ProjectId.ofUri uri) with h | ⟨_, h⟩ <;> rw [latest, h] <;> rfl

theorem latest_begin (s : Projects) (uri : Uri) :
    (s.begin uri).2.latest uri = s.latest uri + 1 := by
  rw [latest, record_begin]
  rfl

theorem record_remove (s : Projects) (uri : Uri) :
    (s.remove uri).record (ProjectId.ofUri uri) = (s.record (ProjectId.ofUri uri)).close :=
  record_put_self _ _ _

theorem latest_remove (s : Projects) (uri : Uri) : (s.remove uri).latest uri = s.latest uri := by
  rw [latest, record_remove]
  rfl

end Projects

theorem Buffers.get?_close (s : Buffers) (uri : Uri) : (s.close uri).get? uri = none := by
  simp [close, get?]

/-! ## What one step of a rebuild can do -/

namespace Rebuild

/-- A rebuild keeps the generation that it carries or draws the next one. -/
theorem step_generation (around : Surroundings) (w : Workspace) (r : Rebuild) :
    let moved := r.step around w
    (moved.1.projects.latest r.uri = w.projects.latest r.uri ∧
      ∀ g, moved.2.1.generation? = some g → r.stage.generation? = some g) ∨
    (moved.1.projects.latest r.uri = w.projects.latest r.uri + 1 ∧
      moved.2.1.generation? = some (w.projects.latest r.uri + 1)) := by
  obtain ⟨uri, stage⟩ := r
  cases stage with
  | queued =>
    refine Or.inl ?_
    simp only [step]
    split <;> exact ⟨rfl, by rintro _ ⟨⟩⟩
  | fetched b => exact Or.inr ⟨w.projects.latest_begin uri, rfl⟩
  | running b g =>
    refine Or.inl ⟨rfl, fun g' h => ?_⟩
    rw [← h]
    simp [step, Stage.generation?]
  | assembled version x =>
    refine Or.inl ?_
    simp only [step]
    split
    · exact ⟨rfl, fun _ h => h⟩
    · exact ⟨rfl, by rintro _ ⟨⟩⟩
  | rechecked version x => exact Or.inl ⟨w.projects.latest_commit x uri, fun _ h => h⟩
  | committed version x =>
    refine Or.inl ?_
    simp only [step]
    split <;> exact ⟨rfl, by rintro _ ⟨⟩⟩
  | finished => exact Or.inl ⟨rfl, by rintro _ ⟨⟩⟩

/-- What a rebuild can do while its buffer is closed: it does not pass its second look any more, and
it publishes only what it had to publish already, at the newest generation. -/
structure ClosedStep (w : Workspace) (r : Rebuild) (moved : Workspace × Stage × List Notice) :
    Prop where
  buffers : moved.1.buffers = w.buffers
  projects : moved.1.projects = w.projects ∨ moved.1.projects = (w.projects.begin r.uri).2 ∨
    ∃ version x, r.stage.checked? = some (version, x) ∧ moved.1.projects = w.projects.commit x
  checked : ∀ p, moved.2.1.checked? = some p → r.stage.checked? = some p
  sent : moved.2.2 = [] ∨ ∃ version x, r.stage.checked? = some (version, x) ∧
    w.projects.latest r.uri = x.generation ∧ moved.2.1.checked? = none ∧
    moved.2.2 = [.diagnostics r.uri x.diagnostics (some version)]

theorem step_of_closed (around : Surroundings) {w : Workspace} {r : Rebuild}
    (h : w.buffers.get? r.uri = none) : ClosedStep w r (r.step around w) := by
  obtain ⟨uri, stage⟩ := r
  cases stage with
  | queued =>
    simp only [step, h]
    exact ⟨rfl, Or.inl rfl, by rintro _ ⟨⟩, Or.inl rfl⟩
  | fetched b => exact ⟨rfl, Or.inr (Or.inl rfl), by rintro _ ⟨⟩, Or.inl rfl⟩
  | running b g => exact ⟨rfl, Or.inl rfl, by rintro _ ⟨⟩, Or.inl rfl⟩
  | assembled version x =>
    simp only [step, h, Option.isSome_none, Bool.false_eq_true, if_false]
    exact ⟨rfl, Or.inl rfl, by rintro _ ⟨⟩, Or.inl rfl⟩
  | rechecked version x =>
    exact ⟨rfl, Or.inr (Or.inr ⟨version, x, rfl, rfl⟩), fun _ hp => hp, Or.inl rfl⟩
  | committed version x =>
    simp only [step]
    split
    · rename_i hlatest
      exact ⟨rfl, Or.inl rfl, by rintro _ ⟨⟩,
        Or.inr ⟨version, x, rfl, beq_iff_eq.mp hlatest, rfl, rfl⟩⟩
    · exact ⟨rfl, Or.inl rfl, by rintro _ ⟨⟩, Or.inl rfl⟩
  | finished => exact ⟨rfl, Or.inl rfl, by rintro _ ⟨⟩, Or.inl rfl⟩

end Rebuild

namespace Lifetime

variable {around : Surroundings} {uri : Uri} {l : Lifetime}

/-- What the rebuild at an index holds. -/
def held {α : Type} (f : Stage → Option α) (l : Lifetime) (i : Nat) : Option α :=
  l.rebuilds[i]?.bind f

section Held

variable {α : Type} {f : Stage → Option α}

lemma held_request {a : α} (hf : f .queued = none) {i : Nat}
    (h : held f { l with rebuilds := l.rebuilds ++ [.queued] } i = some a) :
    held f l i = some a := by
  obtain ⟨stage, hstage, ha⟩ := Option.bind_eq_some_iff.mp h
  rcases Nat.lt_trichotomy i l.rebuilds.length with hlt | heq | hgt
  · rw [List.getElem?_append_left hlt] at hstage
    exact Option.bind_eq_some_iff.mpr ⟨stage, hstage, ha⟩
  · rw [heq, List.getElem?_concat_length] at hstage
    cases hstage
    rw [hf] at ha
    cases ha
  · rw [List.getElem?_eq_none (by simp; omega)] at hstage
    cases hstage

lemma held_of_stage {i : Nat} {stage : Stage} (hi : l.rebuilds[i]? = some stage) :
    held f l i = f stage := by
  rw [held, hi]
  rfl

lemma getElem?_advance {i : Nat} {stage : Stage} (hi : l.rebuilds[i]? = some stage) :
    (l.advance around uri i stage).rebuilds[i]? =
      some (Rebuild.step around l.workspace ⟨uri, stage⟩).2.1 := by
  obtain ⟨hlt, _⟩ := List.getElem?_eq_some_iff.mp hi
  exact List.getElem?_set_self hlt

lemma held_of_advance {a : α} {i k : Nat} {stage : Stage} (hi : l.rebuilds[i]? = some stage)
    (h : held f (l.advance around uri i stage) k = some a) :
    (k = i ∧ f (Rebuild.step around l.workspace ⟨uri, stage⟩).2.1 = some a) ∨
      held f l k = some a := by
  by_cases hki : k = i
  · subst hki
    rw [held_of_stage (getElem?_advance hi)] at h
    exact Or.inl ⟨rfl, h⟩
  · have hother : held f (l.advance around uri i stage) k = held f l k :=
      congrArg (Option.bind · f) (List.getElem?_set_ne (Ne.symm hki))
    rw [hother] at h
    exact Or.inr h

end Held

lemma held_generation_of_checked {i : Nat} {version : Int} {x : Snapshot}
    (h : l.held Stage.checked? i = some (version, x)) :
    l.held Stage.generation? i = some x.generation := by
  obtain ⟨stage, hstage, hchecked⟩ := Option.bind_eq_some_iff.mp h
  rw [held_of_stage hstage]
  exact Stage.generation?_of_checked? hchecked

/-! ## Generations are drawn once -/

/-- The generations that rebuilds carry were handed out, each to one of them. -/
structure Numbered (uri : Uri) (l : Lifetime) : Prop where
  issued : ∀ i g, l.held Stage.generation? i = some g → g ≤ l.workspace.projects.latest uri
  distinct : ∀ i k g, l.held Stage.generation? i = some g → l.held Stage.generation? k = some g →
    i = k

theorem Numbered.mono {l' : Lifetime} (h : l.Numbered uri)
    (hheld : ∀ i g, l'.held Stage.generation? i = some g → l.held Stage.generation? i = some g)
    (hlatest : l'.workspace.projects.latest uri = l.workspace.projects.latest uri) :
    l'.Numbered uri where
  issued := fun i g hg => hlatest ▸ h.issued i g (hheld i g hg)
  distinct := fun i k g hi hk => h.distinct i k g (hheld i g hi) (hheld k g hk)

theorem Numbered.advance (h : l.Numbered uri) {i : Nat} {stage : Stage}
    (hi : l.rebuilds[i]? = some stage) : (l.advance around uri i stage).Numbered uri := by
  rcases Rebuild.step_generation around l.workspace ⟨uri, stage⟩ with
    ⟨hlatest, hkept⟩ | ⟨hlatest, hdrawn⟩
  · refine h.mono ?_ hlatest
    intro k g hg
    rcases held_of_advance hi hg with ⟨rfl, hself⟩ | hother
    · rw [held_of_stage hi]
      exact hkept g hself
    · exact hother
  · -- the new generation lies above all that were handed out before
    have hcases : ∀ k g, (l.advance around uri i stage).held Stage.generation? k = some g →
        (k = i ∧ g = l.workspace.projects.latest uri + 1) ∨
          l.held Stage.generation? k = some g := by
      intro k g hg
      rcases held_of_advance hi hg with ⟨rfl, hself⟩ | hother
      · rw [hdrawn] at hself
        exact Or.inl ⟨rfl, (Option.some.inj hself).symm⟩
      · exact Or.inr hother
    constructor
    · intro k g hg
      refine Nat.le_trans ?_ (Nat.le_of_eq hlatest.symm)
      rcases hcases k g hg with ⟨_, rfl⟩ | hold
      · exact Nat.le_refl _
      · exact Nat.le_succ_of_le (h.issued k g hold)
    · intro k m g hk hm
      rcases hcases k g hk with ⟨rfl, hg⟩ | hold <;> rcases hcases m g hm with ⟨rfl, hg'⟩ | hold'
      · rfl
      · have := h.issued m g hold'
        omega
      · have := h.issued k g hold
        omega
      · exact h.distinct k m g hold hold'

theorem latest_close (uri : Uri) (l : Lifetime) (j : Nat) (closing : Closing) :
    (l.close uri j closing).workspace.projects.latest uri = l.workspace.projects.latest uri := by
  cases closing with
  | shut => exact l.workspace.projects.latest_remove uri
  | _ => rfl

theorem Numbered.step (h : l.Numbered uri) (event : Event) :
    (l.step around uri event).Numbered uri := by
  cases event with
  | opened text version => exact h.mono (fun _ _ hg => hg) rfl
  | edited edits version =>
    rw [Lifetime.step]
    split
    · exact h.mono (fun _ _ hg => hg) rfl
    · exact h
  | requested => exact h.mono (fun _ _ hg => held_request rfl hg) rfl
  | advanced i =>
    rw [Lifetime.step]
    split
    · rename_i stage hi
      exact h.advance hi
    · exact h
  | closeRequested => exact h.mono (fun _ _ hg => hg) rfl
  | closeAdvanced j =>
    rw [Lifetime.step]
    split
    · rename_i closing _
      exact h.mono (fun _ _ hg => hg) (latest_close uri l j closing)
    · exact h

theorem Numbered.run (h : l.Numbered uri) (events : List Event) :
    (l.run around uri events).Numbered uri := by
  induction events generalizing l with
  | nil => exact h
  | cons event events ih => exact ih (h.step event)

theorem numbered_start (uri : Uri) (w : Workspace) : Numbered uri { workspace := w } where
  issued := nofun
  distinct := nofun

/-! ## Behind a closing -/

/-- What holds from the moment `base` on, at which the snapshot of a closed buffer was dropped,
until the buffer is opened again. -/
structure Behind (uri : Uri) (base l : Lifetime) : Prop where
  shut : l.workspace.buffers.get? uri = none
  dropped : (l.workspace.projects.record (ProjectId.ofUri uri)).Dropped
    (base.workspace.projects.latest uri)
  grown : base.workspace.projects.latest uri ≤ l.workspace.projects.latest uri
  checked : ∀ i p, l.held Stage.checked? i = some p → base.held Stage.checked? i = some p
  sent : l.publications = base.publications ∨ ∃ i version x,
    base.held Stage.checked? i = some (version, x) ∧
    x.generation = base.workspace.projects.latest uri ∧ l.held Stage.checked? i = none ∧
    l.publications = base.publications ++ [.diagnostics uri x.diagnostics (some version)]

section Behind

variable {base : Lifetime}

/-- A step that publishes nothing, and in which no rebuild passes its second look. -/
theorem Behind.quiet {l' : Lifetime} (h : Behind uri base l)
    (hshut : l'.workspace.buffers.get? uri = none)
    (hdropped : (l'.workspace.projects.record (ProjectId.ofUri uri)).Dropped
      (base.workspace.projects.latest uri))
    (hgrown : base.workspace.projects.latest uri ≤ l'.workspace.projects.latest uri)
    (hchecked : ∀ i p, l'.held Stage.checked? i = some p → l.held Stage.checked? i = some p)
    (hpublications : l'.publications = l.publications) : Behind uri base l' := by
  refine ⟨hshut, hdropped, hgrown, fun i p hp => h.checked i p (hchecked i p hp), ?_⟩
  rw [hpublications]
  rcases h.sent with hnone | ⟨i, version, x, hi, hgeneration, hdone, hsent⟩
  · exact Or.inl hnone
  · refine Or.inr ⟨i, version, x, hi, hgeneration, ?_, hsent⟩
    rw [Option.eq_none_iff_forall_ne_some]
    intro p hp
    rw [hchecked i p hp] at hdone
    cases hdone

theorem Behind.generation_le (hbase : base.Numbered uri) (h : Behind uri base l) {i : Nat}
    {version : Int} {x : Snapshot} (hx : l.held Stage.checked? i = some (version, x)) :
    x.generation ≤ base.workspace.projects.latest uri :=
  hbase.issued i _ (held_generation_of_checked (h.checked i _ hx))

theorem publications_close (uri : Uri) (l : Lifetime) (j : Nat) (closing : Closing) :
    (l.close uri j closing).publications = l.publications := by
  cases closing <;> simp [publications, close, Closing.step, Notice.isPublication]

theorem Behind.close (h : Behind uri base l) (j : Nat) (closing : Closing) :
    Behind uri base (l.close uri j closing) := by
  refine h.quiet ?_ ?_ ?_ (fun _ _ hp => hp) (publications_close uri l j closing)
  · cases closing with
    | requested => exact Buffers.get?_close _ _
    | _ => exact h.shut
  · cases closing with
    | shut =>
      refine Projects.record_remove l.workspace.projects uri ▸ ?_
      exact .close h.grown
    | _ => exact h.dropped
  · rw [latest_close]
    exact h.grown

/-- What rebuilds do to the record of a closed buffer leaves it dropped. -/
theorem Behind.record_advance (hbase : base.Numbered uri) (h : Behind uri base l) {i : Nat}
    {stage : Stage} (hi : l.rebuilds[i]? = some stage) :
    ((l.advance around uri i stage).workspace.projects.record (ProjectId.ofUri uri)).Dropped
        (base.workspace.projects.latest uri) ∧
      base.workspace.projects.latest uri ≤
        (l.advance around uri i stage).workspace.projects.latest uri := by
  have hgrown := h.grown
  have hstep := Rebuild.step_of_closed around (r := ⟨uri, stage⟩) h.shut
  rw [Lifetime.advance]
  rcases hstep.projects with hsame | hbegin | ⟨version, x, hchecked, hcommit⟩
  · rw [hsame]
    exact ⟨h.dropped, hgrown⟩
  · rw [hbegin, Projects.record_begin, Projects.latest_begin]
    exact ⟨h.dropped.start, Nat.le_succ_of_le hgrown⟩
  · have hx := h.generation_le hbase ((held_of_stage hi).trans hchecked)
    rw [hcommit, Projects.record_commit_of_dropped h.dropped hx, Projects.latest_commit]
    exact ⟨h.dropped, hgrown⟩

theorem Behind.checked_advance (h : Behind uri base l) {i : Nat} {stage : Stage}
    (hi : l.rebuilds[i]? = some stage) {k : Nat} {p : Int × Snapshot}
    (hp : (l.advance around uri i stage).held Stage.checked? k = some p) :
    l.held Stage.checked? k = some p := by
  rcases held_of_advance hi hp with ⟨rfl, hself⟩ | hother
  · rw [held_of_stage hi]
    exact (Rebuild.step_of_closed around (r := ⟨uri, stage⟩) h.shut).checked p hself
  · exact hother

/-- A rebuild that publishes now is the newest one, so that none has published before. -/
theorem Behind.unpublished (hbase : base.Numbered uri) (h : Behind uri base l) {i : Nat}
    {version : Int} {x : Snapshot} (hx : l.held Stage.checked? i = some (version, x))
    (hlatest : l.workspace.projects.latest uri = x.generation) :
    x.generation = base.workspace.projects.latest uri ∧ l.publications = base.publications := by
  have hle := h.generation_le hbase hx
  have hgrown := h.grown
  have hnewest : x.generation = base.workspace.projects.latest uri := by omega
  refine ⟨hnewest, ?_⟩
  rcases h.sent with hnone | ⟨k, version', x', hk, hgeneration, hdone, _⟩
  · exact hnone
  · have hki : k = i := by
      refine hbase.distinct k i x'.generation (held_generation_of_checked hk) ?_
      rw [hgeneration, ← hnewest]
      exact held_generation_of_checked (h.checked i _ hx)
    rw [hki, hx] at hdone
    cases hdone

theorem Behind.advance (hbase : base.Numbered uri) (h : Behind uri base l) {i : Nat}
    {stage : Stage} (hi : l.rebuilds[i]? = some stage) :
    Behind uri base (l.advance around uri i stage) := by
  have hstep := Rebuild.step_of_closed around (r := ⟨uri, stage⟩) h.shut
  have hshut : (l.advance around uri i stage).workspace.buffers.get? uri = none := by
    rw [Lifetime.advance, hstep.buffers]
    exact h.shut
  have hpublications : (l.advance around uri i stage).publications = l.publications ++
      (Rebuild.step around l.workspace ⟨uri, stage⟩).2.2.filter Notice.isPublication :=
    List.filter_append ..
  rcases hstep.sent with hquiet | ⟨version, x, hchecked, hlatest, hdone, hsent⟩
  · rw [hquiet, List.filter_nil, List.append_nil] at hpublications
    exact h.quiet hshut (h.record_advance hbase hi).1 (h.record_advance hbase hi).2
      (fun _ _ hp => h.checked_advance hi hp) hpublications
  · have hx : l.held Stage.checked? i = some (version, x) := (held_of_stage hi).trans hchecked
    obtain ⟨hnewest, hnone⟩ := h.unpublished hbase hx hlatest
    refine ⟨hshut, (h.record_advance hbase hi).1, (h.record_advance hbase hi).2,
      fun k p hp => h.checked k p (h.checked_advance hi hp),
      Or.inr ⟨i, version, x, h.checked i _ hx, hnewest, ?_, ?_⟩⟩
    · exact (held_of_stage (getElem?_advance hi)).trans hdone
    · rw [hpublications, hsent, hnone]
      rfl

theorem Behind.step (hbase : base.Numbered uri) (h : Behind uri base l) {event : Event}
    (hevent : event.opens = false) : Behind uri base (l.step around uri event) := by
  cases event with
  | opened text version => cases hevent
  | edited edits version =>
    have hedit : l.workspace.buffers.edit? uri edits version = none := by
      rw [Buffers.edit?, h.shut]
      rfl
    rw [Lifetime.step, hedit]
    exact h
  | requested => exact h.quiet h.shut h.dropped h.grown (fun _ _ hp => held_request rfl hp) rfl
  | advanced i =>
    rw [Lifetime.step]
    split
    · rename_i stage hi
      exact h.advance hbase hi
    · exact h
  | closeRequested => exact ⟨h.shut, h.dropped, h.grown, h.checked, h.sent⟩
  | closeAdvanced j =>
    rw [Lifetime.step]
    split
    · rename_i closing _
      exact h.close j closing
    · exact h

theorem Behind.run (hbase : base.Numbered uri) (h : Behind uri base l) {events : List Event}
    (hevents : ∀ e ∈ events, e.opens = false) : Behind uri base (l.run around uri events) := by
  induction events generalizing l with
  | nil => exact h
  | cons event events ih =>
    obtain ⟨hevent, hrest⟩ := List.forall_mem_cons.mp hevents
    exact ih (h.step hbase hevent) hrest

/-- The moment at which the snapshot of a closed buffer is dropped. -/
theorem behind_close (hshut : l.workspace.buffers.get? uri = none) (j : Nat) :
    Behind uri (l.close uri j .shut) (l.close uri j .shut) where
  shut := hshut
  dropped := by
    rw [latest_close]
    refine Projects.record_remove l.workspace.projects uri ▸ ?_
    exact .close (Nat.le_refl _)
  grown := Nat.le_refl _
  checked := fun _ _ hp => hp
  sent := Or.inl rfl

end Behind

/-- Behind a closing, from the moment at which it has dropped the snapshot and until the buffer is
opened again, the buffer stays closed and no snapshot is committed. At most one rebuild publishes:
one that had found the buffer open after its run, and that carries the newest generation. -/
theorem closing_leaves_one_publication (around : Surroundings) (uri : Uri) (w : Workspace)
    (before after : List Event) (j : Nat) :
    let l := run around uri { workspace := w } before
    let last := run around uri (l.step around uri (.closeAdvanced j)) after
    l.closings[j]? = some .shut → l.workspace.buffers.get? uri = none →
    (∀ e ∈ after, e.opens = false) →
    last.workspace.buffers.get? uri = none ∧ last.workspace.projects.get? uri = none ∧
    (last.publications = l.publications ∨
      ∃ stage ∈ l.rebuilds, ∃ version x, stage.checked? = some (version, x) ∧
        x.generation = l.workspace.projects.latest uri ∧
        last.publications = l.publications ++ [.diagnostics uri x.diagnostics (some version)]) := by
  intro l last hclosing hshut hafter
  have hstep : l.step around uri (.closeAdvanced j) = l.close uri j .shut := by
    rw [step, hclosing]
  have hbase : (l.close uri j .shut).Numbered uri :=
    hstep ▸ ((numbered_start uri w).run before).step (.closeAdvanced j)
  have hlast : Behind uri (l.close uri j .shut) last := by
    rw [show last = run around uri (l.close uri j .shut) after from hstep ▸ rfl]
    exact (behind_close hshut j).run hbase hafter
  have hpublications := publications_close uri l j .shut
  refine ⟨hlast.shut, hlast.dropped.empty, ?_⟩
  rcases hlast.sent with hnone | ⟨i, version, x, hi, hgeneration, _, hsent⟩
  · exact Or.inl (hnone.trans hpublications)
  · obtain ⟨stage, hstage, hchecked⟩ := Option.bind_eq_some_iff.mp hi
    rw [latest_close] at hgeneration
    rw [hpublications] at hsent
    exact Or.inr ⟨stage, List.mem_of_getElem? hstage, version, x, hchecked, hgeneration, hsent⟩

/-- A rebuild takes its second look, and then the buffer is closed. -/
def raced : List Event :=
  [.opened Course.draft.text Course.draft.version, .requested, .advanced 0, .advanced 0,
    .advanced 0, .advanced 0, .closeRequested, .closeAdvanced 0]

/-- The diagnostics are cleared, and the rebuild goes on to its end. -/
def raceEnd : List Event := [.closeAdvanced 0, .advanced 0, .advanced 0]

theorem closing_leaves_one_publication_raced :
    let l := run Course.echo Course.draft.uri {} raced
    let last := run Course.echo Course.draft.uri
      (l.step Course.echo Course.draft.uri (.closeAdvanced 0)) raceEnd
    l.closings[0]? = some .shut ∧ (l.workspace.buffers.get? Course.draft.uri).isNone = true ∧
    last.workspace.projects.get? Course.draft.uri = none ∧
    ∃ stage ∈ l.rebuilds, ∃ version x, stage.checked? = some (version, x) ∧
      x.generation = l.workspace.projects.latest Course.draft.uri ∧
      last.publications =
        l.publications ++ [.diagnostics Course.draft.uri x.diagnostics (some version)] := by
  have h := closing_leaves_one_publication Course.echo Course.draft.uri {} raced raceEnd 0
  have hrun : (run Course.echo Course.draft.uri {} raced).closings[0]? = some .shut ∧
      ((run Course.echo Course.draft.uri {} raced).workspace.buffers.get?
        Course.draft.uri).isNone = true := by decide +kernel
  obtain ⟨_, hdropped, hsent⟩ := h hrun.1 (Option.isNone_iff_eq_none.mp hrun.2) (by decide)
  refine ⟨hrun.1, hrun.2, hdropped, hsent.resolve_left ?_⟩
  intro hsame
  exact absurd (congrArg List.length hsame) (by decide +kernel)

/-- The diagnostics of a closed buffer are cleared and then published once more. -/
theorem raced_publishes :
    let cleared := run Course.echo Course.draft.uri {}
      (raced ++ [.closeAdvanced 0, .closeAdvanced 0])
    let last := run Course.echo Course.draft.uri cleared [.advanced 0, .advanced 0]
    cleared.closings = [.cleared] ∧ cleared.workspace.buffers.text? Course.draft.uri = none ∧
    cleared.publications.length = 0 ∧ last.publications.length = 1 ∧
    last.workspace.buffers.text? Course.draft.uri = none := by
  decide +kernel

end Lifetime

end AsmLens
