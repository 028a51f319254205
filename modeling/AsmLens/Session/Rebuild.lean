import AsmLens.Buffer.Store
import AsmLens.Session.Notice
import AsmLens.Snapshot.Store

/-!
# Rebuilds

A rebuild assembles the text of a buffer and commits the snapshot of the run. Rebuilds run beside
the editor's messages and beside each other, so a rebuild is a sequence of stages, and each stage
is one step on the stores that all of them share. Between two steps anything may happen to the
stores: the buffer may be edited or closed, and other rebuilds may start or finish.

A rebuild ends early when its buffer is closed, before it starts or before it commits. It
publishes diagnostics only if no newer rebuild of its buffer has started.
-/

namespace AsmLens

/-- What becomes of a run of the assembler: a result, or nothing at all when it crashes. -/
inductive Outcome where
  | finished (result : Except AssemblerError AssemblyOutput)
  | crashed

/-- What the surroundings of a session provide. -/
structure Surroundings where
  /-- What becomes of a run. -/
  outcome : AssemblyRequest → Outcome
  /-- Whether a run waits until it is let go on. -/
  waits : AssemblyRequest → Bool
  /-- The text of a file on disk. -/
  findFile : Text → Option Text

structure Workspace where
  buffers : Buffers := {}
  projects : Projects := {}

inductive Stage where
  /-- It has not looked at its buffer yet. -/
  | queued
  /-- It has read its buffer. -/
  | fetched (buffer : Buffer)
  /-- It has a generation, and the assembler runs. -/
  | running (buffer : Buffer) (generation : Nat)
  /-- The run has ended. -/
  | assembled (version : Int) (snapshot : Snapshot)
  /-- Its buffer was still open after the run. -/
  | rechecked (version : Int) (snapshot : Snapshot)
  /-- It has offered its snapshot to the store. -/
  | committed (version : Int) (snapshot : Snapshot)
  /-- It has ended. -/
  | finished

structure Rebuild where
  uri : Uri
  stage : Stage := .queued

def Buffer.request (b : Buffer) : AssemblyRequest := ⟨b.text, b.path?⟩

namespace Rebuild

def snapshotOf (around : Surroundings) (uri : Uri) (generation : Nat) (buffer : Text) :
    Outcome → Snapshot
  | .finished (.ok output) => Snapshot.ofOutput uri generation buffer output around.findFile
  | .finished (.error e) => { uri, generation, failure := some e.message }
  | .crashed => { uri, generation }

/-- The next stage of a rebuild, with the stores behind it and what it tells the editor. -/
def step (around : Surroundings) (w : Workspace) (r : Rebuild) :
    Workspace × Stage × List Notice :=
  match r.stage with
  | .queued =>
    match w.buffers.get? r.uri with
    | some b => (w, .fetched b, [])
    | none => (w, .finished, [])
  | .fetched b =>
    let (generation, projects) := w.projects.begin r.uri
    ({ w with projects := projects }, .running b generation, [])
  | .running b generation =>
    let s := snapshotOf around r.uri generation b.text (around.outcome b.request)
    (w, .assembled b.version s, [])
  | .assembled version s =>
    if (w.buffers.get? r.uri).isSome then (w, .rechecked version s, []) else (w, .finished, [])
  | .rechecked version s =>
    ({ w with projects := w.projects.commit s }, .committed version s, [])
  | .committed version s =>
    if w.projects.isLatest r.uri s.generation then
      (w, .finished, [.diagnostics r.uri s.diagnostics (some version)])
    else (w, .finished, [])
  | .finished => (w, .finished, [])

def steps (around : Surroundings) : Nat → Workspace → Rebuild → Workspace × Rebuild × List Notice
  | 0, w, r => (w, r, [])
  | n + 1, w, r =>
    let (w, stage, sent) := r.step around w
    let (w, r, more) := steps around n w { r with stage := stage }
    (w, r, sent ++ more)

/-- A rebuild up to the run of the assembler. -/
def start (around : Surroundings) (w : Workspace) (r : Rebuild) : Workspace × Rebuild :=
  let (w, r, _) := steps around 2 w r
  (w, r)

/-- A rebuild from the run of the assembler to its end. -/
def finish (around : Surroundings) (w : Workspace) (r : Rebuild) : Workspace × List Notice :=
  let (w, _, sent) := steps around 4 w r
  (w, sent)

end Rebuild

end AsmLens
