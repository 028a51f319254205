import AsmLens.Snapshot.Basic

/-!
# The latest snapshot of each buffer

Every rebuild of a buffer is given a number, its generation, when it starts. The store keeps the
snapshot of the newest generation that has been committed. A rebuild that finishes late does not
replace the result of a newer one, and a rebuild that was started before its buffer was closed
is never committed afterwards. Numbers go on across closing and opening, so these two rules are
enough to keep the sessions of a buffer apart.
-/

namespace AsmLens

/-- What the store keeps for one project: the generation handed out last, the generation at the
last closing, and the committed snapshot. -/
structure ProjectRecord where
  generation : Nat := 0
  closedAt : Option Nat := none
  snapshot : Option Snapshot := none

namespace ProjectRecord

def start (r : ProjectRecord) : ProjectRecord := { r with generation := r.generation + 1 }

/-- Whether a snapshot of this generation may be committed: it was started after the last
closing and it is newer than the committed one. -/
def accepts (r : ProjectRecord) (generation : Nat) : Bool :=
  (match r.closedAt with
    | some closed => closed < generation
    | none => true) &&
  (match r.snapshot with
    | some current => current.generation < generation
    | none => true)

def close (r : ProjectRecord) : ProjectRecord :=
  { r with closedAt := some r.generation, snapshot := none }

end ProjectRecord

structure Projects where
  records : List (ProjectId × ProjectRecord) := []

namespace Projects

def record (s : Projects) (id : ProjectId) : ProjectRecord :=
  match s.records.find? (·.1 == id) with
  | some (_, r) => r
  | none => {}

def put (s : Projects) (id : ProjectId) (r : ProjectRecord) : Projects :=
  ⟨(id, r) :: s.records.filter (·.1 != id)⟩

/-- Start a rebuild: its generation, and the store that has handed it out. -/
def begin (s : Projects) (uri : Uri) : Nat × Projects :=
  let id := ProjectId.ofUri uri
  let r := (s.record id).start
  (r.generation, s.put id r)

/-- The generation handed out last for a buffer, zero before the first. -/
def latest (s : Projects) (uri : Uri) : Nat := (s.record (ProjectId.ofUri uri)).generation

def isLatest (s : Projects) (uri : Uri) (generation : Nat) : Bool := s.latest uri == generation

/-- Commit a snapshot. There is no new store when it comes too late. -/
def commit? (s : Projects) (snapshot : Snapshot) : Option Projects :=
  let id := snapshot.id
  let r := s.record id
  if r.accepts snapshot.generation then some (s.put id { r with snapshot := some snapshot })
  else none

/-- The store after an attempt to commit a snapshot. -/
def commit (s : Projects) (snapshot : Snapshot) : Projects := (s.commit? snapshot).getD s

def get? (s : Projects) (uri : Uri) : Option Snapshot :=
  (s.record (ProjectId.ofUri uri)).snapshot

def remove (s : Projects) (uri : Uri) : Projects :=
  let id := ProjectId.ofUri uri
  s.put id (s.record id).close

def size (s : Projects) : Nat := (s.records.filter fun (_, r) => r.snapshot.isSome).length

end Projects

end AsmLens
