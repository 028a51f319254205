import AsmLens.Session.Basic

/-!
# Carrying a session on

Between messages a session carries on what they have left behind until nothing is left to do.
Rebuilds that are ready start in the order in which they were caused, and end in the same order.
Then the clock moves on to the next deadline. A rebuild that is held stays where it is, and the
clock stands still as long as there is one.
-/

namespace AsmLens.Session

/-- Start a job if it has not started, and keep it otherwise. -/
def startIfQueued (around : Surroundings) (s : Session) (j : Job) : Session :=
  match j.rebuild.stage with
  | .queued => s.startJob around j.rebuild
  | _ => { s with jobs := s.jobs ++ [j] }

/-- Bring a job to its end unless it is held. -/
def finishUnlessHeld (around : Surroundings) (s : Session) (j : Job) : Session :=
  if j.held then { s with jobs := s.jobs ++ [j] }
  else
    let (w, sent) := j.rebuild.finish around s.workspace
    { s with workspace := w, notices := s.notices ++ sent }

/-- Start every job that is ready, and then bring every job that is not held to its end. -/
def runJobs (around : Surroundings) (s : Session) : Session :=
  let s := s.jobs.foldl (startIfQueued around) { s with jobs := [] }
  s.jobs.foldl (finishUnlessHeld around) { s with jobs := [] }

def nextDeadline? (s : Session) : Option Nat := (s.timers.map (·.deadline)).min?

def isCurrent (s : Session) (t : Timer) : Bool := s.editCount t.uri == t.edit

/-- Move the clock to a deadline. The buffers whose last edit has waited until then are to be
rebuilt. -/
def advance (s : Session) (deadline : Nat) : Session :=
  let due := s.timers.filter (·.deadline == deadline)
  let s := { s with clock := deadline, timers := s.timers.filter (·.deadline != deadline) }
  ((due.filter s.isCurrent).map (·.uri)).foldl enqueue s

/-- Carry on at one deadline after another, until there is reason to stop. Every deadline ends at
least one timer, so the number of timers is fuel enough. -/
def passTime (around : Surroundings) (stop : Session → Bool) : Nat → Session → Session
  | 0, s => s
  | fuel + 1, s =>
    if stop s || !s.jobs.isEmpty then s
    else match s.nextDeadline? with
      | some deadline => passTime around stop fuel ((s.advance deadline).runJobs around)
      | none => s

/-- Carry the session on until there is reason to stop or nothing is left to do. -/
def settleUntil (around : Surroundings) (stop : Session → Bool) (s : Session) : Session :=
  passTime around stop s.timers.length (s.runJobs around)

def settle (around : Surroundings) (s : Session) : Session :=
  s.settleUntil around fun _ => false

/-- How often diagnostics have been sent since the session was drained. -/
def publications (s : Session) : Nat := (s.notices.filter fun n => n.uri?.isSome).length

def release (s : Session) : Session :=
  { s with jobs := s.jobs.map fun j => { j with held := false } }

/-- Take what the session has said and asked since this was done last. -/
def drain (s : Session) : (List Notice × List AssemblerCall) × Session :=
  ((s.notices, s.calls), { s with notices := [], calls := [] })

end AsmLens.Session
