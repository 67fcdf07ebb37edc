import Triage.Check
import Triage.Machine.Launch

/-!
Jobs that run side by side on one machine: runs of commands, checks of files and naps.  Whatever can
go on first does: a job, or a process of the machine.
-/

namespace Triage

inductive Job.Work
  | run (registry : Nat) (run : Run)
  | check (registry : Nat) (settings : Settings) (stage : Check.Stage)
  | nap (until_ : Time) (answer : Answer)

structure Job where
  work : Job.Work
  since : Time

namespace Job

def result? (j : Job) : Option (Except Command.LaunchFault Outcome) :=
  match j.work with
  | .run _ ⟨_, .ended result⟩ => some result
  | _ => none

/-- What a check or a nap came to, on a machine whose clock shows `now`. -/
def answer? (now : Time) (j : Job) : Option Answer :=
  match j.work with
  | .check _ _ stage => stage.answer?
  | .nap t answer => if t ≤ now then some answer else none
  | _ => none

def settled (now : Time) (j : Job) : Bool :=
  j.result?.isSome || (j.answer? now).isSome ||
    match j.work with
    | .run _ ⟨_, .crashed _⟩ => true
    | _ => false

end Job

structure Session where
  machine : Machine
  registries : Array Registry := #[{}]
  jobs : Array Job := #[]
  here : Location
  inherited : Environment := []

namespace Session

def registry (s : Session) (i : Nat) : Registry := (s.registries[i]?).getD {}

def setRegistry (s : Session) (i : Nat) (r : Registry) : Session :=
  { s with registries := s.registries.setIfInBounds i r }

def addRegistry (s : Session) : Nat × Session :=
  (s.registries.size, { s with registries := s.registries.push {} })

def start (tree : FileTree) (here : Location) (inherited : Environment) : Session :=
  { machine := .boot tree, here, inherited }

def beginTime : Duration := Clock.micros 100

def add (s : Session) (work : Job.Work) : Nat × Session :=
  (s.jobs.size, { s with jobs := s.jobs.push ⟨work, s.machine.now + beginTime⟩ })

def system (s : Session) : System Machine := Machine.system s.here s.inherited

/-- Cancels a registry and kills the groups of its children; gives their number. -/
def cancel (s : Session) (i : Nat) : Nat × Session :=
  let (n, r, machine) := s.system.cancel (s.registry i) s.machine
  (n, { s.setRegistry i r with machine })

/-- When a job goes on, if nothing else happens before. -/
def readyAt (s : Session) (j : Job) : Option Time :=
  let m := s.machine
  let pause := match j.work with
    | .run _ r => Run.pause s.system m r.phase
    | .check _ _ stage => Check.pause s.system m stage
    | .nap t _ => .until_ t
  if j.settled m.now then none
  else match pause with
    | .none => some (max j.since m.now)
    | .until_ t => some (max t m.now)
    | .child pid => if m.hasEnded pid then some m.now else none
    | .silent pid limit => some (if m.isSilent pid then m.now else max limit m.now)

/-- One step of a job: what it is at after it, and the registry and the machine that it leaves. -/
def stepWork (s : Session) : Job.Work → Job.Work × Nat × Registry × Machine
  | .run i r =>
    let (phase, reg, m) := Run.step s.system r.command r.phase (s.registry i) s.machine
    (.run i { r with phase }, i, reg, m)
  | .check i settings stage =>
    let (stage, reg, m) := Check.step s.system settings stage (s.registry i) s.machine
    (.check i settings stage, i, reg, m)
  | .nap t answer => (.nap t answer, 0, s.registry 0, s.machine)

def stepJob (s : Session) (i : Nat) (j : Job) : Session :=
  let (work, registry, r, machine) := s.stepWork j.work
  let since := machine.now + Machine.stepTime
  { s with machine, jobs := s.jobs.setIfInBounds i { work, since } }.setRegistry registry r

/-- Of two jobs the one that can go on first, and when; `best` is the earlier one in the list. -/
def sooner (s : Session) (best : Option (Time × Nat × Job)) : Job × Nat → Option (Time × Nat × Job)
  | (j, i) =>
    match s.readyAt j, best with
    | some t, some (u, _) => if t < u then some (t, i, j) else best
    | some t, none => some (t, i, j)
    | none, best => best

def nextJob? (s : Session) : Option (Time × Nat × Job) :=
  s.jobs.toList.zipIdx.foldl s.sooner none

/-- What happens next, unless it happens after `limit`. -/
def turn? (s : Session) (limit : Option Time) : Option Session :=
  let allowed (t : Time) : Bool := match limit with
    | some l => t ≤ l
    | none => true
  let job (t : Time) (i : Nat) (j : Job) : Session :=
    { s with machine := { s.machine with now := max s.machine.now t } }.stepJob i j
  match s.nextJob?, s.machine.next? with
  | none, none => none
  | some (t, i, j), none => if allowed t then some (job t i j) else none
  | none, some (u, p) => if allowed u then some { s with machine := s.machine.step u p } else none
  | some (t, i, j), some (u, p) =>
    if t ≤ u then (if allowed t then some (job t i j) else none)
    else if allowed u then some { s with machine := s.machine.step u p }
    else none

/-- More turns than any session takes. -/
def turns : Nat := Nat.pow 2 40

def runUntil (stop : Session → Bool) : (fuel : Nat) → Session → Session
  | 0, s => s
  | fuel + 1, s =>
    if stop s then s
    else match s.turn? none with
      | some s => runUntil stop fuel s
      | none => s

def runJob (s : Session) (i : Nat) : Session :=
  s.runUntil (fun s => (s.jobs[i]?.map (·.settled s.machine.now)).getD true) turns

def runCommand (s : Session) (registry : Nat) (c : Command) :
    Option (Except Command.LaunchFault Outcome) × Session :=
  let (i, s) := s.add (.run registry { command := c })
  let s := s.runJob i
  (s.jobs[i]?.bind Job.result?, s)

def checkFile (s : Session) (registry : Nat) (settings : Settings) (path : String) :
    Option Answer × Session :=
  let (i, s) := s.add (.check registry settings (Check.start settings s.here.path path))
  let s := s.runJob i
  (s.jobs[i]?.bind (·.answer? s.machine.now), s)

def idle? (q : Schedule Nat) : Option Nat := q.workers.findIdx? (·.isIdle)

/-- What the task of a worker came to. -/
def answerOf? (s : Session) : Worker Nat → Option (Task × Answer)
  | .checking t job => ((s.jobs[job]?).bind (·.answer? s.machine.now)).map (t, ·)
  | _ => none

def finished? (s : Session) (q : Schedule Nat) : Option (Nat × Task × Answer) :=
  q.workers.zipIdx.findSome? fun (w, i) => (s.answerOf? w).map (i, ·)

/-- What comes next while the collector waits: a worker begins with a task or is through with it,
or the jobs go on, or the clock does. -/
def goOn (work : Session → String → Job.Work) (deadline : Time) (s : Session) (q : Schedule Nat) :
    Session × Schedule Nat :=
  match idle? q, q.queue with
  | some w, t :: _ =>
    let (job, s) := s.add (work s t.file)
    (s, ((q.assign 0 w t).look w t).check w t job)
  | _, _ =>
    match s.finished? q with
    | some (w, t, answer) => (s, (q.deliver w (answer.finding t.file)).release w)
    | none =>
      match s.turn? (some deadline) with
      | some s => (s, q)
      | none => ({ s with machine := { s.machine with now := max s.machine.now deadline } }, q)

/-- One step of a batch: the collector goes first. -/
def stepBatch (work : Session → String → Job.Work) (registry : Nat) (deadline : Time)
    (s : Session) (q : Schedule Nat) : Session × Schedule Nat :=
  match q.collector with
  | .done _ => (s, q)
  | .late => (s, q.giveUp)
  | .abandoning => ((s.cancel registry).2, q.stop .ceiling)
  | .receiving =>
    if q.full then (s, q.stop .complete)
    else if !q.mailbox.isEmpty then (s, q.receive)
    else if !q.held then (s, q.stop .deserted)
    else if deadline ≤ s.machine.now then (s, q.timeOut)
    else goOn work deadline s q

/-- Collects what `work` finds about the files until the deadline; then the batch is given up and
the registry cancelled. -/
def collectBatch (work : Session → String → Job.Work) (registry : Nat) (deadline : Time) :
    (fuel : Nat) → Session → Schedule Nat → Session × Schedule Nat
  | 0, s, q => (s, q)
  | fuel + 1, s, q =>
    match q.collector with
    | .done _ => (s, q)
    | _ =>
      let (s, q) := stepBatch work registry deadline s q
      collectBatch work registry deadline fuel s q

/-- Runs a batch with at most `workers` jobs at a time; none if the turns run out before the
collector has stopped. -/
def runBatch (s : Session) (work : Session → String → Job.Work) (registry workers : Nat)
    (deadline : Time) (files : List String) : Option (Batch × Session) :=
  if files.isEmpty then some (⟨[], 0⟩, s)
  else
    let (s, q) := s.collectBatch work registry deadline turns (.start workers files)
    q.returned?.map (·, s)

end Session
end Triage
