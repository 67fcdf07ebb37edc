import Triage.Machine.Basic

namespace Triage.Machine

def stepTime : Duration := Clock.micros 1

def forkTime : Duration := Clock.micros 300

def quickForkTime : Duration := Clock.micros 50

def partTime : Duration := Clock.micros 20

def startTime : Duration := Clock.micros 700

def spawn (m : Machine) (after : Duration) (parent : Pid) (group : Option Pid) (cwd : Location)
    (fds : List (Nat × Nat)) (shell : Shell.State) (frames : List Frame) : Pid × Machine :=
  let pid := m.nextPid
  let p : Process :=
    { pid, parent, group := group.getD pid, cwd, fds, wake := .at_ (m.now + after), shell,
      frames }
  (pid, { m with processes := m.processes ++ [p], nextPid := pid + 1 })

def fork (m : Machine) (after : Duration) (p : Process) (fds : List (Nat × Nat))
    (frames : List Frame) : Pid × Machine :=
  let (child, m) := m.spawn after p.pid (some p.group) p.cwd fds { p.shell with traps := [] } frames
  match m.process? child with
  | some q => (child, m.update { q with ignored := p.ignored })
  | none => (child, m)

/-- Whether somebody may still ask how a process ended. -/
def isAwaited (m : Machine) (p : Process) : Bool :=
  p.parent = 0 || m.processes.any fun q => q.pid = p.parent && q.live

def sweep (m : Machine) : Machine :=
  { m with processes := m.processes.filter fun p => p.live || m.isAwaited p }

/-- Ends a process; the children that it leaves behind go to the first process. -/
def finish (m : Machine) (pid : Pid) (e : Ending) : Machine :=
  let processes := m.processes.map fun p =>
    if p.pid = pid then { p with ending := some e, wake := .never, fds := [], frames := [] }
    else if p.parent = pid then { p with parent := init }
    else p
  sweep { m with processes }

def forget (m : Machine) (pid : Pid) : Machine :=
  { m with processes := m.processes.filter fun p => p.pid ≠ pid || p.live }

/-- A signal comes for which a process has a trap: it is run after what the process is at, unless
that is only waiting. -/
def interrupt (m : Machine) (n : Nat) (p : Process) : Machine :=
  let p := { p with pending := p.pending ++ [n] }
  match p.frames with
  | .rest _ _ :: frames =>
    m.update { p.withStatus (Ending.killed n).code with frames, wake := .at_ m.now }
  | _ => m.update p

def signal (m : Machine) (n : Nat) (p : Process) : Machine :=
  if n = Signal.kill then m.finish p.pid (.killed n)
  else if n = 0 || p.ignored.contains n then m
  else if (p.shell.traps.lookup n).isSome then m.interrupt n p
  else if Signal.harmless.contains n then m
  else if Signal.stopping.contains n then m.update { p with wake := .never }
  else m.finish p.pid (.killed n)

def signalAll (m : Machine) (n : Nat) (p : Process → Bool) : Machine :=
  (m.processes.filter fun q => q.live && p q).foldl (fun m q => m.signal n q) m

def killGroup (m : Machine) (group : Pid) : Machine :=
  m.signalAll Signal.kill (·.group = group)

def endingOf? (m : Machine) (pid : Pid) : Option Ending := (m.process? pid).bind (·.ending)

end Triage.Machine
