import Triage.Machine.Execution
import Triage.Run

namespace Triage.Machine

def workingDir (m : Machine) (here : Location) (c : Command) : Except OsError Location :=
  match c.workingDir with
  | none => .ok here
  | some path =>
    match m.tree.find here path with
    | .ok (l, .dir) => .ok l
    | .ok _ => .error .notDirectory
    | .error e => .error e

def addChild (m : Machine) (cwd : Location) (capture : Capture) : Pid × Machine :=
  let (input, m) := m.addFile { channel := .device .null }
  let (out, m) := m.addFile { channel := .recorded m.nextPid .output }
  let (err, m) := m.addFile { channel := .recorded m.nextPid .errors }
  let shell : Shell.State := { name := "", self := m.nextPid }
  let (child, m) := m.spawn forkTime 0 none cwd [(0, input), (1, out), (2, err)] shell []
  (child, { m with recordings := (child, { capture }) :: m.recordings })

def launch (here : Location) (inherited : Environment) (c : Command) (m : Machine) :
    Except Command.LaunchFault Pid × Machine :=
  match c.environment inherited with
  | .error f => (.error (.searchPath f), m)
  | .ok env =>
    if c.holdsNul env then (.error (.nulInText c.program), m)
    else match m.workingDir here c with
      | .error e => (.error (.refused c.program e), m)
      | .ok cwd =>
        match programNamed m.tree cwd ((env.lookup "PATH").getD defaultPath) c.program with
        | .error e => (.error (.refused c.program e), m)
        | .ok tool =>
          let (child, m) := m.addChild cwd c.capture
          match m.process? child with
          | some p => (.ok child, m.startTool p tool c.program c.args env)
          | none => (.ok child, m)

/-- A machine as the system on which commands run. -/
def system (here : Location) (inherited : Environment) : System Machine where
  now := Machine.now
  launch := launch here inherited
  ending? child m := .ok (m.endingOf? child)
  reap child m := m.forget child
  killGroup child m := m.killGroup child
  silent child m := m.isSilent child
  recording child m := m.recording child

end Triage.Machine
