import Triage.FileTree
import Triage.Machine.Signal
import Triage.Outcome
import Triage.Recording
import Triage.Shell.State
import Triage.Text.Tail

/-!
A machine: its files, its processes and what connects them.  A process is a list of frames, the next
one first; a frame that cannot go on stays where it is until what it waits for has happened.
-/

namespace Triage

open Shell (Cmd)

inductive Channel
  | file (at_ : Location)
  | dir
  | device (d : Device)
  | readEnd (pipe : Nat)
  | writeEnd (pipe : Nat)
  | recorded (child : Pid) (stream : Stream)
  deriving DecidableEq, Repr

structure OpenFile where
  channel : Channel
  offset : Nat := 0
  atEnd : Bool := false
  deriving DecidableEq, Repr

structure Pipe where
  chunks : List Bytes := []
  size : Nat := 0
  deriving Repr

namespace Pipe

def capacity : Nat := 65536

/-- A write of at most this many bytes is never cut in two. -/
def whole : Nat := 4096

def add (p : Pipe) (bs : Bytes) : Pipe := ⟨bs :: p.chunks, p.size + bs.length⟩

def content (p : Pipe) : Bytes := p.chunks.reverse.flatten

def ofContent (bs : Bytes) : Pipe := if bs.isEmpty then {} else ⟨[bs], bs.length⟩

end Pipe

inductive Wake
  | at_ (t : Time)
  | child (pid : Pid)
  | children (pids : List Pid)
  | readable (file : Nat)
  | writable (file : Nat) (size : Nat)
  | silent (child : Pid)
  | never
  deriving Repr

/-- Who prints: it decides what is said if that fails. -/
inductive Voice
  | builtin (name : String)
  | program (name : String)
  | message
  deriving DecidableEq, Repr

inductive Frame
  | run (c : Cmd)
  /-- Starts a program in place of this one, looked for in the directories of `path`; a message
  names it by `label`. -/
  | start (label program : String) (args : List String) (env : Environment) (path : String)
  | ifOk (c : Cmd)
  | ifFail (c : Cmd)
  | branch (yes no : Cmd)
  | loopTest (negated : Bool) (cond body : Cmd) (last : Nat)
  | loopNext (negated : Bool) (cond body : Cmd)
  | forNext (name : String) (values : List String) (body : Cmd)
  | invert
  | settle (status : Nat)
  | guarded
  | restoreFiles (saved : List (Nat × Option Nat))
  | restoreVars (saved : List (String × Option Shell.Var))
  | leave (params : List String)
  | await (pids : List Pid) (announced : Bool)
  | rest (pids : List Pid) (announced : Bool)
  | substitute (child : Pid) (c : Cmd)
  | print (voice : Voice) (fd : Nat) (bytes : Bytes)
  | readLine (raw : Bool) (names : List String) (sofar : Bytes)
  | readScript (fd : Nat) (sofar : List Bytes)
  | nap (until_ : Time)
  | copy (fd : Nat)
  | copyFile (path : String)
  | tail (part : Text.Tail) (fd : Nat) (sofar : List Bytes)
  | tailFile (part : Text.Tail) (path : String)
  | trap (signal : Nat)
  | exit (code : Nat)

structure Process where
  pid : Pid
  /-- The process that learns how this one ends; 0 is outside the machine. -/
  parent : Pid
  group : Pid
  cwd : Location
  fds : List (Nat × Nat)
  wake : Wake
  shell : Shell.State
  frames : List Frame
  /-- Signals that do nothing to it, nor to the programs that it becomes or starts. -/
  ignored : List Nat := []
  /-- Signals with a trap that has not been run yet. -/
  pending : List Nat := []
  ending : Option Ending := none

structure Machine where
  tree : FileTree
  now : Time
  processes : List Process := []
  files : Array OpenFile := #[]
  pipes : Array Pipe := #[]
  recordings : List (Pid × Recording) := []
  nextPid : Pid

namespace Process

def live (p : Process) : Bool := p.ending.isNone

def isLast (p : Process) : Bool := p.frames.isEmpty && p.shell.traps.isEmpty

def push (p : Process) (fs : List Frame) : Process := { p with frames := fs ++ p.frames }

def withStatus (p : Process) (status : Nat) : Process :=
  { p with shell := { p.shell with status } }

/-- The descriptors from here on are not passed on to other programs. -/
def privateFd : Nat := 10

end Process

namespace Machine

def boot (tree : FileTree) : Machine := { tree, now := Clock.seconds 86400, nextPid := 1000 }

/-- The first process of a machine, which takes the children of those that end before them. -/
def init : Pid := 1

def process? (m : Machine) (pid : Pid) : Option Process := m.processes.find? (·.pid = pid)

def update (m : Machine) (p : Process) : Machine :=
  { m with processes := m.processes.map fun q => if q.pid = p.pid then p else q }

def hasEnded (m : Machine) (pid : Pid) : Bool :=
  match m.process? pid with
  | some p => !p.live
  | none => true

def holds (m : Machine) (p : Channel → Bool) : Bool :=
  m.processes.any fun q => q.live && q.fds.any fun (_, file) =>
    match m.files[file]? with
    | some f => p f.channel
    | none => false

def hasReader (m : Machine) (pipe : Nat) : Bool := m.holds (· == .readEnd pipe)

def hasWriter (m : Machine) (pipe : Nat) : Bool := m.holds (· == .writeEnd pipe)

def isSilent (m : Machine) (child : Pid) : Bool :=
  !m.holds fun
    | .recorded c _ => c == child
    | _ => false

def recording (m : Machine) (child : Pid) : Recording := (m.recordings.lookup child).getD {}

/-- What is written to a stream of a child is read before anything else happens. -/
def record (m : Machine) (child : Pid) (stream : Stream) (bs : Bytes) : Machine :=
  { m with
    recordings := m.recordings.map fun (c, r) => (c, if c = child then r.readAll stream bs else r) }

def addFile (m : Machine) (f : OpenFile) : Nat × Machine :=
  (m.files.size, { m with files := m.files.push f })

def addPipe (m : Machine) : Nat × Nat × Machine :=
  let pipe := m.pipes.size
  let m := { m with pipes := m.pipes.push {} }
  let (r, m) := m.addFile { channel := .readEnd pipe }
  let (w, m) := m.addFile { channel := .writeEnd pipe }
  (r, w, m)

def addText (m : Machine) (bs : Bytes) : Nat × Machine :=
  { m with pipes := m.pipes.push (.ofContent bs) }.addFile { channel := .readEnd m.pipes.size }

end Machine
end Triage
