import Triage.Outcome
import Triage.Recording
import Triage.Registry

/-!
Running a command to its end.  A run goes through its phases one step at a time, so that what others
do to the registry and to the system may come between any two of its steps.
-/

namespace Triage

/-- The system that a run runs its child on, with states `σ`. -/
structure System (σ : Type) where
  now : σ → Time
  launch : Command → σ → Except Command.LaunchFault Pid × σ
  ending? : Pid → σ → Except OsError (Option Ending)
  reap : Pid → σ → σ
  killGroup : Pid → σ → σ
  /-- Whether all that a child and those that it left behind print is recorded. -/
  silent : Pid → σ → Bool
  recording : Pid → σ → Recording

/-- Cancels a registry and kills the groups of its live children; gives their number. -/
def System.cancel (sys : System σ) (r : Registry) (s : σ) : Nat × Registry × σ :=
  (r.live.length, r.cancel, r.live.foldl (fun s child => sys.killGroup child s) s)

namespace Run

inductive Phase
  | admission
  | launching
  | registering (child : Pid)
  /-- The registry did not take the child: it is to be killed. -/
  | refusing (child : Pid)
  | starting (child : Pid)
  | waiting (child : Pid) (deadline : Option Time)
  /-- The child runs past its deadline: it is to be killed. -/
  | overdue (child : Pid)
  /-- The child cannot be waited for: it is to be killed. -/
  | failing (child : Pid) (fault : Command.LaunchFault)
  /-- The child has ended, by itself or not; others may still print until the moment comes. -/
  | draining (child : Pid) (ending : Option Ending) (until_ : Time)
  | leaving (child : Pid) (result : Except Command.LaunchFault Outcome)
  | ended (result : Except Command.LaunchFault Outcome)
  /-- The clock could not hold the deadline. -/
  | crashed (child : Pid)
  deriving Repr

/-- How long a run sleeps between two looks at its child. -/
def pollInterval : Duration := Clock.millis 25

/-- How long a run waits for what is still printed after its child has ended. -/
def grace : Duration := Clock.seconds 1

inductive Poll
  | ended (e : Ending)
  | overdue
  | sleep (t : Time)
  deriving DecidableEq, Repr

/-- An ending counts even past the deadline; then the deadline; else the run sleeps, but not past
it. -/
def Poll.of (ending : Option Ending) (now deadline : Time) : Poll :=
  match ending with
  | some e => .ended e
  | none =>
    if deadline ≤ now then .overdue else .sleep (min (pollInterval) (deadline - now))

inductive Pause
  | none
  | until_ (t : Time)
  | child (pid : Pid)
  | silent (pid : Pid) (limit : Time)
  deriving DecidableEq, Repr

variable {σ : Type} (sys : System σ)

def pause (s : σ) : Phase → Pause
  | .waiting child deadline =>
    match sys.ending? child s, deadline with
    | .ok _, none => .child child
    | .ok ending, some deadline =>
      match Poll.of ending (sys.now s) deadline with
      | .sleep t => .until_ (sys.now s + t)
      | _ => .none
    | .error _, _ => .none
  | .draining child _ limit => .silent child limit
  | _ => .none

def outcomeOf (r : Recording) (ending : Option Ending) : Outcome :=
  .of ending r.outputText r.errorsText

/-- One step.  A phase that cannot go on stays as it is. -/
def step (c : Command) (phase : Phase) (reg : Registry) (s : σ) : Phase × Registry × σ :=
  match phase with
  | .admission =>
    if reg.cancelled then (.ended (.error (.cancelled c.program)), reg, s)
    else (.launching, reg, s)
  | .launching =>
    match sys.launch c s with
    | (.ok child, s) => (.registering child, reg, s)
    | (.error f, s) => (.ended (.error f), reg, s)
  | .registering child =>
    match reg.register? child with
    | some reg => (.starting child, reg, s)
    | none => (.refusing child, reg, s)
  | .refusing child =>
    (.ended (.error (.cancelled c.program)), reg, sys.reap child (sys.killGroup child s))
  | .starting child =>
    match c.timeout with
    | none => (.waiting child none, reg, s)
    | some d =>
      match Clock.deadline? (sys.now s) d with
      | some t => (.waiting child (some t), reg, s)
      | none => (.crashed child, reg, s)
  | .waiting child none =>
    match sys.ending? child s with
    | .ok (some e) =>
      (.draining child (some e) (sys.now s + grace), reg, sys.reap child s)
    | .ok none => (phase, reg, s)
    | .error f => (.failing child (.lost false f), reg, s)
  | .waiting child (some deadline) =>
    match sys.ending? child s with
    | .ok ending =>
      match Poll.of ending (sys.now s) deadline with
      | .ended e =>
        (.draining child (some e) (sys.now s + grace), reg, sys.reap child s)
      | .overdue => (.overdue child, reg, s)
      | .sleep _ => (phase, reg, s)
    | .error f => (.failing child (.lost true f), reg, s)
  | .overdue child =>
    let s := sys.reap child (sys.killGroup child s)
    (.draining child none (sys.now s + grace), reg, s)
  | .failing child f => (.leaving child (.error f), reg, sys.reap child (sys.killGroup child s))
  | .draining child ending limit =>
    if sys.silent child s || limit ≤ sys.now s then
      (.leaving child (.ok (outcomeOf (sys.recording child s) ending)), reg, s)
    else (phase, reg, s)
  | .leaving child result => (.ended result, reg.unregister child, s)
  | .ended _ | .crashed _ => (phase, reg, s)

end Run

structure Run where
  command : Command
  phase : Run.Phase := .admission

end Triage
