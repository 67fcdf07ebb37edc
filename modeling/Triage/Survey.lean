import Triage.Artifact
import Triage.Discovery
import Triage.Report
import Triage.Session

namespace Triage.Survey

inductive Fault
  | setup (cause : SetupFault)
  | clock
  deriving DecidableEq, Repr

def work (settings : Settings) (s : Session) (file : String) : Job.Work :=
  .check 0 settings (Check.start settings s.here.path file)

def reportOf (b : Batch) : Report := (Report.ofFindings b.findings).withShortfall b.shortfall

def prepare (settings : Settings) (t : FileTree) (here : Location) :
    Except SetupFault (Settings × List String) :=
  (settings.validate t here).map fun settings => (settings, Discovery.collect t here settings)

/-- How files are checked by settings, until the batch is given up; none if that does not end. -/
abbrev Checks := Settings → List String → (deadline : Time) → Session → Option (Batch × Session)

/-- Checks the files side by side, on a machine that runs `host` workers unless told otherwise. -/
def checkAll (host : Nat) : Checks := fun settings files deadline s =>
  s.runBatch (work settings) 0 (settings.workerCount host) deadline files

/-- Surveys the scripts below the root of the settings. -/
def run (checks : Checks) (settings : Settings) (s : Session) :
    Option (Except Fault Report × Session) :=
  match prepare settings s.machine.tree s.here with
  | .error f => some (.error (.setup f), s)
  | .ok (_, []) => some (.ok (.ofFindings []), s)
  | .ok (settings, files) =>
    match Clock.deadline? s.machine.now settings.batchTimeout with
    | none => some (.error .clock, s)
    | some deadline => (checks settings files deadline s).map fun (b, s) => (.ok (reportOf b), s)

def writeArtifacts (settings : Settings) (r : Report) (s : Session) : Artifact.Log × Session :=
  let (log, tree) := Artifact.writeAll (FileTree.storage s.here) settings r s.machine.tree
  (log, { s with machine := { s.machine with tree } })

end Triage.Survey
