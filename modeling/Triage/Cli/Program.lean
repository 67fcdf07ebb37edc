import Triage.Cli.Options
import Triage.Survey

namespace Triage.Cli

structure Result where
  exitCode : Nat
  output : String := ""
  errors : List String := []

/-- The exit codes: of a run that could do all it was to do, of one that could not, of a command
line that is no good, and of one that broke off. -/
def success : Nat := 0
def failure : Nat := 1
def usage : Nat := 2
def brokenOff : Nat := 101

def header (settings : Settings) (host : Nat) : String :=
  s!"Script Health Checker\nUsing {settings.workerCount host} worker thread(s)\n\n"

def nothingFound : String := "No script files found in the specified directory.\n"

def reportText (r : Report) : String :=
  (if r.total = 0 && r.shortfall = 0 then nothingFound else "") ++ r.summary

def savedLine (path : String) : String := s!"Report saved to: {path}\n"

def failureLine (path : String) (f : Artifact.Fault) : String :=
  s!"Error writing {path}: {f.message}"

def finish (head : String) (r : Report) (log : Artifact.Log) : Result :=
  { exitCode := if log.failures.isEmpty then success else failure
    output := head ++ reportText r ++ String.join (log.written.map savedLine)
    errors := log.failures.map fun (path, f) => failureLine path f }

def conclude (st : Storage σ η) (settings : Settings) (host : Nat) (x : Except Survey.Fault Report)
    (z : σ) : Result × σ :=
  let head := header settings host
  match x with
  | .error (.setup f) => (⟨failure, head, [s!"Error: {f.message}"]⟩, z)
  | .error .clock => (⟨brokenOff, head, []⟩, z)
  | .ok r =>
    let (log, z) := Artifact.writeAll st settings r z
    (finish head r log, z)

def survey (checks : Survey.Checks) (settings : Settings) (host : Nat) (s : Session) :
    Option (Result × Session) :=
  (Survey.run checks settings s).map fun (x, s) =>
    let (result, tree) := conclude (FileTree.storage s.here) settings host x s.machine.tree
    (result, { s with machine := { s.machine with tree } })

/-- Runs the program on a machine that runs `host` workers unless told otherwise; none if the checks
do not end. -/
def run (checks : Survey.Checks) (args : List String) (host : Nat) (s : Session) :
    Option (Result × Session) :=
  match Options.ofArgs args with
  | .error .help => some (⟨success, "", []⟩, s)
  | .error (.fault _) => some (⟨usage, "", []⟩, s)
  | .ok (_, settings) => survey checks settings host s

end Triage.Cli
