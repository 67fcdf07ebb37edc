import Triage.ModuleName
import Triage.Run
import Triage.Schedule
import Triage.Setup
import Triage.Text.Rounding
import Triage.Finding
import Triage.Verdict

/-!
Checking one file.  The primary check runs, imports or lints it; if that fails, the parse check
tells a file that is broken from one whose surroundings are.
-/

namespace Triage.Check
open Text

def parseSource : String :=
  "import ast, sys\n" ++
  "path = sys.argv[1]\n" ++
  "try:\n" ++
  "    with open(path, 'r', encoding='utf-8') as handle:\n" ++
  "        source = handle.read()\n" ++
  "except Exception as exc:\n" ++
  "    print('SYNTAX_ERR:cannot_read:' + str(exc))\n" ++
  "    sys.exit(2)\n" ++
  "try:\n" ++
  "    ast.parse(source, filename=path)\n" ++
  "except SyntaxError as exc:\n" ++
  "    print('SYNTAX_ERR:%s:%s:line:%s' % (type(exc).__name__, exc.msg, exc.lineno))\n" ++
  "    sys.exit(2)\n" ++
  "except Exception as exc:\n" ++
  "    print('SYNTAX_ERR:%s:%s' % (type(exc).__name__, exc))\n" ++
  "    sys.exit(2)\n" ++
  "print('SYNTAX_OK')\n"

def dirOf (path : String) : String := (Path.parent? path).getD "."

def interpreter (s : Settings) : Command :=
  { program := s.interpreter, args := s.interpreterArgs }

/-- The primary check by the mode; none if a file that is to be imported has no module name. -/
def modeCommand? (s : Settings) (path : String) : Option Command :=
  let base := interpreter s
  match s.mode with
  | .run => some ((base.withArg path).inDir (dirOf path))
  | .import =>
    (ModuleName.ofPath? s.root path s.extension).map fun name =>
      ((base.withArgs ["-c", s!"import {name}"]).inDir s.root).withSearchDir s.searchPathVar s.root
  | .lint => some ((base.withArgs ["-m", s.lintModule, path]).inDir (dirOf path))

def primaryCommand? (s : Settings) (path : String) : Option Command :=
  (modeCommand? s path).map fun c =>
    let c := match s.searchPath with
      | some dir => c.withSearchDir s.searchPathVar dir
      | none => c
    c.withTimeout s.checkTimeout

def parseCommand (s : Settings) (path : String) : Command :=
  ((interpreter s).withArgs ["-c", parseSource, path]).inDir (dirOf path)
    |>.withTimeout (some s.parseTimeout)

def missingModuleSigns : List (List Char) :=
  ["ModuleNotFoundError".toList, "ImportError".toList, "No module named".toList]

/-- The first line that says that a module is missing, trimmed. -/
def missingModuleLine? (output : List Char) : Option (List Char) :=
  ((lines output).map trim).find? fun line => missingModuleSigns.any (contains · line)

def noOutput : String := "no output"

def lastWords (output : List Char) : String :=
  ((lastMeaningfulLine? output).map String.ofList).getD noOutput

def clipped (s : Settings) (output : List Char) : String :=
  String.ofList (clip s.maxOutputChars output)

def seconds (d : Duration) : String :=
  let fraction := Ratio.div (.ofNat (d % 1000000000)) (.ofNat 1000000000)
  (Ratio.add (.ofNat (d / 1000000000)) fraction).fixed 1

def noModuleName (path : String) : Finding :=
  ⟨path, .processError, s!"cannot derive an importable module name for {path}", none⟩

def noPath (path : String) : Finding :=
  ⟨path, .runtimeFailure, s!"check aborted: {emptyPathReason}", none⟩

def primaryNotLaunched (path : String) (f : Command.LaunchFault) : Finding :=
  ⟨path, .processError, s!"primary check could not launch: {f.message}", none⟩

def parseNotLaunched (s : Settings) (path : String) (primary : Outcome) (f : Command.LaunchFault) :
    Finding :=
  Finding.withOutput ⟨path, .processError, s!"parse check could not launch: {f.message}", none⟩
    (clipped s primary.combined.toList)

/-- The status and the message of a file that failed but parses, by the policy. -/
def classifyValid (s : Settings) (primary : Outcome) : Status × String :=
  let output := primary.combined.toList
  let parses := s!"exited with code {primary.exitCode} but parses cleanly: {lastWords output}"
  match s.policy with
  | .pass => (.ok, parses)
  | .warn => (.okWithWarning, parses)
  | .classify =>
    match missingModuleLine? output with
    | some line => (.dependencyFailure, String.ofList line)
    | none => (.runtimeFailure, s!"exited with code {primary.exitCode}: {lastWords output}")

def classify (s : Settings) (path : String) (primary : Outcome) (verdict : Verdict) : Finding :=
  let output := clipped s (trimEnd primary.combined.toList)
  match verdict with
  | .defect description =>
    let message :=
      if output.isEmpty then description else s!"{description} | runtime output: {output}"
    ⟨path, .syntaxError, message, none⟩
  | .unreadable reason =>
    Finding.withOutput
      ⟨path, .processError, s!"parse check could not read the file: {reason}", none⟩ output
  | .inconclusive doubt =>
    Finding.withOutput ⟨path, .processError, s!"parse check failed: {doubt.message}", none⟩ output
  | .valid =>
    if primary.timedOut then
      let limit := match s.checkTimeout with
        | some d => s!" after {seconds d}s"
        | none => ""
      Finding.withOutput ⟨path, .runtimeFailure, s!"timed out{limit}", none⟩ output
    else
      let (status, message) := classifyValid s primary
      Finding.withOutput ⟨path, status, message, none⟩ output

inductive Stage
  | primary (path : String) (run : Run)
  | parse (path : String) (outcome : Outcome) (run : Run)
  | done (f : Finding)
  /-- The clock could not hold a deadline. -/
  | crashed

def Stage.answer? : Stage → Option Answer
  | .done f => some (.ok f)
  | .crashed => some (.error .clock)
  | _ => none

def start (s : Settings) (here path : String) : Stage :=
  match Path.absolute? here path with
  | none => .done (noPath path)
  | some path =>
    match primaryCommand? s path with
    | none => .done (noModuleName path)
    | some c => .primary path { command := c }

def afterPrimary (s : Settings) (path : String) (result : Except Command.LaunchFault Outcome) :
    Stage :=
  match result with
  | .error f => .done (primaryNotLaunched path f)
  | .ok o =>
    if o.success then .done (.ok path) else .parse path o { command := parseCommand s path }

def afterParse (s : Settings) (path : String) (primary : Outcome)
    (result : Except Command.LaunchFault Outcome) : Finding :=
  match result with
  | .error f => parseNotLaunched s path primary f
  | .ok o => classify s path primary (.ofOutcome o)

variable {σ : Type} (sys : System σ)

/-- One step of the running command, or from one stage to the next. -/
def step (settings : Settings) (stage : Stage) (reg : Registry) (s : σ) : Stage × Registry × σ :=
  match stage with
  | .primary path run =>
    match run.phase with
    | .ended result => (afterPrimary settings path result, reg, s)
    | .crashed _ => (.crashed, reg, s)
    | phase =>
      let (phase, reg, s) := Run.step sys run.command phase reg s
      (.primary path { run with phase }, reg, s)
  | .parse path outcome run =>
    match run.phase with
    | .ended result => (.done (afterParse settings path outcome result), reg, s)
    | .crashed _ => (.crashed, reg, s)
    | phase =>
      let (phase, reg, s) := Run.step sys run.command phase reg s
      (.parse path outcome { run with phase }, reg, s)
  | .done _ | .crashed => (stage, reg, s)

def pause (s : σ) : Stage → Run.Pause
  | .primary _ run | .parse _ _ run => Run.pause sys s run.phase
  | .done _ | .crashed => .none

end Triage.Check
