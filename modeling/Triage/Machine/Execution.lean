import Triage.Machine.Builtin
import Triage.Machine.Transfer

namespace Triage.Machine

open Shell (Cmd Expansion Word)

/-- Puts a frame back until what it waits for has happened. -/
def block (m : Machine) (p : Process) (f : Frame) (wake : Wake) : Machine :=
  m.update { p.push [f] with wake }

def expand (m : Machine) (p : Process) (x : Expansion α) (next : α → Process → Machine) : Machine :=
  match x.run p.shell with
  | .ok (a, shell) => next a { p with shell }
  | .error f => m.update (p.fatal f.message)

def checked (p : Process) : Process :=
  if p.shell.exitOnFailure && !p.frames.isEmpty then p.push [.guarded] else p

def startFrame (p : Process) (label program : String) (args : List String)
    (assigns : List (String × String)) : Frame :=
  let path := (assigns.reverse.lookup "PATH").getD ((p.shell.var? "PATH").getD "")
  .start label program args (p.shell.environment.overlay assigns) path

/-- Runs what cannot be run in the shell itself, in a child unless nothing is left to do. -/
def runProgram (m : Machine) (p : Process) (assigns : List (String × String))
    (program : String) (args : List String) (redirects : List Shell.Redirect) : Machine :=
  let start := startFrame p program program args assigns
  match m.redirectAll p [] redirects with
  | (m, p, .error f) => m.refuse p f
  | (m, q, .ok saved) =>
    if p.isLast then m.update { q with frames := [start] }
    else
      let (child, m) := m.fork quickForkTime q q.fds [start]
      m.update ((q.restoreFiles saved).push [.await [child] true])

def runInside (m : Machine) (p : Process) (assigns : List (String × String)) (special : Bool)
    (redirects : List Shell.Redirect) (body : Machine → Process → Machine) : Machine :=
  match m.redirectAll p [] redirects with
  | (m, p, .error f) =>
    if special then m.update (p.fatal f.message) else m.refuse p f
  | (m, p, .ok saved) =>
    let old := assigns.map fun (x, _) => (x, p.shell.vars.lookup x)
    let shell := assigns.foldl (fun s (x, v) => s.assign x v) p.shell
    let p := { p with shell }
    let p := if saved.isEmpty then p else p.push [.restoreFiles saved]
    let p := if special || old.isEmpty then p else p.push [.restoreVars old]
    body m p

def exec (m : Machine) (p : Process) (assigns : List (String × String)) (args : List String)
    (redirects : List Shell.Redirect) : Machine :=
  match m.redirectAll p [] redirects with
  | (m, p, .error f) => m.update (p.fatal f.message)
  | (m, p, .ok saved) =>
    let p := saved.foldl (fun p (_, other) => match other with
      | some n => p.connect n none
      | none => p) p
    match args with
    | [] => m.done p 0
    | program :: args =>
      m.update { p with frames := [startFrame p s!"exec: {program}" program args assigns] }

def runNamed (m : Machine) (p : Process) (assigns : List (String × String)) (name : String)
    (args : List String) (redirects : List Shell.Redirect) : Machine :=
  match builtin? name with
  | some run =>
    m.runInside p assigns (Shell.Script.specials.contains name) redirects fun m p => run m p args
  | none => m.runProgram p assigns name args redirects

def tellKinds (m : Machine) (p : Process) (names : List String) : Machine :=
  let path := (p.shell.var? "PATH").getD ""
  let told := (names.take 1).map fun name =>
    if (p.shell.functions.lookup name).isSome || (builtin? name).isSome || name = "exec" then
      some name
    else if name.toList.contains '/' then
      (programNamed m.tree p.cwd path name).toOption.map fun _ => name
    else programPath? m.tree p.cwd name (SearchPath.entries path)
  match told with
  | [some line] => m.done (p.printLine "command" line) 0
  | _ => m.done p 127

/-- Carries out a simple command; without words it ends as the last substitution in it did. -/
def runWords (m : Machine) (p : Process) (substituted : Option Nat)
    (assigns : List (String × String)) (words : List String) (redirects : List Shell.Redirect) :
    Machine :=
  match words with
  | [] =>
    let status := substituted.getD 0
    match m.redirectAll p [] redirects with
    | (m, p, .error f) => m.refuse p f
    | (m, p, .ok saved) =>
      let shell := assigns.foldl (fun s (x, v) => s.assign x v) p.shell
      m.done ({ p with shell }.restoreFiles saved) status
  | "exec" :: args => m.exec p assigns args redirects
  | "command" :: "-v" :: names =>
    m.runInside p assigns false redirects fun m p => m.tellKinds p names
  | "command" :: name :: args => m.runNamed p assigns name args redirects
  | name :: args =>
    match p.shell.functions.lookup name with
    | some body =>
      m.runInside p assigns false redirects fun m p =>
        let shell := { p.shell with params := args, depth := p.shell.depth + 1 }
        m.update ({ p with shell }.push [.run body, .leave p.shell.params])
    | none => m.runNamed p assigns name args redirects

def assignments : List (String × Word) → Expansion (List (String × String))
  | [] => return []
  | (x, w) :: rest => do
    let v ← Expansion.textOf w
    modify (·.assign x v)
    return (x, v) :: (← assignments rest)

def runSimple (m : Machine) (p : Process) (line : Nat) (assigns : List (String × Word))
    (words : List Word) (redirects : List Shell.Redirect) : Machine :=
  let p := checked { p with shell := { p.shell with line } }
  m.expand p (Expansion.fieldsOf words) fun fields p =>
    let words := fields.flatMap (Shell.fileNames m.tree p.cwd)
    match (assignments assigns).run p.shell with
    | .error f => m.update (p.fatal f.message)
    | .ok (values, _) =>
      let substituted := p.shell.substituted
      let p := { p with shell := { p.shell with substituted := none } }
      m.runWords p substituted values words redirects

/-- Starts the parts of a pipeline, the first of them `after` some time; gives their processes. -/
def startParts (m : Machine) (after : Duration) (p : Process) (input : Option Nat) :
    List Cmd → List Pid × Machine
  | [] => ([], m)
  | [c] =>
    let q := match input with
      | some r => p.connect 0 (some r)
      | none => p
    let (child, m) := m.fork after p q.fds [.run c]
    ([child], m)
  | c :: cs =>
    let (r, w, m) := m.addPipe
    let q := match input with
      | some r => p.connect 0 (some r)
      | none => p
    let (child, m) := m.fork after p (q.connect 1 (some w)).fds [.run c]
    let (pids, m) := m.startParts (after + partTime) p (some r) cs
    (child :: pids, m)

def substitute (m : Machine) (p : Process) (line : Nat) (source : List Char) (c : Cmd) :
    Machine :=
  let (file, m) := m.addFile { channel := .recorded m.nextPid .output }
  let (child, m) := m.fork forkTime p (p.connect 1 (some file)).fds
    ((Shell.parseFrom line source).map .run)
  let m := { m with recordings := (child, {}) :: m.recordings }
  m.update (p.push [.substitute child c])

/-- Starts a command that nothing waits for; its input is empty, and keys that interrupt do not
reach it. -/
def background (m : Machine) (p : Process) (c : Cmd) : Machine :=
  let (file, m) := m.addFile { channel := .device .null }
  let deaf := { p with ignored := Signal.interrupt :: Signal.quit :: p.ignored }
  let (child, m) := m.fork forkTime deaf (p.connect 0 (some file)).fds [.run c]
  m.done { p with shell := { p.shell with lastJob := some child } } 0

def armFor (subject : List Char) : List (List Word × Cmd) → Expansion (Option Cmd)
  | [] => return none
  | (patterns, body) :: arms => do
    let ps ← patterns.mapM Expansion.patternOf
    if ps.any (·.accepts subject) then return some body else armFor subject arms

def runCommand (m : Machine) (p : Process) (c : Cmd) : Machine :=
  match c with
  | .nothing => m.done p 0
  | .simple line assigns words redirects => m.runSimple p line assigns words redirects
  | .pipeline parts =>
    let (pids, m) := m.startParts forkTime p none parts
    m.update ((checked p).push [.await pids true])
  | .invert c => m.update (p.push [.run c, .invert])
  | .andThen a b => m.update (p.push [.run a, .ifOk b])
  | .orElse a b => m.update (p.push [.run a, .ifFail b])
  | .seq a b => m.update (p.push [.run a, .run b])
  | .background c => m.background p c
  | .subshell c =>
    if p.isLast then m.update (p.push [.run c])
    else
      let (child, m) := m.fork forkTime p p.fds [.run c]
      m.update ((checked p).push [.await [child] true])
  | .redirected line c redirects =>
    match m.redirectAll { p with shell := { p.shell with line } } [] redirects with
    | (m, p, .error f) => m.refuse p f
    | (m, p, .ok saved) => m.update (p.push [.run c, .restoreFiles saved])
  | .ifThen cond yes no => m.update (p.push [.run cond, .branch yes no])
  | .loop negated cond body => m.update (p.push [.run cond, .loopTest negated cond body 0])
  | .forEach name none body =>
    m.update ((p.withStatus 0).push [.forNext name p.shell.params body])
  | .forEach name (some words) body =>
    m.expand p (Expansion.fieldsOf words) fun fields p =>
      let values := fields.flatMap (Shell.fileNames m.tree p.cwd)
      let p := { p with shell := { p.shell with status := 0, substituted := none } }
      m.update (p.push [.forNext name values body])
  | .caseOf subject arms =>
    m.expand p (do armFor (← Expansion.textOf subject).toList arms) fun body p =>
      let p := { p with shell := { p.shell with substituted := none } }
      match body with
      | some c => m.update (p.push [.run c])
      | none => m.done p 0
  | .define name body =>
    let functions := (name, body) :: p.shell.functions.filter (·.1 ≠ name)
    m.done { p with shell := { p.shell with functions } } 0
  | .invalid line reason =>
    m.update ({ p with shell := { p.shell with line } }.fatal s!"Syntax error: {reason}")

def gather (m : Machine) (p : Process) (pids : List Pid) (announced : Bool) : Machine :=
  let endings := pids.filterMap m.endingOf?
  let p := match pids.getLast?.bind m.endingOf? with
    | some e => p.withStatus e.code
    | none => p
  let p := if announced then
    match endings.getLast? with
    | some (.killed n) =>
      if n = Signal.interrupt ∨ n = Signal.brokenPipe then p else p.say (Signal.text n)
    | _ => p
    else p
  pids.foldl forget (m.update p)

def finishSubstitution (m : Machine) (p : Process) (child : Pid) (c : Cmd) : Machine :=
  if !m.isSilent child then m.block p (.substitute child c) (.silent child)
  else match m.endingOf? child with
    | none => m.block p (.substitute child c) (.child child)
    | some e =>
      let text := (m.recording child).outputText.toList.filter (· ≠ '\x00')
      let text := (text.reverse.dropWhile (· = '\n')).reverse
      let c := match Shell.Focus.command p.shell c with
        | some (_, _, fill) => fill text
        | none => c
      let shell := { p.shell with substituted := some e.code }
      let m := { m with recordings := m.recordings.filter (·.1 ≠ child) }
      (m.forget child).update ({ p with shell }.push [.run c])

def print (m : Machine) (p : Process) (v : Voice) (fd : Nat) (bytes : Bytes) : Machine :=
  match p.file? fd with
  | none => m.update (if bytes.isEmpty then p else v.complain p .badDescriptor)
  | some file =>
    match m.write file bytes with
    | (.done, m) => m.update p
    | (.part rest, m) => m.block p (.print v fd rest) (.writable file rest.length)
    | (.later, m) => m.block p (.print v fd bytes) (.writable file bytes.length)
    | (.broken, m) => m.finish p.pid (.killed Signal.brokenPipe)
    | (.fault e, m) => m.update (v.complain p e)

def throughLine (bs : Bytes) : Bytes :=
  let line := bs.takeWhile (· ≠ 10)
  bs.take (line.length + 1)

def lineMarks : List Char → List Shell.Mark
  | '\\' :: c :: s => (c, true) :: lineMarks s
  | c :: s => (c, false) :: lineMarks s
  | [] => []

def assignLine (p : Process) (raw : Bool) (names : List String) (line : Bytes) : Process :=
  let chars := (Text.Utf8.decode line).filter (· ≠ '\x00')
  let marks := if raw then chars.map (·, false) else lineMarks chars
  let values := Shell.readWords p.shell.separators names.length marks
  { p with shell := (names.zip values).foldl (fun s (x, v) => s.assign x v) p.shell }

def readLine (m : Machine) (p : Process) (raw : Bool) (names : List String) (sofar : Bytes) :
    Machine :=
  match p.file? 0 with
  | none => m.done p 1
  | some file =>
    match m.read file throughLine with
    | (.bytes bs, m) =>
      let all := sofar ++ bs
      if all.getLast? = some 10 then
        let line := all.dropLast
        let slashes := (line.reverse.takeWhile (· = 92)).length
        if !raw && slashes % 2 = 1 then m.update (p.push [.readLine raw names line.dropLast])
        else m.done (assignLine p raw names line) 0
      else m.update (p.push [.readLine raw names all])
    | (.later, m) => m.block p (.readLine raw names sofar) (.readable file)
    | (_, m) => m.done (assignLine p raw names sofar) 1

def gulp (m : Machine) (p : Process) (fd : Nat) (again : List Bytes → Frame) (sofar : List Bytes)
    (next : Bytes → Process) : Machine :=
  match p.file? fd with
  | none => m.update (next [])
  | some file =>
    match m.read file id with
    | (.bytes bs, m) => m.update (p.push [again (bs :: sofar)])
    | (.later, m) => m.block p (again sofar) (.readable file)
    | (_, m) => m.update (next (Recording.joined sofar))

def copy (m : Machine) (p : Process) (fd : Nat) : Machine :=
  match p.file? fd with
  | none => m.update p
  | some file =>
    match m.read file id with
    | (.bytes bs, m) => m.update (p.push [.print (.program "cat") 1 bs, .copy fd])
    | (.later, m) => m.block p (.copy fd) (.readable file)
    | (_, m) => m.update p

def withFile (m : Machine) (p : Process) (complaint : OsError → String) (path : String)
    (next : Nat → Frame) : Machine :=
  match m.openFile p.cwd .read path with
  | .error e => m.update ((p.withStatus 1).say (complaint e))
  | .ok (f, m) =>
    if f.channel = .dir then m.update ((p.withStatus 1).say (complaint .isDirectory))
    else
      let (file, m) := m.addFile f
      let fd := p.freeFd
      m.update ((p.connect fd (some file)).push [next fd, .restoreFiles [(fd, none)]])

def leaveWith (m : Machine) (p : Process) (code : Nat) : Machine :=
  if (p.shell.traps.lookup 0).isNone then m.finish p.pid (.exited (code % 256))
  else
    let action := (p.shell.traps.lookup 0).getD ""
    let shell := { p.shell with traps := p.shell.traps.filter (·.1 ≠ 0), status := code % 256 }
    let frames := (Shell.parse action.toList).map Frame.run ++ [.exit code]
    m.update { p with shell, frames }

def perform (m : Machine) (p : Process) (f : Frame) : Machine :=
  match f with
  | .run c =>
    match Shell.Focus.command p.shell c with
    | some (line, source, _) => m.substitute p line source c
    | none => m.runCommand p c
  | .start label program args env path =>
    match programNamed m.tree p.cwd path program with
    | .ok tool => m.startTool p tool program args env
    | .error e =>
      let (code, reason) :=
        if program.isEmpty then (127, "Permission denied")
        else if e = .notFound then (127, "not found")
        else (126, e.reason)
      m.update ({ p with frames := [.exit code] }.complain s!"{label}: {reason}")
  | .ifOk c => m.update (if p.shell.status = 0 then p.push [.run c] else p)
  | .ifFail c => m.update (if p.shell.status ≠ 0 then p.push [.run c] else p)
  | .branch yes no => m.update (p.push [.run (if p.shell.status = 0 then yes else no)])
  | .loopTest negated cond body last =>
    if (p.shell.status = 0) != negated then
      m.update (p.push [.run body, .loopNext negated cond body])
    else m.done p last
  | .loopNext negated cond body =>
    m.update (p.push [.run cond, .loopTest negated cond body p.shell.status])
  | .forNext _ [] _ => m.update p
  | .forNext name (v :: vs) body =>
    m.update ({ p with shell := p.shell.assign name v }.push [.run body, .forNext name vs body])
  | .invert => m.done p (if p.shell.status = 0 then 1 else 0)
  | .settle status => m.done p status
  | .guarded =>
    let fails := p.shell.status ≠ 0 && !p.frames.any Frame.asks
    m.update (if fails then { p with frames := [.exit p.shell.status] } else p)
  | .restoreFiles _ | .restoreVars _ => m.update (p.undo f)
  | .leave params =>
    m.update { p with shell := { p.shell with params, depth := p.shell.depth - 1 } }
  | .await pids announced | .rest pids announced =>
    if pids.all m.hasEnded then m.gather p pids announced else m.block p f (.children pids)
  | .substitute child c => m.finishSubstitution p child c
  | .print v fd bytes => m.print p v fd bytes
  | .readLine raw names sofar => m.readLine p raw names sofar
  | .readScript fd sofar =>
    m.gulp p fd (.readScript fd) sofar fun bs =>
      (if fd < Process.privateFd then p else p.connect fd none).push
        ((Shell.parse (Text.Utf8.decode bs)).map .run)
  | .nap until_ => if until_ ≤ m.now then m.update p else m.block p f (.at_ until_)
  | .copy fd => m.copy p fd
  | .copyFile path => m.withFile p (fun e => s!"cat: {path}: {e.reason}") path .copy
  | .tail part fd sofar =>
    m.gulp p fd (.tail part fd) sofar fun bs =>
      p.push [.print (.program "tail") 1 (part.of bs)]
  | .tailFile part path =>
    m.withFile p (fun e => s!"tail: cannot open '{path}' for reading: {e.reason}") path
      fun fd => .tail part fd []
  | .exit code => m.leaveWith p code
  | .trap n =>
    let action := (p.shell.traps.lookup n).getD ""
    m.update (p.push ((Shell.parse action.toList).map .run ++ [.settle p.shell.status]))

def readyAt (m : Machine) (p : Process) : Option Time :=
  match p.wake with
  | .at_ t => if p.live then some (max t m.now) else none
  | w => if p.live && m.isAwake w then some m.now else none

def next? (m : Machine) : Option (Time × Process) :=
  m.processes.foldl (fun best p =>
    match m.readyAt p, best with
    | some t, some (u, _) => if t < u then some (t, p) else best
    | some t, none => some (t, p)
    | none, best => best) none

/-- The machine when the process has carried out its next frame, at `t`. -/
def step (m : Machine) (t : Time) (p : Process) : Machine :=
  let m := { m with now := max m.now t }
  let p := { p with wake := .at_ (m.now + stepTime) }
  match p.pending, p.frames with
  | n :: pending, _ => m.update ({ p with pending }.push [.trap n])
  | [], [] => m.leaveWith p p.shell.status
  | [], f :: frames => m.perform { p with frames } f

end Triage.Machine
