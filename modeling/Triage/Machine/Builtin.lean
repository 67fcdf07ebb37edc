import Triage.Machine.Program
import Triage.Shell.Condition

namespace Triage

namespace Frame

def isLoop : Frame → Bool
  | .loopTest .. | .loopNext .. | .forNext .. => true
  | _ => false

def isLeave : Frame → Bool
  | .leave _ => true
  | _ => false

def asks : Frame → Bool
  | .ifOk _ | .ifFail _ | .branch .. | .loopTest .. | .invert => true
  | _ => false

end Frame

namespace Process

def undo (p : Process) : Frame → Process
  | .restoreFiles saved => p.restoreFiles saved
  | .restoreVars saved =>
    { p with shell := saved.foldl (fun s (x, v) => s.restore x v) p.shell }
  | _ => p

/-- Drops the frames before the first that `stops`. -/
def unwind (stops : Frame → Bool) : List Frame → Process → Process
  | [], p => { p with frames := [] }
  | f :: fs, p => if stops f then { p with frames := f :: fs } else unwind stops fs (p.undo f)

def loops (p : Process) : Nat := ((p.frames.takeWhile (!·.isLeave)).filter Frame.isLoop).length

/-- Leaves the innermost loops but the last of `n`, and that one too unless `again`. -/
def leaveLoops (again : Bool) : (n : Nat) → Process → Process
  | 0, p => p
  | n + 1, p =>
    let p := unwind Frame.isLoop p.frames p
    if again && n = 0 then
      match p.frames with
      | .loopTest negated cond body _ :: fs =>
        { p with frames := .loopNext negated cond body :: fs }
      | _ => p
    else leaveLoops again n { p with frames := p.frames.drop 1 }

def fatal (p : Process) (text : String) : Process :=
  { p with frames := [] }.push [.exit 2] |>.complain text

end Process

namespace Machine

def done (m : Machine) (p : Process) (status : Nat) : Machine := m.update (p.withStatus status)

def complain (m : Machine) (p : Process) (status : Nat) (text : String) : Machine :=
  m.update ((p.withStatus status).complain text)

def refuse (m : Machine) (p : Process) (f : RedirectionFault) : Machine :=
  if f.isFatal then m.update (p.fatal f.message) else m.complain p 2 f.message

def testCommand (m : Machine) (p : Process) (name : String) (args : List String) : Machine :=
  match Shell.Condition.holds m.tree p.cwd args with
  | .ok v => m.done p (if v then 0 else 1)
  | .error f => m.complain p 2 s!"{name}: {f.reason}"

def cd (m : Machine) (p : Process) (args : List String) : Machine :=
  let s := p.shell
  let target := match args.dropWhile (· = "--") with
    | [] => (s.var? "HOME").getD ""
    | "-" :: _ => (s.var? "OLDPWD").getD ""
    | dir :: _ => dir
  let path := Shell.tidy (if Path.isAbsolute target then target else s.dir ++ "/" ++ target)
  match m.tree.dirAt? [] path with
  | none => m.complain p 2 s!"cd: can't cd to {target}"
  | some cwd =>
    let shell := { (s.assign "OLDPWD" s.dir).assign "PWD" path with dir := path }
    let p := { p with shell, cwd }
    let p := if args = ["-"] then p.printLine "cd" path else p
    m.done p 0

def counting (m : Machine) (p : Process) (name : String) (args : List String) (default : Nat)
    (next : Nat → Machine) : Machine :=
  match args with
  | [] => next default
  | a :: _ =>
    match a.toNat? with
    | some n => next n
    | none => m.update (p.fatal s!"{name}: Illegal number: {a}")

def breakLoops (m : Machine) (p : Process) (name : String) (again : Bool) (n : Nat) : Machine :=
  if n = 0 then m.update (p.fatal s!"{name}: Illegal number: 0")
  else m.done (p.leaveLoops again (min n p.loops)) 0

def naming (name : String) (args : List String) (refuse : String → Machine) (next : Machine) :
    Machine :=
  let names := args.map fun a => a.toList.takeWhile (· ≠ '=')
  match names.find? (!Shell.Script.isName ·) with
  | some bad => refuse s!"{name}: {String.ofList bad}: bad variable name"
  | none => next

def exportAll (p : Process) (args : List String) : Process :=
  args.foldl (fun p a =>
    match Text.splitOnce? ['='] a.toList with
    | some (name, value) =>
      let name := String.ofList name
      { p with shell := (p.shell.assign name (String.ofList value)).exportVar name }
    | none => { p with shell := p.shell.exportVar a }) p

def unset (m : Machine) (p : Process) : List String → Machine
  | "-f" :: names =>
    let functions := p.shell.functions.filter fun (name, _) => !names.contains name
    m.done { p with shell := { p.shell with functions } } 0
  | args =>
    let names := args.dropWhile (· = "-v")
    naming "unset" names (fun text => m.update (p.fatal text))
      (m.done { p with shell := names.foldl Shell.State.unset p.shell } 0)

def badOption? : List String → Option Char
  | [] => none
  | a :: rest =>
    match a.toList with
    | ['-', '-'] => none
    | '-' :: flags | '+' :: flags =>
      match flags.find? (!Shell.State.optionLetters.contains ·) with
      | some c => some c
      | none => badOption? rest
    | _ => none

def setOptions (p : Process) : List String → Process
  | [] => p
  | "--" :: rest => { p with shell := { p.shell with params := rest } }
  | a :: rest =>
    match a.toList with
    | '-' :: flags => setOptions { p with shell := flags.foldl (·.setFlag · true) p.shell } rest
    | '+' :: flags => setOptions { p with shell := flags.foldl (·.setFlag · false) p.shell } rest
    | _ => { p with shell := { p.shell with params := a :: rest } }

def killUsage : String :=
  "Usage: kill [-s sigspec | -signum | -sigspec] [pid | job]... or\nkill -l [exitstatus]"

def killArgs (args : List String) : Except String (Nat × List String) := do
  let (n, targets) ← match args with
    | ["-s"] => throw "No arg for -s option"
    | "-s" :: name :: rest =>
      match Signal.number? name with
      | some n => pure (n, rest)
      | none => throw s!"invalid signal number or name: {name}"
    | a :: rest =>
      match a.toList with
      | ['-', '-'] => pure (Signal.terminate, rest)
      | '-' :: c :: cs =>
        match Signal.number? (String.ofList (c :: cs)) with
        | some n => pure (n, rest.dropWhile (· = "--"))
        | none => throw s!"Illegal option -{c}"
      | _ => pure (Signal.terminate, args)
    | [] => throw killUsage
  if targets.isEmpty then throw killUsage
  return (n, targets)

def killTargets : List String → List Int × Option String
  | [] => ([], none)
  | a :: rest =>
    match a.toInt? with
    | some n =>
      let (ns, bad) := killTargets rest
      (n :: ns, bad)
    | none => ([], some (String.ofList (Text.stripPrefix? ['-'] a.toList |>.getD a.toList)))

/-- Sends a signal to the target of `kill`: a process, a group with its sign changed, or the
sender's own group. -/
def killTarget (n : Nat) (sender : Process) (m : Machine) (target : Int) : Machine :=
  if 0 < target then m.signalAll n (·.pid = target.toNat)
  else if target = 0 then m.signalAll n (·.group = sender.group)
  else m.signalAll n (·.group = target.natAbs)

def kill (m : Machine) (p : Process) (args : List String) : Machine :=
  match killArgs args with
  | .error reason => m.complain p 2 s!"kill: {reason}"
  | .ok (n, targets) =>
    let (pids, bad) := killTargets targets
    let missing := pids.filter fun pid => 0 < pid && m.hasEnded pid.toNat
    let p := p.withStatus (if missing.isEmpty then 0 else 1)
    let p := match bad with
      | some text => (p.withStatus 2).complain s!"kill: Illegal number: {text}"
      | none => p
    let p := missing.foldl (fun p _ => p.complain "kill: No such process\n") p
    pids.foldl (killTarget n p) (m.update p)

def setTrap (p : Process) (action : Option String) (n : Nat) : Process :=
  let traps := p.shell.traps.filter (·.1 ≠ n)
  let ignored := p.ignored.filter (· ≠ n)
  match action with
  | none => { p with shell := { p.shell with traps }, ignored }
  | some "" => { p with shell := { p.shell with traps }, ignored := n :: ignored }
  | some text => { p with shell := { p.shell with traps := (n, text) :: traps }, ignored }

def conditionOf? (name : String) : Option Nat :=
  if name.toUpper = "EXIT" then some 0 else Signal.number? name

def trap (m : Machine) (p : Process) (args : List String) : Machine :=
  let (action, names) : Option String × List String := match args.dropWhile (· = "--") with
    | a :: b :: rest =>
      if (conditionOf? a).isSome then (none, a :: b :: rest)
      else (if a = "-" then none else some a, b :: rest)
    | names => (none, names)
  match names.find? (conditionOf? · |>.isNone) with
  | some bad => m.update ((p.withStatus 1).say s!"trap: {bad}: bad trap")
  | none => m.done ((names.filterMap conditionOf?).foldl (setTrap · action) p) 0

def beforeLeave (f : Frame) : List Frame → List Frame
  | [] => []
  | .leave params :: fs => f :: .leave params :: fs
  | g :: fs => g :: beforeLeave f fs

def localVars (m : Machine) (p : Process) (args : List String) : Machine :=
  if p.shell.depth = 0 then m.update (p.fatal "local: not in a function")
  else
    m.done (args.foldl (fun p a =>
      let (name, value) : String × Option String := match Text.splitOnce? ['='] a.toList with
        | some (name, value) => (String.ofList name, some (String.ofList value))
        | none => (a, none)
      let old := p.shell.vars.lookup name
      let shell := match value with
        | some v => p.shell.assign name v
        | none => p.shell
      { p with shell, frames := beforeLeave (.restoreVars [(name, old)]) p.frames }) p) 0

def wait (m : Machine) (p : Process) (args : List String) : Machine :=
  match args with
  | [] =>
    let children := m.processes.filter (·.parent = p.pid) |>.map (·.pid)
    m.update (p.push [.rest children false, .settle 0])
  | args =>
    let own (pid : Pid) : Bool := m.processes.any fun q => q.pid = pid && q.parent = p.pid
    match args.find? (·.toNat?.isNone) with
    | some bad => m.complain p 2 s!"wait: Illegal number: {bad}"
    | none =>
      let pids := (args.filterMap String.toNat?).filter own
      m.update ((p.withStatus 127).push (if pids.isEmpty then [] else [.rest pids true]))

def leave (m : Machine) (p : Process) (status : Nat) : Machine :=
  if p.shell.depth = 0 then m.update { p with frames := [.exit status] }
  else m.done (Process.unwind Frame.isLeave p.frames p) status

def readArgs : (raw : Bool) → List String → Bool × List String
  | _, "-r" :: rest => readArgs true rest
  | raw, args => (raw, args)

def printCommand (m : Machine) (p : Process) (args : List String) : Machine :=
  match args with
  | [] | ["--"] => m.complain p 2 "printf: usage: printf format [arg ...]"
  | "--" :: form :: args => printed form args
  | form :: args =>
    match form.toList with
    | '-' :: c :: _ => m.complain p 2 s!"printf: Illegal option -{c}"
    | _ => printed form args
where
  printed (form : String) (args : List String) : Machine :=
    let printed := Shell.Printing.printf form args
    let p := p.push [.print (.builtin "printf") 1 printed.bytes]
    let p := printed.complaints.foldr (fun c (p : Process) => p.complain s!"printf: {c}") p
    m.done p printed.status

def sourceFile (m : Machine) (p : Process) (path : String) : Machine :=
  match m.tree.read p.cwd path with
  | .error e =>
    let reason :=
      if path.toList.contains '/' then (RedirectionFault.open_ path e).message
      else s!"{path}: not found"
    m.update (p.fatal s!".: {reason}")
  | .ok content =>
    let script := (Shell.parse (Text.Utf8.decode content)).map Frame.run
    let shell := { p.shell with depth := p.shell.depth + 1 }
    m.done ({ p with shell }.push (script ++ [Frame.leave p.shell.params])) 0

def builtin? (name : String) : Option (Machine → Process → List String → Machine) :=
  match name with
  | ":" | "true" => some fun m p _ => m.done p 0
  | "false" => some fun m p _ => m.done p 1
  | "echo" => some fun m p args =>
    m.done (p.push [.print (.builtin "echo") 1 (Shell.Printing.echo args)]) 0
  | "printf" => some printCommand
  | "test" => some fun m p args => m.testCommand p "test" args
  | "[" => some fun m p args =>
    if ((args.getLast?.map (·.toList)).getD []).head? = some ']' then
      m.testCommand p "[" args.dropLast
    else m.complain p 2 "[: missing ]"
  | "cd" => some cd
  | "pwd" => some fun m p _ => m.done (p.printLine "pwd" p.shell.dir) 0
  | "exit" => some fun m p args => m.counting p "exit" args p.shell.status fun n =>
    m.update { p with frames := [.exit n] }
  | "return" => some fun m p args => m.counting p "return" args p.shell.status (m.leave p)
  | "break" => some fun m p args => m.counting p "break" args 1 (m.breakLoops p "break" false)
  | "continue" => some fun m p args =>
    m.counting p "continue" args 1 (m.breakLoops p "continue" true)
  | "shift" => some fun m p args => m.counting p "shift" args 1 fun n =>
    if n ≤ p.shell.params.length then
      m.done { p with shell := { p.shell with params := p.shell.params.drop n } } 0
    else m.update (p.fatal "shift: can't shift that many")
  | "set" => some fun m p args =>
    match badOption? args with
    | some c => m.update (p.fatal s!"set: Illegal option -{c}")
    | none => m.done (setOptions p args) 0
  | "export" => some fun m p args =>
    let args := args.dropWhile (· = "-p")
    naming "export" args (fun text => m.update (p.fatal text)) (m.done (exportAll p args) 0)
  | "unset" => some unset
  | "read" => some fun m p args =>
    let (raw, names) := readArgs false args
    if names.isEmpty then m.complain p 2 "read: arg count"
    else
      naming "read" names (fun text => m.complain p 2 text)
        (m.update (p.push [.readLine raw names []]))
  | "kill" => some kill
  | "wait" => some wait
  | "trap" => some trap
  | "local" => some localVars
  | "umask" | "ulimit" => some fun m p _ => m.done p 0
  | "eval" => some fun m p args =>
    m.done (p.push ((Shell.parse (" ".intercalate args).toList).map .run)) 0
  | "." => some fun m p args => m.sourceFile p (args.headD "")
  | _ => none

end Machine
end Triage
