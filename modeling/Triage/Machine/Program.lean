import Triage.Machine.Lifetime
import Triage.Machine.Redirection
import Triage.Shell.Names
import Triage.Shell.Printing

namespace Triage

namespace Machine

def defaultPath : String := "/usr/local/sbin:/usr/local/bin:/usr/sbin:/usr/bin:/sbin:/bin"

def programAt (t : FileTree) (here : Location) (path : String) : Except OsError Tool :=
  match t.find here path with
  | .error e => .error e
  | .ok (_, .program tool) => .ok tool
  | .ok _ => .error .permissionDenied

/-- The first program in some directories; one that may not be run does not end the search, but is
remembered. -/
def programIn (t : FileTree) (here : Location) (name : String) (found : OsError) :
    List String → Except OsError Tool
  | [] => .error found
  | dir :: dirs =>
    match programAt t here (Path.join dir name) with
    | .ok tool => .ok tool
    | .error e => programIn t here name (if e = .permissionDenied then e else found) dirs

def programPath? (t : FileTree) (here : Location) (name : String) (dirs : List String) :
    Option String :=
  (dirs.map (Path.join · name)).find? fun path => (programAt t here path).toBool

/-- The program with a name: a path if it has a slash, and otherwise looked for in the directories
of `path`. -/
def programNamed (t : FileTree) (here : Location) (path name : String) : Except OsError Tool :=
  if name.isEmpty then .error .notFound
  else if name.toList.contains '/' then programAt t here name
  else programIn t here name .notFound (SearchPath.entries path)

end Machine

namespace Process

def say (p : Process) (text : String) : Process :=
  p.push [.print .message 2 (Text.Utf8.encode (text ++ "\n").toList)]

def printLine (p : Process) (name text : String) : Process :=
  p.push [.print (.builtin name) 1 (Text.Utf8.encode (text ++ "\n").toList)]

def complain (p : Process) (text : String) : Process :=
  p.say s!"{p.shell.name}: {p.shell.line}: {text}"

end Process

def Voice.complain (v : Voice) (p : Process) (e : OsError) : Process :=
  match v with
  | builtin name => (p.withStatus 1).complain s!"{name}: {name}: I/O error"
  | program name => (p.withStatus 1).say s!"{name}: write error: {e.reason}"
  | message => p

namespace Process

def abort (p : Process) (code : Nat) (text : String) : Process :=
  { p with frames := [] }.push [.exit code] |>.say text

def misuse (program reason : String) : String :=
  s!"{program}: {reason}\n" ++ "Try '" ++ program ++ " --help' for more information."

def napOf? (s : String) : Option Duration :=
  let unit? : Option Nat := match s.toList.getLast? with
    | some 's' => some 1
    | some 'm' => some 60
    | some 'h' => some 3600
    | some 'd' => some 86400
    | _ => none
  let digits := if unit?.isSome then s.toList.dropLast else s.toList
  let whole := digits.takeWhile Char.isDigit
  let part := match digits.drop whole.length with
    | '.' :: r => some r
    | [] => some []
    | _ => none
  match part with
  | none => none
  | some part =>
    if (whole ++ part).isEmpty || !part.all Char.isDigit then none
    else
      let number (ds : List Char) : Nat := ds.foldl (fun n c => 10 * n + (c.toNat - 48)) 0
      let nanos := (part ++ List.replicate 9 '0').take 9
      some ((Clock.seconds (number whole) + number nanos) * unit?.getD 1)

def unknownOption? (known : List Char) (a : String) : Option Char :=
  match a.toList with
  | '-' :: '-' :: _ => none
  | '-' :: options => options.find? (!known.contains ·)
  | _ => none

def sleep (p : Process) (now : Time) (args : List String) : Process :=
  match args.findSome? (unknownOption? []), args.erase "--" with
  | some c, _ => p.abort 1 (misuse "sleep" s!"invalid option -- '{c}'")
  | none, [] => p.abort 1 (misuse "sleep" "missing operand")
  | none, args =>
    match args.filter (napOf? · |>.isNone) with
    | [] => { p with frames := [.nap ((args.filterMap napOf?).foldl (· + ·) now), .exit 0] }
    | bad =>
      let reasons := bad.map fun a => s!"invalid time interval '{a}'"
      p.abort 1 (misuse "sleep" ("\nsleep: ".intercalate reasons))

def cat (p : Process) (args : List String) : Process :=
  let inputs := if args.head? = some "--" then args.drop 1 else args.filter (· ≠ "-u")
  let inputs := if inputs.isEmpty then ["-"] else inputs
  { p with frames := inputs.map fun path => if path = "-" then .copy 0 else .copyFile path }

def tailPart (measure : Text.Measure) (count : List Char) : Except String Text.Tail :=
  let digits := count.dropWhile fun c => c == '+' || c == '-'
  match (String.ofList digits).toNat? with
  | some n => .ok { measure, count := n, fromStart := count.head? == some '+' }
  | none =>
    let what := if measure = .lines then "lines" else "bytes"
    .error s!"tail: invalid number of {what}: '{String.ofList count}'"

def tailArgs : Text.Tail → List String → Except String (Text.Tail × List String)
  | part, [] => .ok (part, [])
  | part, "--" :: rest => .ok (part, rest)
  | _, "-n" :: n :: rest => do tailArgs (← tailPart .lines n.toList) rest
  | _, "-c" :: n :: rest => do tailArgs (← tailPart .bytes n.toList) rest
  | part, a :: rest =>
    match a.toList with
    | '-' :: 'n' :: c :: cs => do tailArgs (← tailPart .lines (c :: cs)) rest
    | '-' :: 'c' :: c :: cs => do tailArgs (← tailPart .bytes (c :: cs)) rest
    | '-' :: c :: cs => do
      tailArgs (← if c.isDigit then tailPart .lines (c :: cs) else .ok part) rest
    | _ => (tailArgs part rest).map fun (part, files) => (part, a :: files)

def tail (p : Process) (args : List String) : Process :=
  match tailArgs {} args with
  | .error reason => p.abort 1 reason
  | .ok (part, files) =>
    let files := if files.isEmpty then ["-"] else files
    { p with frames := files.map fun path =>
        if path = "-" then .tail part 0 [] else .tailFile part path }

def rmArgs : (recursive force : Bool) → List String → Bool × Bool × List String
  | r, f, [] => (r, f, [])
  | r, f, "--" :: rest => (r, f, rest)
  | r, f, a :: rest =>
    match a.toList with
    | '-' :: c :: cs =>
      rmArgs (r || (c :: cs).any fun c => c == 'r' || c == 'R') (f || (c :: cs).contains 'f') rest
    | _ =>
      let (r, f, paths) := rmArgs r f rest
      (r, f, a :: paths)

end Process

namespace Machine

def remove (m : Machine) (here : Location) (recursive : Bool) (path : String) :
    Except OsError Machine :=
  match m.tree.find here path false with
  | .error e => .error e
  | .ok (l, .dir) =>
    if recursive then .ok { m with tree := m.tree.erase l } else .error .isDirectory
  | .ok (l, _) => .ok { m with tree := m.tree.erase l }

def rm (m : Machine) (p : Process) (args : List String) : Machine × Process :=
  let (recursive, force, paths) := Process.rmArgs false false args
  let options := args.takeWhile (· ≠ "--")
  match options.findSome? (Process.unknownOption? "rRfdivI".toList), paths with
  | some c, _ => (m, p.abort 1 (Process.misuse "rm" s!"invalid option -- '{c}'"))
  | none, [] => (m, if force then p else p.abort 1 (Process.misuse "rm" "missing operand"))
  | none, paths => paths.foldl (fun (m, p) path =>
    match m.remove p.cwd recursive path with
    | .ok m => (m, p)
    | .error e =>
      if force && e = .notFound then (m, p)
      else
        let line := Text.Utf8.encode s!"rm: cannot remove '{path}': {e.reason}\n".toList
        (m, { p.withStatus 1 with frames := p.frames ++ [.print .message 2 line] })) (m, p)

structure ShellArgs where
  fromText : Bool := false
  fromInput : Bool := false
  exitOnFailure : Bool := false
  bad : Option Char := none
  operands : List String := []

def shellArgs : ShellArgs → List String → ShellArgs
  | o, "--" :: rest => { o with operands := rest }
  | o, a :: rest =>
    match a.toList with
    | '-' :: c :: cs =>
      let flags := c :: cs
      shellArgs { o with
        fromText := o.fromText || flags.contains 'c'
        fromInput := o.fromInput || flags.contains 's'
        exitOnFailure := o.exitOnFailure || flags.contains 'e'
        bad := o.bad <|> flags.find? (!('c' :: 'l' :: Shell.State.optionLetters).contains ·) } rest
    | '+' :: _ :: _ => shellArgs o rest
    | _ => { o with operands := a :: rest }
  | o, [] => o

def dirName (m : Machine) (cwd : Location) (env : Environment) : String :=
  let physical := "/" ++ Path.joinNames cwd
  match env.lookup "PWD" with
  | some dir => if Path.isAbsolute dir && m.tree.dirAt? [] dir == some cwd then dir else physical
  | none => physical

/-- The variables that a shell takes from its environment: those that have a name, where a name ends
at the first equals sign. -/
def imported (env : Environment) : List (String × String) :=
  env.filterMap fun (n, v) =>
    match Text.splitOnce? ['='] (n ++ "=" ++ v).toList with
    | some (name, value) =>
      if Shell.Script.isName name && name ≠ "IFS".toList then
        some (String.ofList name, String.ofList value)
      else none
    | none => none

def startShell (m : Machine) (p : Process) (program : String) (args : List String)
    (env : Environment) : Machine × Process :=
  let o := shellArgs {} args
  let dir := m.dirName p.cwd env
  let shell : Shell.State :=
    { name := program, self := p.pid, dir, exitOnFailure := o.exitOnFailure,
      vars := [("PATH", ⟨defaultPath, false⟩), ("IFS", ⟨" \t\n", false⟩),
        ("PPID", ⟨toString p.parent, false⟩)] }
  let shell := (imported env).foldl (fun s (n, v) => (s.assign n v).exportVar n) shell
  let shell := shell.assign "PWD" dir
  let p := { p with shell, frames := [] }
  let script (text : String) (p : Process) : Process :=
    { p with frames := (Shell.parse text.toList).map .run }
  match o.bad, o.fromText, o.operands with
  | some c, _, _ => (m, p.abort 2 s!"{program}: 0: Illegal option -{c}")
  | none, true, [] => (m, p.abort 2 s!"{program}: 0: -c requires an argument")
  | none, true, text :: rest =>
    let shell := { shell with name := rest.headD program, params := rest.drop 1 }
    (m, script text { p with shell })
  | none, false, [] => (m, p.push [.readScript 0 []])
  | none, false, path :: rest =>
    if o.fromInput then
      (m, { p with shell := { shell with params := path :: rest } }.push [.readScript 0 []])
    else
      match m.openFile p.cwd .read path with
      | .error e =>
        (m, p.abort 2 s!"{program}: 0: {(RedirectionFault.open_ path e).message}")
      | .ok (f, m) =>
        let (file, m) := m.addFile f
        let p := { p with shell := { shell with name := path, params := rest } }
        let fd := p.freeFd
        (m, p.connect fd (some file) |>.push [.readScript fd []])

def startTool (m : Machine) (p : Process) (tool : Tool) (program : String) (args : List String)
    (env : Environment) : Machine :=
  let p := { p with
    fds := p.fds.filter (·.1 < Process.privateFd)
    wake := .at_ (m.now + startTime) }
  let p := { p with shell := { p.shell with status := 0, traps := [] }, frames := [] }
  let (m, p) := match tool with
    | .shell => m.startShell p program args env
    | .true => (m, p)
    | .false => (m, p.withStatus 1)
    | .sleep => (m, p.sleep (m.now + startTime) args)
    | .cat => (m, p.cat args)
    | .tail => (m, p.tail args)
    | .rm => m.rm p args
    | .echo => (m, p.push [.print (.program program) 1 (Shell.Printing.echo args)])
    | .printf =>
      let printed := Shell.Printing.printf (args.headD "") (args.drop 1)
      let p := p.withStatus (min printed.status 1)
      let p := p.push [.print (.program program) 1 printed.bytes]
      (m, printed.complaints.foldr (fun c (p : Process) => p.say s!"printf: {c}") p)
  m.update p

end Machine
end Triage
