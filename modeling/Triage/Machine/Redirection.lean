import Triage.Machine.Basic
import Triage.Shell.Expansion

namespace Triage

open Shell (Redirect Access)

inductive RedirectionFault
  | open_ (path : String) (cause : OsError)
  | create (path : String) (cause : OsError)
  | badDescriptor (text : String)
  | badNumber
  | expansion (cause : Shell.ExpansionFault)
  deriving DecidableEq, Repr

def reasonOr (missing : String) (e : OsError) : String :=
  if e = .notFound then missing else e.reason

def RedirectionFault.message : RedirectionFault → String
  | open_ path e => s!"cannot open {path}: " ++ reasonOr "No such file" e
  | create path e => s!"cannot create {path}: " ++ reasonOr "Directory nonexistent" e
  | badDescriptor text => s!"{text}: Bad file descriptor"
  | badNumber => "Syntax error: Bad fd number"
  | expansion cause => cause.message

/-- Whether the fault ends the shell, whatever the command. -/
def RedirectionFault.isFatal : RedirectionFault → Bool
  | badNumber | expansion _ => true
  | _ => false

namespace Machine

def openFile (m : Machine) (here : Location) (access : Access) (path : String) :
    Except OsError (OpenFile × Machine) :=
  let writing (fresh atEnd : Bool) : Except OsError (OpenFile × Machine) :=
    match m.tree.openForWriting here path fresh with
    | .error e => .error e
    | .ok (.file l, tree) => .ok (⟨.file l, 0, atEnd⟩, { m with tree })
    | .ok (.device d, tree) => .ok (⟨.device d, 0, atEnd⟩, { m with tree })
  match access with
  | .read =>
    match m.tree.find here path with
    | .error e => .error e
    | .ok (l, .file _) => .ok (⟨.file l, 0, false⟩, m)
    | .ok (_, .dir) => .ok (⟨.dir, 0, false⟩, m)
    | .ok _ => .ok (⟨.device .null, 0, false⟩, m)
  | .write => writing true false
  | .append => writing false true
  | .readWrite => writing false false

end Machine

namespace Process

def file? (p : Process) (fd : Nat) : Option Nat := p.fds.lookup fd

def connect (p : Process) (fd : Nat) (file : Option Nat) : Process :=
  let others := p.fds.filter (·.1 ≠ fd)
  { p with fds := match file with
      | some f => (fd, f) :: others
      | none => others }

def freeFd (p : Process) : Nat := p.fds.foldl (fun n (fd, _) => max n (fd + 1)) privateFd

def keep (p : Process) (fd : Nat) : (Nat × Option Nat) × Process :=
  match p.file? fd with
  | none => ((fd, none), p)
  | some file =>
    let other := p.freeFd
    ((fd, some other), p.connect other (some file))

def restoreFiles (p : Process) (saved : List (Nat × Option Nat)) : Process :=
  saved.foldr (fun (fd, other) p => match other with
    | some n => (p.connect fd (p.file? n)).connect n none
    | none => p.connect fd none) p

end Process

namespace Machine

def redirect (m : Machine) (p : Process) (r : Redirect) :
    Except RedirectionFault (Machine × Process) :=
  match r.source with
  | .descriptor w =>
    match (Shell.Expansion.textOf w).run p.shell with
    | .error e => .error (.expansion e)
    | .ok ("-", shell) => .ok (m, { p with shell }.connect r.fd none)
    | .ok (text, shell) =>
      match text.toList with
      | [c] =>
        if !c.isDigit then .error .badNumber
        else match p.file? (c.toNat - 48) with
          | some file => .ok (m, { p with shell }.connect r.fd (some file))
          | none => .error (.badDescriptor text)
      | _ => .error .badNumber
  | .here w =>
    match (Shell.Expansion.textOf w).run p.shell with
    | .error e => .error (.expansion e)
    | .ok (text, shell) =>
      let (file, m) := m.addText (Text.Utf8.encode text.toList)
      .ok (m, { p with shell }.connect r.fd (some file))
  | .file access w =>
    match (Shell.Expansion.textOf w).run p.shell with
    | .error e => .error (.expansion e)
    | .ok (path, shell) =>
      match m.openFile p.cwd access path with
      | .error e => .error (if access = .read then .open_ path e else .create path e)
      | .ok (f, m) =>
        let (file, m) := m.addFile f
        .ok (m, { p with shell }.connect r.fd (some file))

/-- Makes redirections, one after the other, and gives what takes them back.  After a fault the
descriptors are as they were. -/
def redirectAll (m : Machine) (p : Process) (saved : List (Nat × Option Nat)) : List Redirect →
    Machine × Process × Except RedirectionFault (List (Nat × Option Nat))
  | [] => (m, p, .ok saved)
  | r :: rs =>
    let (kept, q) := p.keep r.fd
    match m.redirect q r with
    | .error e => (m, q.restoreFiles (saved ++ [kept]), .error e)
    | .ok (m, p) => m.redirectAll p (saved ++ [kept]) rs

end Machine
end Triage
