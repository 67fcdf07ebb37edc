import Triage.OsError
import Triage.SearchPath
import Triage.Settings

namespace Triage

abbrev Pid := Nat

/-- Variables and their values, each name once. -/
abbrev Environment := List (String × String)

def Environment.put (name value : String) : Environment → Environment
  | [] => [(name, value)]
  | (n, v) :: rest =>
    if name < n then (name, value) :: (n, v) :: rest
    else if name = n then (name, value) :: rest
    else (n, v) :: put name value rest

/-- The variables of both; `top` decides where both have one. -/
def Environment.overlay (base top : Environment) : Environment :=
  top.foldl (fun env (name, value) => Environment.put name value env) base

inductive Capture
  | merged
  | separate
  deriving DecidableEq, Repr

structure Command where
  program : String
  args : List String := []
  workingDir : Option String := none
  env : Environment := []
  /-- A search-path variable and the directories that stand first in it. -/
  searchPath : Option (String × List String) := none
  timeout : Option Duration := none
  capture : Capture := .merged
  deriving DecidableEq, Repr

namespace Command

def withArg (c : Command) (arg : String) : Command := { c with args := c.args ++ [arg] }

def withArgs (c : Command) (args : List String) : Command := { c with args := c.args ++ args }

def inDir (c : Command) (dir : String) : Command := { c with workingDir := some dir }

def withVar (c : Command) (name value : String) : Command :=
  { c with env := c.env.put name value }

/-- Adds a directory behind those already given for the variable; those given for another variable
are dropped. -/
def withSearchDir (c : Command) (name dir : String) : Command :=
  match c.searchPath with
  | some (n, dirs) =>
    if n = name then { c with searchPath := some (n, dirs ++ [dir]) }
    else { c with searchPath := some (name, [dir]) }
  | none => { c with searchPath := some (name, [dir]) }

/-- A timeout of zero is none. -/
def withTimeout (c : Command) (t : Option Duration) : Command :=
  { c with timeout := t.filter (0 < ·) }

def withCapture (c : Command) (mode : Capture) : Command := { c with capture := mode }

def environment (c : Command) (inherited : Environment) : Except SearchPath.Fault Environment :=
  let env := inherited.overlay c.env
  match c.searchPath with
  | none => .ok env
  | some (name, dirs) =>
    match SearchPath.prepend dirs (env.lookup name) with
    | .ok value => .ok (env.put name value)
    | .error f => .error f

inductive LaunchFault
  | cancelled (program : String)
  | searchPath (cause : SearchPath.Fault)
  | nulInText (program : String)
  | refused (program : String) (cause : OsError)
  /-- The child could not be waited for, or not be looked at if it has a deadline. -/
  | lost (deadline : Bool) (cause : OsError)
  deriving DecidableEq, Repr

def LaunchFault.message : LaunchFault → String
  | cancelled program => s!"launch of {program} cancelled"
  | searchPath cause => cause.message
  | nulInText program => s!"failed to launch {program}: nul byte found in provided data"
  | refused program cause => s!"failed to launch {program}: {cause.message}"
  | lost true cause => s!"failed to poll child process: {cause.message}"
  | lost false cause => s!"failed to wait for child process: {cause.message}"

def holdsNul (c : Command) (env : Environment) : Bool :=
  let texts := c.program :: c.args ++ c.workingDir.toList ++ env.flatMap fun (n, v) => [n, v]
  texts.any (·.toList.contains '\x00')

end Command
end Triage
