import Triage.Shell.Syntax
import Triage.Command

namespace Triage.Shell

structure Var where
  value : String
  exported : Bool := false
  deriving Repr

structure State where
  name : String
  params : List String := []
  vars : List (String × Var) := []
  functions : List (String × Cmd) := []
  status : Nat := 0
  /-- How the command of the last substitution ended, if the running command has one. -/
  substituted : Option Nat := none
  /-- The path of the working directory, by the way that led to it. -/
  dir : String := "/"
  self : Pid
  lastJob : Option Pid := none
  exitOnFailure : Bool := false
  wantsSet : Bool := false
  /-- What is run when a signal comes, by its number, and at the end, which has the number 0. -/
  traps : List (Nat × String) := []
  depth : Nat := 0
  line : Nat := 1

namespace State

def var? (s : State) (name : String) : Option String := (s.vars.lookup name).map (·.value)

def assign (s : State) (name value : String) : State :=
  let exported := ((s.vars.lookup name).map (·.exported)).getD false
  { s with vars := (name, ⟨value, exported⟩) :: s.vars.filter (·.1 ≠ name) }

def exportVar (s : State) (name : String) : State :=
  let value := (s.var? name).getD ""
  { s with vars := (name, ⟨value, true⟩) :: s.vars.filter (·.1 ≠ name) }

def unset (s : State) (name : String) : State := { s with vars := s.vars.filter (·.1 ≠ name) }

def restore (s : State) (name : String) (old : Option Var) : State :=
  match old with
  | some v => { s with vars := (name, v) :: s.vars.filter (·.1 ≠ name) }
  | none => s.unset name

def optionLetters : List Char := "efIimnsxvVECabuo".toList

def setFlag (s : State) (letter : Char) (on : Bool) : State :=
  match letter with
  | 'e' => { s with exitOnFailure := on }
  | 'u' => { s with wantsSet := on }
  | _ => s

def environment (s : State) : Environment :=
  (s.vars.filter (·.2.exported)).map fun (name, v) => (name, v.value)

def value? (s : State) (name : String) : Option String :=
  match name with
  | "0" => some s.name
  | "#" => some (toString s.params.length)
  | "?" => some (toString s.status)
  | "$" => some (toString s.self)
  | "!" => s.lastJob.map toString
  | "-" => some ((if s.exitOnFailure then "e" else "") ++ (if s.wantsSet then "u" else ""))
  | "@" | "*" => if s.params.isEmpty then none else some (" ".intercalate s.params)
  | name =>
    match name.toNat? with
    | some n => s.params[n - 1]?
    | none => s.var? name

def separators (s : State) : List Char := ((s.var? "IFS").getD " \t\n").toList

end State
end Triage.Shell
