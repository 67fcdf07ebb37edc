import Triage.Clock

namespace Triage

inductive Mode
  | run
  | «import»
  | lint
  deriving DecidableEq, Repr

inductive Policy
  | pass
  | warn
  | classify
  deriving DecidableEq, Repr

/-- Equal but for the case of ASCII letters. -/
def sameIgnoringCase (s t : String) : Bool := s.toList.map Char.toLower == t.toList.map Char.toLower

def chooseByName? (ignoreCase : Bool) (named : List (String × α)) (s : String) : Option α :=
  (named.find? fun (name, _) => if ignoreCase then sameIgnoringCase name s else name == s).map (·.2)

def Mode.named : List (String × Mode) := [("run", run), ("import", .import), ("lint", lint)]

def Policy.named : List (String × Policy) :=
  [("pass", pass), ("warn", warn), ("classify", classify)]

structure Settings where
  root : String
  interpreter : String := "python"
  interpreterArgs : List String := []
  extension : String := "py"
  excludedDirs : List String :=
    ["venv", ".venv", "env", "deps", "site-packages", "__pycache__", "node_modules", ".git", ".tox"]
  workers : Option Nat := none
  checkTimeout : Option Duration := none
  parseTimeout : Duration := Clock.seconds 10
  batchTimeout : Duration := Clock.seconds 1800
  /-- Stands first in `searchPathVar` for the child of a primary check. -/
  searchPath : Option String := none
  searchPathVar : String := "PYTHONPATH"
  mode : Mode := .run
  lintModule : String := "pyflakes"
  policy : Policy := .warn
  maxOutputChars : Nat := 1000
  jsonFile : Option String := none
  csvFile : Option String := none
  reportFile : Option String := none
  deriving DecidableEq, Repr

namespace Settings

/-- A check timeout of zero is none. -/
def withCheckTimeout (s : Settings) (t : Duration) : Settings :=
  { s with checkTimeout := if t = 0 then none else some t }

def exclude (s : Settings) (name : String) : Settings :=
  { s with excludedDirs := s.excludedDirs ++ [name] }

def isExcludedDir (s : Settings) (name : String) : Bool :=
  s.excludedDirs.any (sameIgnoringCase · name)

/-- The number of workers, on a machine that runs `host` of them unless told otherwise. -/
def workerCount (s : Settings) (host : Nat) : Nat :=
  match s.workers with
  | none | some 0 => host
  | some n => n

end Settings
end Triage
