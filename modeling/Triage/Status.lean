namespace Triage

inductive Status
  /-- The primary check ended well. -/
  | ok
  /-- The primary check failed, but the file parses: its surroundings are to blame. -/
  | okWithWarning
  | syntaxError
  /-- A module that the file needs is not there. -/
  | dependencyFailure
  /-- The file failed while it ran, or ran for too long. -/
  | runtimeFailure
  /-- The check itself could not be carried out. -/
  | processError
  deriving DecidableEq, Repr

namespace Status

def all : List Status :=
  [ok, okWithWarning, syntaxError, dependencyFailure, runtimeFailure, processError]

def name : Status → String
  | ok => "OK"
  | okWithWarning => "OK_WITH_WARNING"
  | syntaxError => "SYNTAX_ERROR"
  | dependencyFailure => "DEPENDENCY_FAILURE"
  | runtimeFailure => "RUNTIME_FAILURE"
  | processError => "PROCESS_ERROR"

def ofName? (s : String) : Option Status := all.find? (·.name = s)

def passing : Status → Bool
  | ok | okWithWarning => true
  | _ => false

theorem mem_all (s : Status) : s ∈ all := by cases s <;> decide

theorem all_nodup : all.Nodup := by decide

@[simp] theorem ofName?_name (s : Status) : ofName? s.name = some s := by cases s <;> decide

theorem name_of_ofName? {s : String} {t : Status} (h : ofName? s = some t) : t.name = s := by
  simpa using List.find?_some h

end Status
end Triage
