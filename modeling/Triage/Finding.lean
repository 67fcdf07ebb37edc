import Triage.Status

namespace Triage

structure Finding where
  file : String
  status : Status
  message : String
  /-- What the primary check printed, if it is worth keeping. -/
  output : Option String := none
  deriving DecidableEq, Repr

namespace Finding

def ok (file : String) : Finding := ⟨file, .ok, "", none⟩

/-- Keeps `output`, unless it is empty. -/
def withOutput (f : Finding) (output : String) : Finding :=
  { f with output := if output.isEmpty then none else some output }

def fields (f : Finding) : List (String × String) :=
  [("file", f.file), ("status", f.status.name), ("message", f.message)] ++
    (f.output.map fun s => ("output", s)).toList

@[simp] theorem withOutput_empty (f : Finding) : f.withOutput "" = { f with output := none } := rfl

end Finding
end Triage
