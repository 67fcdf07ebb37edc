namespace Triage

inductive Ending
  | exited (code : Nat)
  | killed (signal : Nat)
  deriving DecidableEq, Repr

namespace Ending

def code : Ending → Nat
  | exited n => n
  | killed n => 128 + n

end Ending

structure Outcome where
  exitCode : Int
  /-- What was printed; only on the standard output if `errors` is there. -/
  output : String
  errors : Option String
  abnormal : Bool
  deriving DecidableEq, Repr

namespace Outcome

/-- The exit code of a child that ran for too long. -/
def timeoutCode : Int := -1

def success (o : Outcome) : Bool := o.exitCode == 0 && !o.abnormal

def timedOut (o : Outcome) : Bool := o.abnormal && o.exitCode == timeoutCode

def combined (o : Outcome) : String := o.output ++ o.errors.getD ""

/-- The outcome of a child that ended by itself, or was killed for running too long. -/
def of (ending : Option Ending) (output : String) (errors : Option String) : Outcome :=
  match ending with
  | some (.exited n) => ⟨n, output, errors, false⟩
  | some (.killed n) => ⟨(Ending.killed n).code, output, errors, true⟩
  | none => ⟨timeoutCode, output, errors, true⟩

end Outcome
end Triage
