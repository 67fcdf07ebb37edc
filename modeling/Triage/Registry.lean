import Triage.Command

namespace Triage

structure Registry where
  cancelled : Bool := false
  live : List Pid := []
  deriving DecidableEq, Repr

namespace Registry

/-- Refuses all further children; those that are to be killed are the live ones. -/
def cancel (r : Registry) : Registry := { r with cancelled := true }

/-- Adds a child, unless the registry was cancelled. -/
def register? (r : Registry) (child : Pid) : Option Registry :=
  if r.cancelled then none
  else if r.live.contains child then some r
  else some { r with live := child :: r.live }

def unregister (r : Registry) (child : Pid) : Registry :=
  { r with live := r.live.filter (· ≠ child) }

@[simp] theorem cancel_cancelled (r : Registry) : r.cancel.cancelled = true := rfl

@[simp] theorem cancel_live (r : Registry) : r.cancel.live = r.live := rfl

@[simp] theorem unregister_cancelled (r : Registry) (child : Pid) :
    (r.unregister child).cancelled = r.cancelled := rfl

@[simp] theorem mem_unregister {r : Registry} {child pid : Pid} :
    pid ∈ (r.unregister child).live ↔ pid ∈ r.live ∧ pid ≠ child := by
  simp [unregister]

theorem register?_eq_none {r : Registry} {child : Pid} :
    r.register? child = none ↔ r.cancelled = true := by
  unfold register?
  split
  · simp_all
  · split <;> simp_all

end Registry
end Triage
