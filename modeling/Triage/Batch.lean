import Triage.Finding

namespace Triage

structure Batch where
  findings : List Finding
  expected : Nat

namespace Batch

def shortfallOf (expected collected : Nat) : Nat := expected - collected

def shortfall (b : Batch) : Nat := shortfallOf b.expected b.findings.length

def complete (b : Batch) : Bool := b.shortfall == 0

end Batch
end Triage
