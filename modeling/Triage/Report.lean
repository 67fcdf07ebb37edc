import Triage.Finding

namespace Triage

structure Tally where
  counts : List (Status × Nat) := Status.all.map (·, 0)

namespace Tally

def count (t : Tally) (s : Status) : Nat := (t.counts.lookup s).getD 0

def add (t : Tally) (s : Status) : Tally :=
  ⟨t.counts.map fun (key, n) => (key, if key = s then n + 1 else n)⟩

def ofFindings (fs : List Finding) : Tally := fs.foldl (fun t f => t.add f.status) {}

end Tally

structure Report where
  /-- Ordered by file. -/
  findings : List Finding
  tally : Tally
  /-- Checks that had not ended when the run was cut short. -/
  shortfall : Nat := 0

namespace Report

def ofFindings (fs : List Finding) : Report :=
  let fs := fs.mergeSort fun f g => decide (f.file ≤ g.file)
  { findings := fs, tally := .ofFindings fs }

def withShortfall (r : Report) (n : Nat) : Report := { r with shortfall := n }

def total (r : Report) : Nat := r.findings.length

def count (r : Report) (s : Status) : Nat := r.tally.count s

def passing (r : Report) : Nat := r.findings.countP (·.status.passing)

def byStatus (r : Report) (s : Status) : List Finding := r.findings.filter (·.status = s)

end Report
end Triage
