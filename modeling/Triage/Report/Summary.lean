import Triage.Report
import Triage.Text.Blank
import Triage.Text.Rounding

namespace Triage.Report
open Text

def line (text : String) : List Char := text.toList ++ ['\n']

def healthRate (r : Report) : String :=
  (((Ratio.ofNat r.passing).toDouble.div (Ratio.ofNat r.total).toDouble).mul (.ofNat 100)).fixed 2

def statistics (r : Report) : List Char :=
  [line "Script Health Report", line "====================", line "", line "Summary Statistics:",
    line "-------------------", line s!"  Total files checked: {r.total}"].flatten ++
  (Status.all.flatMap fun s => line s!"  {s.name}: {r.count s}") ++
  (if 0 < r.total then line s!"  Health rate: {r.healthRate}%" else []) ++
  (if 0 < r.shortfall then line s!"  Unfinished checks: {r.shortfall}" else []) ++
  line ""

/-- What is said about a file below its name. -/
def detail? (f : Finding) : Option (List Char) :=
  let text := match f.status with
    | .ok => none
    | .okWithWarning => (lines f.message.toList).head?
    | _ => some f.message.toList
  text.filter fun t => !(trim t).isEmpty

def detailIndent : List Char := List.replicate 6 ' '

def indentLines (text : List Char) : List Char :=
  detailIndent ++ text.flatMap fun c => if c = '\n' then '\n' :: detailIndent else [c]

def entry (f : Finding) : List Char :=
  line ("  " ++ f.file) ++
  match detail? f with
  | none => []
  | some text => indentLines (trimEnd text) ++ ['\n']

def heading (r : Report) (s : Status) : String := s!"{s.name} ({r.count s}):"

def group (r : Report) (s : Status) : List Char :=
  if r.count s = 0 then []
  else
    line (r.heading s) ++ line ("".pushn '-' (r.heading s).length) ++
      (r.byStatus s).flatMap entry ++ line ""

def groups (r : Report) : List Char := Status.all.flatMap r.group

def summary (r : Report) : String := String.ofList (r.statistics ++ r.groups)

end Triage.Report
