import Triage.Finding

namespace Triage.Csv

def quote (s : List Char) : List Char :=
  '"' :: s.flatMap (fun c => if c = '"' then ['"', '"'] else [c]) ++ ['"']

def record (fields : List String) : List Char :=
  List.intercalate [','] (fields.map fun s => quote s.toList) ++ ['\n']

def header : List String := ["file", "status", "message"]

def row (f : Finding) : List String := [f.file, f.status.name, f.message]

def ofFindings (fs : List Finding) : String :=
  String.ofList ((header :: fs.map row).flatMap record)

end Triage.Csv
