import Triage.Csv
import Triage.Finding.Json
import Triage.Report.Summary
import Triage.Settings
import Triage.Storage

namespace Triage

inductive Artifact
  | json
  | csv
  | text
  deriving DecidableEq, Repr

namespace Artifact

inductive Fault
  | create (path : String) (cause : OsError)
  | serialize (cause : OsError)
  | csvRecord (path : String) (cause : OsError)
  | csvFlush (path : String) (cause : OsError)
  | write (cause : OsError)
  deriving DecidableEq, Repr

def Fault.message : Fault → String
  | create path e => s!"Failed to create {path}: {e.message}"
  | serialize e => s!"Failed to serialize results: {e.message}"
  | csvRecord path e => s!"Failed to write CSV to {path}: {e.message}: {e.message}"
  | csvFlush path e => s!"Failed to write CSV to {path}: {e.message}"
  | write e => e.message

def all : List Artifact := [json, csv, text]

def path? (s : Settings) : Artifact → Option String
  | json => s.jsonFile
  | csv => s.csvFile
  | text => s.reportFile

/-- The text of an artifact in the pieces in which it is written. -/
def pieces (r : Report) : Artifact → List String
  | json => [Finding.listToJson .indented r.findings, "\n"]
  | csv => [Csv.ofFindings r.findings]
  | text => [r.summary]

def render (r : Report) (a : Artifact) : String := String.join (a.pieces r)

theorem render_json (r : Report) :
    json.render r = Finding.listToJson .indented r.findings ++ "\n" := by
  simp only [render, pieces, String.join, List.foldl_cons, List.foldl_nil, String.empty_append]

theorem render_csv (r : Report) : csv.render r = Csv.ofFindings r.findings := by
  simp only [render, pieces, String.join, List.foldl_cons, List.foldl_nil, String.empty_append]

theorem render_text (r : Report) : text.render r = r.summary := by
  simp only [render, pieces, String.join, List.foldl_cons, List.foldl_nil, String.empty_append]

def pieceFault (a : Artifact) (path : String) (piece : Nat) (e : OsError) : Fault :=
  match a, piece with
  | json, 0 => .serialize e
  | json, _ => .write e
  | csv, _ => .csvRecord path e
  | text, _ => .write e

def flushFault (a : Artifact) (path : String) (e : OsError) : Fault :=
  match a with
  | csv => .csvFlush path e
  | _ => .write e

variable {σ η : Type} (st : Storage σ η)

/-- Writes the pieces from number `n` on, and then what is held back. -/
def writePieces (a : Artifact) (path : String) (file : η) :
    (n : Nat) → (held : Bytes) → List String → σ → Except Fault Unit × σ
  | _, held, [], s =>
    match st.flush file held s with
    | (.ok (), s) => (.ok (), s)
    | (.error e, s) => (.error (a.flushFault path e), s)
  | n, held, p :: ps, s =>
    match st.put file held (Text.Utf8.encode p.toList) s with
    | (.ok held, s) => writePieces a path file (n + 1) held ps s
    | (.error e, s) => (.error (a.pieceFault path n e), s)

def write (a : Artifact) (path : String) (r : Report) (s : σ) : Except Fault Unit × σ :=
  match st.create path s with
  | (.error e, s) => (.error (.create path e), s)
  | (.ok file, s) => writePieces st a path file 0 [] (a.pieces r) s

structure Log where
  written : List String := []
  failures : List (String × Fault) := []
  deriving DecidableEq, Repr

def writeOne (settings : Settings) (r : Report) (done : Log × σ) (a : Artifact) : Log × σ :=
  match a.path? settings with
  | none => done
  | some path =>
    match write st a path r done.2 with
    | (.ok (), s) => ({ done.1 with written := done.1.written ++ [path] }, s)
    | (.error f, s) => ({ done.1 with failures := done.1.failures ++ [(path, f)] }, s)

def writeAll (settings : Settings) (r : Report) (s : σ) : Log × σ :=
  all.foldl (writeOne st settings r) ({}, s)

end Artifact
end Triage
