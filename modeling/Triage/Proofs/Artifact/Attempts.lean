import Mathlib.Data.List.Basic
import Triage.Artifact

set_option autoImplicit true

namespace Triage.Artifact

/-- An artifact that was tried, and what kept it from being written, if anything did. -/
structure Attempt where
  artifact : Artifact
  path : String
  fault : Option Fault
  deriving DecidableEq, Repr

namespace Attempt

def ofWrite (a : Artifact) (path : String) : Except Fault Unit → Attempt
  | .ok () => ⟨a, path, none⟩
  | .error f => ⟨a, path, some f⟩

@[simp] theorem ofWrite_artifact (a : Artifact) (path : String) (x : Except Fault Unit) :
    (ofWrite a path x).artifact = a := by
  cases x <;> rfl

@[simp] theorem ofWrite_path (a : Artifact) (path : String) (x : Except Fault Unit) :
    (ofWrite a path x).path = path := by
  cases x <;> rfl

theorem ofWrite_fault (a : Artifact) (path : String) (x : Except Fault Unit) :
    (ofWrite a path x).fault = none ↔ x.isOk = true := by
  cases x <;> simp [ofWrite, Except.isOk, Except.toBool]

def written? (t : Attempt) : Option String := if t.fault.isNone then some t.path else none

def failure? (t : Attempt) : Option (String × Fault) := t.fault.map (t.path, ·)

end Attempt

variable (st : Storage σ η)

def attempts (settings : Settings) (r : Report) : List Artifact → σ → List Attempt × σ
  | [], z => ([], z)
  | a :: as, z =>
    match a.path? settings with
    | none => attempts settings r as z
    | some path =>
      let (x, z) := write st a path r z
      let (ts, z) := attempts settings r as z
      (.ofWrite a path x :: ts, z)

def unwritten (ts : List Attempt) : List Artifact := (ts.filter (·.fault.isSome)).map (·.artifact)

def Log.ofAttempts (ts : List Attempt) : Log :=
  ⟨ts.filterMap Attempt.written?, ts.filterMap Attempt.failure?⟩

variable {st}

@[simp] theorem Log.ofAttempts_nil : Log.ofAttempts [] = {} := rfl

@[simp] theorem Log.ofAttempts_ok (a : Artifact) (path : String) (u : Unit) (ts : List Attempt) :
    Log.ofAttempts (.ofWrite a path (.ok u) :: ts) =
      ⟨path :: (Log.ofAttempts ts).written, (Log.ofAttempts ts).failures⟩ := rfl

@[simp] theorem Log.ofAttempts_error (a : Artifact) (path : String) (f : Fault)
    (ts : List Attempt) :
    Log.ofAttempts (.ofWrite a path (.error f) :: ts) =
      ⟨(Log.ofAttempts ts).written, (path, f) :: (Log.ofAttempts ts).failures⟩ := rfl

theorem foldl_writeOne (settings : Settings) (r : Report) (as : List Artifact) (log : Log) (z : σ) :
    as.foldl (writeOne st settings r) (log, z) =
      (⟨log.written ++ (Log.ofAttempts (attempts st settings r as z).1).written,
        log.failures ++ (Log.ofAttempts (attempts st settings r as z).1).failures⟩,
        (attempts st settings r as z).2) := by
  induction as generalizing log z with
  | nil => simp [attempts]
  | cons a as ih =>
    simp only [List.foldl_cons, attempts, writeOne]
    cases a.path? settings with
    | none => exact ih log z
    | some path =>
      simp only
      rcases write st a path r z with ⟨x, z₁⟩
      cases x with
      | ok => simp [ih]
      | error f => simp [ih]

theorem writeAll_eq (settings : Settings) (r : Report) (z : σ) :
    writeAll st settings r z =
      (.ofAttempts (attempts st settings r all z).1, (attempts st settings r all z).2) :=
  foldl_writeOne settings r all {} z

theorem map_attempts (settings : Settings) (r : Report) (as : List Artifact) (z : σ) :
    (attempts st settings r as z).1.map (fun t => (t.artifact, t.path)) =
      as.filterMap fun a => (a.path? settings).map (a, ·) := by
  induction as generalizing z with
  | nil => rfl
  | cons a as ih =>
    rw [attempts, List.filterMap_cons]
    cases a.path? settings with
    | none => exact ih z
    | some path =>
      simp only [List.map_cons, Attempt.ofWrite_artifact, Attempt.ofWrite_path, ih, Option.map_some]

theorem failures_eq_nil {ts : List Attempt} :
    (Log.ofAttempts ts).failures = [] ↔ unwritten ts = [] := by
  simp [Log.ofAttempts, unwritten, Attempt.failure?]

end Triage.Artifact
