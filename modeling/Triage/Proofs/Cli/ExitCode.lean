import Triage.Cli.Program
import Triage.Proofs.Artifact.Attempts
import Triage.Proofs.Discovery.Distinct

set_option autoImplicit true

namespace Triage

namespace Survey

variable {checks : Checks} {settings checked : Settings} {s : Session}

/-- What becomes of the files below a checked root: if there are any they are checked, until they are
given up at the end of the batch timeout. -/
inductive Comes (checks : Checks) (checked : Settings) (s : Session) : Batch → Session → Prop
  | nothing (hf : Discovery.collect s.machine.tree s.here checked = []) :
      Comes checks checked s ⟨[], 0⟩ s
  | batch (hf : Discovery.collect s.machine.tree s.here checked ≠ [])
      (hc : checks checked (Discovery.collect s.machine.tree s.here checked)
        (s.machine.now + checked.batchTimeout) s = some (b, s₁)) :
      Comes checks checked s b s₁

theorem run_of_error (checks : Checks) (h : settings.validate s.machine.tree s.here = .error f) :
    run checks settings s = some (.error (.setup f), s) := by
  simp only [run, prepare, h, Except.map]

theorem run_eq_some (h : settings.validate s.machine.tree s.here = .ok checked)
    (hd : (s.machine.now + settings.batchTimeout) / 1000000000 < Nat.pow 2 63) :
    run checks settings s = some (x, s₁) ↔
      ∃ b, Comes checks checked s b s₁ ∧ x = .ok (reportOf b) := by
  have ht : checked.batchTimeout = settings.batchTimeout := by
    obtain ⟨-, -, -, root, -, rfl⟩ := Settings.validate_eq_ok.mp h
    rfl
  have hd := Clock.deadline?_eq_some.mpr ⟨rfl, ht ▸ hd⟩
  cases hf : Discovery.collect s.machine.tree s.here checked with
  | nil =>
    simp only [run, prepare, h, hf, Except.map]
    constructor
    · intro he
      cases he
      exact ⟨⟨[], 0⟩, .nothing hf, rfl⟩
    · rintro ⟨b, hb, rfl⟩
      cases hb with
      | nothing => rfl
      | batch hn => exact absurd hf hn
  | cons file files =>
    simp only [run, prepare, h, hf, Except.map, hd]
    constructor
    · intro he
      obtain ⟨⟨b, s₂⟩, hc, he⟩ := Option.map_eq_some_iff.mp he
      cases he
      exact ⟨b, .batch (hf ▸ List.cons_ne_nil file files) (hf ▸ hc), rfl⟩
    · rintro ⟨b, hb, rfl⟩
      cases hb with
      | nothing hn => cases hn.symm.trans hf
      | batch _ hc =>
        rw [hf] at hc
        rw [hc]
        rfl

end Survey

namespace Cli
open Artifact (Attempt attempts unwritten)
open Survey (Checks Comes reportOf)

variable {checks : Checks} {settings checked : Settings} {s : Session} {host : Nat}

/-- A result that says how the attempts to write the artifacts of a report went. -/
structure Told (settings : Settings) (host : Nat) (r : Report) (ts : List Attempt)
    (result : Result) : Prop where
  tried : ts.map (fun t => (t.artifact, t.path)) =
    Artifact.all.filterMap fun a => (a.path? settings).map (a, ·)
  exitCode : result.exitCode = if unwritten ts = [] then 0 else 1
  output : result.output = "Script Health Checker\nUsing " ++ toString (settings.workerCount host) ++
    " worker thread(s)\n\n" ++
    (if r.findings = [] ∧ r.shortfall = 0 then
      "No script files found in the specified directory.\n" else "") ++
    r.summary ++
    String.join ((ts.filterMap Attempt.written?).map fun path => "Report saved to: " ++ path ++ "\n")
  errors : result.errors = (ts.filterMap Attempt.failure?).map fun (path, f) =>
    "Error writing " ++ path ++ ": " ++ f.message

theorem reportText_eq (r : Report) : reportText r =
    (if r.findings = [] ∧ r.shortfall = 0 then
      "No script files found in the specified directory.\n" else "") ++ r.summary := by
  simp only [reportText, Report.total, nothingFound, Bool.and_eq_true, decide_eq_true_eq,
    List.length_eq_zero_iff]

theorem told_conclude (st : Storage σ η) (settings : Settings) (host : Nat) (r : Report) (z : σ) :
    Told settings host r (attempts st settings r Artifact.all z).1
      (conclude st settings host (.ok r) z).1 where
  tried := Artifact.map_attempts settings r Artifact.all z
  exitCode := by
    simp only [conclude, Artifact.writeAll_eq, finish, List.isEmpty_iff, Artifact.failures_eq_nil]
    rfl
  output := by
    simp only [conclude, Artifact.writeAll_eq, finish, Artifact.Log.ofAttempts, reportText_eq,
      ← String.append_assoc]
    rfl
  errors := by
    simp only [conclude, Artifact.writeAll_eq, finish, Artifact.Log.ofAttempts]
    rfl

theorem survey_of_error (checks : Checks) (h : settings.validate s.machine.tree s.here = .error f)
    (host : Nat) : survey checks settings host s =
      some (⟨1, header settings host, ["Error: " ++ f.message]⟩, s) := by
  simp only [survey, Survey.run_of_error checks h]
  rfl

theorem told_survey (h : Survey.run checks settings s = some (.ok r, s₁)) (host : Nat) :
    ∃ result s₂, survey checks settings host s = some (result, s₂) ∧
      Told settings host r
        (attempts (FileTree.storage s₁.here) settings r Artifact.all s₁.machine.tree).1 result := by
  have ht := told_conclude (FileTree.storage s₁.here) settings host r s₁.machine.tree
  rcases hc : conclude (FileTree.storage s₁.here) settings host (.ok r) s₁.machine.tree with
    ⟨result, tree⟩
  rw [hc] at ht
  refine ⟨result, { s₁ with machine := { s₁.machine with tree } }, ?_, ht⟩
  simp only [survey, h, Option.map_some, hc]

/-- The artifacts that a session cannot write after a survey. -/
def unwrittenAfter (checks : Checks) (settings : Settings) (s : Session) : List Artifact :=
  match Survey.run checks settings s with
  | some (.ok r, s) =>
    unwritten (attempts (FileTree.storage s.here) settings r Artifact.all s.machine.tree).1
  | _ => []

theorem exitCode_survey (hd : (s.machine.now + settings.batchTimeout) / 1000000000 < Nat.pow 2 63)
    (h : survey checks settings host s = some (result, s₂)) :
    result.exitCode = if (settings.validate s.machine.tree s.here).isOk = true ∧
      unwrittenAfter checks settings s = [] then 0 else 1 := by
  cases hv : settings.validate s.machine.tree s.here with
  | error f =>
    rw [survey_of_error checks hv host] at h
    cases h
    exact (if_neg fun h => Bool.false_ne_true h.1).symm
  | ok checked =>
    obtain ⟨⟨x, s₁⟩, hx, he⟩ := Option.map_eq_some_iff.mp h
    obtain ⟨b, -, rfl⟩ := (Survey.run_eq_some hv hd).mp hx
    obtain ⟨result', s₂', he', ht⟩ := told_survey hx host
    cases h.symm.trans he'
    simp only [ht.exitCode, unwrittenAfter, hx, Except.isOk, Except.toBool, true_and]

/-- A project of two scripts. -/
def pairProject : Session :=
  .start (.put (.put {} [] "/p/a.py" (.file [])) [] "/p/b.py" (.file [])) [] []

def pairSettings : Settings :=
  { root := "/p", jsonFile := some "/none/r.json", csvFile := some "/p/r.csv" }

def boom : Finding := ⟨"/p/a.py", .runtimeFailure, "boom", none⟩

def oneFails : Checks := fun _ _ _ s => some (⟨[boom], 2⟩, s)

end Cli
end Triage
