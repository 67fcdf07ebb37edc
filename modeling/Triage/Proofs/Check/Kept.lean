import Triage.Check
import Triage.Proofs.Text.Lines

set_option autoImplicit true

namespace Triage.Check
open Text

/-- The number of characters in the message and the output of a finding. -/
def kept (f : Finding) : Nat := f.message.length + (f.output.getD "").length

def outputLimit (s : Settings) : Nat := s.maxOutputChars + clipMark.length

def timeoutMessage (s : Settings) : String :=
  let limit := match s.checkTimeout with
    | some d => s!" after {seconds d}s"
    | none => ""
  s!"timed out{limit}"

/-- What stands in a message besides what the primary check printed. -/
def frame (s : Settings) : Verdict → String
  | .defect description => s!"{description} | runtime output: "
  | .unreadable reason => s!"parse check could not read the file: {reason}"
  | .inconclusive doubt => s!"parse check failed: {doubt.message}"
  | .valid => timeoutMessage s

variable {s : Settings} {path : String} {verdict : Verdict} {primary : Outcome}

theorem length_clip_le (limit : Nat) (s : List Char) :
    (clip limit s).length ≤ limit + clipMark.length := by
  unfold clip
  split
  · omega
  · rw [List.length_append, List.length_take]
    omega

theorem length_clipped_le (s : Settings) (output : List Char) :
    (clipped s output).length ≤ outputLimit s := by
  rw [clipped, String.length_ofList]
  exact length_clip_le s.maxOutputChars output

theorem kept_withOutput (f : Finding) (output : String) :
    kept (f.withOutput output) = f.message.length + output.length := by
  unfold kept Finding.withOutput
  cases h : output.isEmpty with
  | true => rw [String.isEmpty_iff.mp h]; rfl
  | false => rfl

theorem length_output_withOutput (f : Finding) (output : String) :
    ((f.withOutput output).output.getD "").length = output.length := by
  have h := kept_withOutput f output
  unfold kept at h
  exact Nat.add_left_cancel h

def oneLine (n : Nat) : Outcome := ⟨1, String.ofList (List.replicate n 'x'), none, false⟩

theorem trimmed_lines_oneLine (n : Nat) :
    (lines (oneLine (n + 1)).combined.toList).map trim = [List.replicate (n + 1) 'x'] := by
  have hb : ∀ c ∈ List.replicate (n + 1) 'x', isBlank c = false := by
    intro c hc
    rw [List.eq_of_mem_replicate hc]
    rfl
  have hn : '\n' ∉ List.replicate (n + 1) 'x' := fun hc => absurd (hb _ hc) (by decide)
  have ho : (oneLine (n + 1)).combined.toList = List.replicate (n + 1) 'x' ++ [] := by
    simp [oneLine, Outcome.combined]
  rw [ho, lines_of_not_mem hn (by simp) (endsBlank_of_forall hb) (.inl rfl), List.map_singleton,
    trim_of_forall hb]

theorem lastWords_oneLine (n : Nat) :
    lastWords (oneLine (n + 1)).combined.toList = String.ofList (List.replicate (n + 1) 'x') := by
  rw [lastWords, lastMeaningfulLine?, trimmed_lines_oneLine]
  rfl

theorem timedOut_oneLine (n : Nat) : (oneLine n).timedOut = false := rfl

theorem length_classifyValid (s : Settings) (n : Nat) :
    n < (classifyValid s (oneLine (n + 1))).2.length := by
  have hw := congrArg String.length (lastWords_oneLine n)
  rw [String.length_ofList, List.length_replicate] at hw
  have ha : ∀ a : String, n < (a ++ lastWords (oneLine (n + 1)).combined.toList).length := by
    intro a
    rw [String.length_append, hw]
    omega
  -- By every policy the line stands in the message, as the last one or as that of a missing module.
  unfold classifyValid
  cases s.policy with
  | pass => exact ha _
  | warn => exact ha _
  | classify =>
    simp only
    cases hm : missingModuleLine? (oneLine (n + 1)).combined.toList with
    | none => exact ha _
    | some line =>
      have hl := List.mem_of_find?_eq_some hm
      rw [trimmed_lines_oneLine, List.mem_singleton] at hl
      simp [hl]

theorem lt_kept (s : Settings) (path : String) (n : Nat) :
    n < kept (classify s path (oneLine (n + 1)) .valid) := by
  have hm := length_classifyValid s n
  simp only [classify, timedOut_oneLine, Bool.false_eq_true, if_false, kept_withOutput]
  omega

theorem length_output_le (s : Settings) (path : String) (primary : Outcome) (verdict : Verdict) :
    ((classify s path primary verdict).output.getD "").length ≤ outputLimit s := by
  have hl := length_clipped_le s (trimEnd primary.combined.toList)
  cases verdict with
  | defect => exact Nat.zero_le _
  | unreadable => rwa [classify, length_output_withOutput]
  | inconclusive => rwa [classify, length_output_withOutput]
  | valid =>
    unfold classify
    simp only
    split <;> rwa [length_output_withOutput]

theorem kept_le (s : Settings) (path : String) (h : verdict ≠ .valid ∨ primary.timedOut = true) :
    kept (classify s path primary verdict) ≤ (frame s verdict).length + outputLimit s := by
  have hl := length_clipped_le s (trimEnd primary.combined.toList)
  cases verdict with
  | defect description =>
    have hf : description.length ≤ (frame s (.defect description)).length := by
      show _ ≤ (description ++ " | runtime output: ").length
      rw [String.length_append]
      exact Nat.le_add_right _ _
    simp only [classify, kept, Option.getD_none, String.length_empty, Nat.add_zero]
    split
    · omega
    · rw [String.length_append]
      exact Nat.add_le_add_left hl _
  | unreadable =>
    rw [classify, kept_withOutput]
    exact Nat.add_le_add_left hl _
  | inconclusive =>
    rw [classify, kept_withOutput]
    exact Nat.add_le_add_left hl _
  | valid =>
    have ht : primary.timedOut = true := h.resolve_left fun hv => hv rfl
    simp only [classify, ht, if_true, kept_withOutput]
    exact Nat.add_le_add_left hl _

/-- In a finding the output is never longer than its limit.  The message is not either, unless the file
parses and the primary check ended in time: then it has a line of the output in it that may be as
long as you like, and so there is no limit for such a file, by whatever settings. -/
theorem kept_limited (s : Settings) (path : String) (verdict : Verdict) :
    (∀ primary, ((classify s path primary verdict).output.getD "").length ≤ outputLimit s) ∧
    (∀ primary, verdict ≠ .valid ∨ primary.timedOut = true →
      kept (classify s path primary verdict) ≤ (frame s verdict).length + outputLimit s) ∧
    ((∃ limit, ∀ primary, kept (classify s path primary verdict) ≤ limit) ↔ verdict ≠ .valid) := by
  refine ⟨fun primary => length_output_le s path primary verdict, fun primary => kept_le s path, ?_⟩
  constructor
  · rintro ⟨limit, hl⟩ rfl
    exact absurd (hl (oneLine (limit + 1))) (Nat.not_le.mpr (lt_kept s path limit))
  · exact fun hv => ⟨_, fun primary => kept_le s path (.inl hv)⟩

/-- A file that parses can keep more than any limit. -/
theorem not_always_limited :
    ¬∀ (s : Settings) (path : String) (verdict : Verdict), ∃ limit, ∀ primary,
      kept (classify s path primary verdict) ≤ limit := by
  intro h
  obtain ⟨limit, hl⟩ := h { root := "/" } "/a.py" .valid
  exact absurd (hl (oneLine (limit + 1))) (Nat.not_le.mpr (lt_kept _ _ limit))

end Triage.Check
