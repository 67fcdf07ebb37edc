import Triage.Check
import Triage.Proofs.Text.Infix

set_option autoImplicit true

namespace Triage.Check
open Text

def SaysMissing (text : List Char) : Prop := ∃ sign ∈ missingModuleSigns, sign <:+: text

theorem any_contains_iff : missingModuleSigns.any (contains · text) = true ↔ SaysMissing text := by
  simp only [List.any_eq_true, contains_iff, SaysMissing]

/-- No sign is cut in two when a text is trimmed or cut into lines. -/
theorem sign_whole (h : sign ∈ missingModuleSigns) :
    sign ≠ [] ∧ '\n' ∉ sign ∧ sign.head?.any isBlank = false ∧ endsBlank sign = false := by
  revert sign
  decide

theorem saysMissing_trim (text : List Char) : SaysMissing (trim text) ↔ SaysMissing text := by
  refine exists_congr fun sign => and_congr_right fun hs => ?_
  obtain ⟨hne, -, hh, hl⟩ := sign_whole hs
  exact infix_trim hne hh hl text

theorem saysMissing_iff_exists_line (text : List Char) :
    SaysMissing text ↔ ∃ l ∈ lines text, SaysMissing l := by
  have hs : SaysMissing text ↔ ∃ sign ∈ missingModuleSigns, ∃ l ∈ lines text, sign <:+: l := by
    refine exists_congr fun sign => and_congr_right fun hs => ?_
    obtain ⟨hne, hn, hh, hl⟩ := sign_whole hs
    exact infix_iff_exists_line hne hn hh hl text
  rw [hs]
  unfold SaysMissing
  grind

theorem missingModuleLine?_eq (text : List Char) :
    missingModuleLine? text =
      ((lines text).find? fun l => missingModuleSigns.any (contains · l)).map trim := by
  have ht : (fun l => missingModuleSigns.any (contains · l)) ∘ trim =
      fun l => missingModuleSigns.any (contains · l) := by
    funext l
    rw [Function.comp_apply, Bool.eq_iff_iff, any_contains_iff, any_contains_iff, saysMissing_trim]
  rw [missingModuleLine?, List.find?_map, ht]

theorem missingModuleLine?_eq_none : missingModuleLine? text = none ↔ ¬SaysMissing text := by
  rw [missingModuleLine?_eq, Option.map_eq_none_iff, List.find?_eq_none,
    saysMissing_iff_exists_line]
  simp only [any_contains_iff, not_exists, not_and]

theorem missingModuleLine?_eq_some (h : missingModuleLine? text = some line) :
    ∃ before l after, lines text = before ++ l :: after ∧ (∀ k ∈ before, ¬SaysMissing k) ∧
      SaysMissing l ∧ line = trim l := by
  rw [missingModuleLine?_eq, Option.map_eq_some_iff] at h
  obtain ⟨l, hl, rfl⟩ := h
  obtain ⟨hs, before, after, he, hb⟩ := List.find?_eq_some_iff_append.mp hl
  refine ⟨before, l, after, he, fun k hk hc => ?_, any_contains_iff.mp hs, rfl⟩
  rw [← any_contains_iff] at hc
  simpa [hc] using hb k hk

theorem classify_limit (s : Settings) (limit : Nat) (path : String) (primary : Outcome)
    (verdict : Verdict) :
    let f := classify s path primary verdict
    let g := classify { s with maxOutputChars := limit } path primary verdict
    g.status = f.status ∧ (f.status ≠ .syntaxError → g.message = f.message) := by
  cases verdict with
  | defect => simp [classify]
  | unreadable => simp [classify, Finding.withOutput]
  | inconclusive => simp [classify, Finding.withOutput]
  | valid =>
    have hv : classifyValid { s with maxOutputChars := limit } primary = classifyValid s primary :=
      rfl
    cases ht : primary.timedOut <;> simp [classify, ht, hv, Finding.withOutput]

theorem classify_valid {s : Settings} {primary : Outcome} (hp : s.policy = .classify)
    (ht : primary.timedOut = false) (path : String) :
    let f := classify s path primary .valid
    match missingModuleLine? primary.combined.toList with
    | some line => f.status = .dependencyFailure ∧ f.message = String.ofList line
    | none => f.status = .runtimeFailure := by
  simp only [classify, ht, Bool.false_eq_true, if_false, classifyValid, hp]
  cases missingModuleLine? primary.combined.toList with
  | some line => exact ⟨rfl, rfl⟩
  | none => rfl

/-- How much is kept of an output decides nothing: not the status of a finding, nor its message
unless the file is broken.  So whether a module is missing is told by the whole of what the primary
check printed, and the message is the first line that says so. -/
theorem classify_whatever_is_kept (s : Settings) (limit : Nat) (path : String) (primary : Outcome)
    (verdict : Verdict) :
    let f := classify s path primary verdict
    let g := classify { s with maxOutputChars := limit } path primary verdict
    let text := primary.combined.toList
    g.status = f.status ∧ (f.status ≠ .syntaxError → g.message = f.message) ∧
    (s.policy = .classify → verdict = .valid → primary.timedOut = false →
      (f.status = .dependencyFailure ↔ SaysMissing text) ∧
      (f.status = .runtimeFailure ↔ ¬SaysMissing text) ∧
      (SaysMissing text → ∃ before line after, lines text = before ++ line :: after ∧
        (∀ l ∈ before, ¬SaysMissing l) ∧ SaysMissing line ∧
        f.message = String.ofList (trim line))) := by
  obtain ⟨hs, hm⟩ := classify_limit s limit path primary verdict
  refine ⟨hs, hm, ?_⟩
  rintro hp rfl ht
  have hc := classify_valid hp ht path
  cases hl : missingModuleLine? primary.combined.toList with
  | none =>
    rw [hl] at hc
    have hn := missingModuleLine?_eq_none.mp hl
    simp [hc, hn]
  | some line =>
    rw [hl] at hc
    obtain ⟨hc, hm⟩ := hc
    obtain ⟨before, l, after, he, hb, hs, rfl⟩ := missingModuleLine?_eq_some hl
    have hy := (saysMissing_iff_exists_line primary.combined.toList).mpr
      ⟨l, he ▸ List.mem_append_right before List.mem_cons_self, hs⟩
    refine ⟨iff_of_true hc hy, iff_of_false ?_ (not_not.mpr hy), fun _ => ?_⟩
    · simp [hc]
    · exact ⟨before, l, after, he, hb, hs, hm⟩

def longFailure : Outcome :=
  ⟨1, "Traceback (most recent call last):\r\n\tImportError: no queue \r\n", some "bye", false⟩

theorem classify_longFailure :
    let s : Settings := { root := "/", policy := .classify, maxOutputChars := 4 }
    let f := classify { s with maxOutputChars := 1000 } "/a.py" longFailure .valid
    f.status = .dependencyFailure ∧ f.message = "ImportError: no queue" := by
  intro s f
  obtain ⟨hs, hm, hc⟩ := classify_whatever_is_kept s 1000 "/a.py" longFailure .valid
  have hy : SaysMissing longFailure.combined.toList := any_contains_iff.mp (by decide +kernel)
  have hd := (hc rfl rfl rfl).1.mpr hy
  have hn : (classify s "/a.py" longFailure .valid).status ≠ .syntaxError := by simp [hd]
  exact ⟨hs.trans hd, (hm hn).trans (by decide +kernel)⟩

end Triage.Check
