import Mathlib.Data.List.Basic
import Triage.Proofs.Text.Lines
import Triage.SearchPath

set_option autoImplicit true

namespace Triage.SearchPath

/-- The entries of an existing value that stay in it. -/
def kept (existing : Option String) : List String :=
  ((existing.map entries).getD []).filter (!·.isEmpty)

theorem separator_not_mem_of_mem_entries (h : d ∈ entries value) : separator ∉ d.toList := by
  obtain ⟨piece, hp, rfl⟩ := List.mem_map.mp h
  rw [String.toList_ofList]
  exact Text.not_mem_of_mem_splitAt hp

theorem separator_not_mem_of_mem_kept {existing : Option String} (h : d ∈ kept existing) :
    separator ∉ d.toList := by
  cases existing with
  | none => cases h
  | some value => exact separator_not_mem_of_mem_entries (List.mem_of_mem_filter h)

theorem entries_intercalate {dirs : List String} (h : ∀ d ∈ dirs, separator ∉ d.toList)
    (hne : dirs ≠ []) : entries (":".intercalate dirs) = dirs :=
  Text.map_ofList_splitAt_intercalate rfl h hne

theorem prepend_eq (dirs : List String) (existing : Option String) :
    prepend dirs existing =
      if ∃ d ∈ dirs, separator ∈ d.toList then .error .separatorInside
      else .ok (":".intercalate (dirs ++ kept existing)) := by
  have hk : (kept existing).any (·.toList.contains separator) = false := by
    rw [List.any_eq_false]
    intro d hm
    simpa using separator_not_mem_of_mem_kept hm
  have ha : (dirs ++ kept existing).any (·.toList.contains separator) = true ↔
      ∃ d ∈ dirs, separator ∈ d.toList := by
    rw [List.any_append, hk, Bool.or_false]
    simp
  simp only [← ha]
  rfl

theorem prepend_eq_error (dirs : List String) (existing : Option String) :
    prepend dirs existing = .error f ↔ ∃ d ∈ dirs, separator ∈ d.toList := by
  cases f
  rw [prepend_eq]
  split <;> simp_all

theorem exists_prepend_eq_ok {dirs : List String} (h : ∀ d ∈ dirs, separator ∉ d.toList)
    (hne : dirs ≠ []) (existing : Option String) :
    ∃ value, prepend dirs existing = .ok value ∧ entries value = dirs ++ kept existing := by
  refine ⟨":".intercalate (dirs ++ kept existing), ?_, ?_⟩
  · rw [prepend_eq, if_neg fun ⟨d, hm, hs⟩ => h d hm hs]
  · refine entries_intercalate (fun d hm => ?_) (List.append_ne_nil_of_left_ne_nil hne _)
    exact (List.mem_append.mp hm).elim (h d) separator_not_mem_of_mem_kept

end Triage.SearchPath
