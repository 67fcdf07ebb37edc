import Triage.Proofs.SearchPath.Entries

set_option autoImplicit true

namespace Triage.SearchPath

theorem kept_intercalate {dirs : List String} (h : ∀ d ∈ dirs, separator ∉ d.toList) :
    kept (some (":".intercalate dirs)) = dirs.filter (!·.isEmpty) := by
  cases dirs with
  | nil => rfl
  | cons d ds =>
    rw [kept, Option.map_some, Option.getD_some, entries_intercalate h (List.cons_ne_nil d ds)]

theorem filter_kept (existing : Option String) :
    (kept existing).filter (!·.isEmpty) = kept existing := by
  simp only [kept, List.filter_filter, Bool.and_self]

theorem kept_of_prepend {dirs : List String} (h : prepend dirs existing = .ok value) :
    kept (some value) = dirs.filter (!·.isEmpty) ++ kept existing := by
  rw [prepend_eq] at h
  split at h
  · cases h
  next hd =>
    cases h
    have hs : ∀ d ∈ dirs ++ kept existing, separator ∉ d.toList := by
      intro d hm
      rcases List.mem_append.mp hm with hm | hm
      · exact fun hs => hd ⟨d, hm, hs⟩
      · exact separator_not_mem_of_mem_kept hm
    rw [kept_intercalate hs, List.filter_append, filter_kept]

theorem prepend_append (a : List String) {b : List String} (hb : ∀ d ∈ b, d ≠ "")
    (existing : Option String) :
    prepend (a ++ b) existing = (prepend b existing).bind fun value => prepend a (some value) := by
  cases hp : prepend b existing with
  | error f =>
    obtain ⟨d, hm, hs⟩ := (prepend_eq_error b existing).mp hp
    exact (prepend_eq_error (a ++ b) existing).mpr ⟨d, List.mem_append_right a hm, hs⟩
  | ok value =>
    have hn : ¬∃ d ∈ b, separator ∈ d.toList := by
      intro hd
      cases hp.symm.trans ((prepend_eq_error (f := .separatorInside) b existing).mpr hd)
    have he : b.filter (!·.isEmpty) = b := by
      rw [List.filter_eq_self]
      intro d hm
      simpa using hb d hm
    have hk := kept_of_prepend hp
    have hc : (∃ d ∈ a ++ b, separator ∈ d.toList) ↔ ∃ d ∈ a, separator ∈ d.toList := by
      simp only [List.mem_append, or_and_right, exists_or, or_iff_left hn]
    rw [he] at hk
    simp only [Except.bind, prepend_eq, hk, hc, List.append_assoc]

/-- A search path cannot be put together only if the separator is in one of the directories.
Otherwise its entries are the directories and then what was there before, both without the empty
ones.  Two lists of directories can be put in front one after the other, with the same result and
the same fault as at once. -/
theorem prepend_in_order (dirs : List String) (existing : Option String) :
    (if ∃ d ∈ dirs, separator ∈ d.toList then prepend dirs existing = .error .separatorInside
    else ∃ value, prepend dirs existing = .ok value ∧
      (entries value).filter (!·.isEmpty) =
        dirs.filter (!·.isEmpty) ++ ((existing.map entries).getD []).filter (!·.isEmpty)) ∧
    ∀ a, (∀ d ∈ dirs, d ≠ "") → prepend (a ++ dirs) existing =
      (prepend dirs existing).bind fun value => prepend a (some value) := by
  refine ⟨?_, fun a hd => prepend_append a hd existing⟩
  split
  next hd => exact (prepend_eq_error dirs existing).mpr hd
  next hd =>
    have hp : prepend dirs existing = .ok (":".intercalate (dirs ++ kept existing)) := by
      rw [prepend_eq, if_neg hd]
    exact ⟨_, hp, kept_of_prepend hp⟩

theorem prepend_in_order_of_doubled :
    prepend ["/b", "/c"] (some ":/x::/y:") = .ok "/b:/c:/x:/y" ∧
      prepend ["/a", "", "/b", "/c"] (some ":/x::/y:") =
        prepend ["/a", ""] (some "/b:/c:/x:/y") := by
  have hp : prepend ["/b", "/c"] (some ":/x::/y:") = .ok "/b:/c:/x:/y" := by decide
  have h := (prepend_in_order ["/b", "/c"] (some ":/x::/y:")).2 ["/a", ""] (by decide)
  rw [hp] at h
  exact ⟨hp, h⟩

end Triage.SearchPath
