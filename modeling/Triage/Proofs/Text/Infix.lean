import Triage.Proofs.Text.Lines

set_option autoImplicit true

namespace Triage.Text

theorem contains_iff : contains p s = true ↔ p <:+: s := by
  induction s with
  | nil => rw [contains, List.isEmpty_iff, List.infix_nil]
  | cons c s ih =>
    rw [contains, Bool.or_eq_true, List.isPrefixOf_iff_prefix, ih, List.infix_cons_iff]

theorem infix_append_of_not_mem (hc : c ∉ a) (q s : List Char) :
    c :: q <:+: a ++ s ↔ c :: q <:+: s := by
  induction a with
  | nil => rfl
  | cons d a ih =>
    obtain ⟨hd, ha⟩ := not_or.mp (mt List.mem_cons.mpr hc)
    have hp : ¬c :: q <+: d :: (a ++ s) := fun h => hd (List.cons_prefix_cons.mp h).1
    rw [List.cons_append, List.infix_cons_iff, or_iff_right hp, ih ha]

theorem infix_trimStart (hne : p ≠ []) (hh : p.head?.any isBlank = false) (s : List Char) :
    p <:+: trimStart s ↔ p <:+: s := by
  obtain ⟨c, q, rfl⟩ := List.exists_cons_of_ne_nil hne
  have hc : c ∉ s.takeWhile isBlank := by
    intro hc
    rw [List.head?_cons, Option.any_some, List.mem_takeWhile_imp hc] at hh
    cases hh
  rw [← infix_append_of_not_mem hc q (trimStart s), trimStart, List.takeWhile_append_dropWhile]

/-- A sign without white space at its ends stands in a text if and only if it stands in what
trimming leaves of it. -/
theorem infix_trim (hne : p ≠ []) (hh : p.head?.any isBlank = false) (hl : endsBlank p = false)
    (s : List Char) : p <:+: trim s ↔ p <:+: s := by
  have hr : p.reverse.head?.any isBlank = false := by rwa [List.head?_reverse]
  have he := infix_trimStart (mt List.reverse_eq_nil_iff.mp hne) hr (trimStart s).reverse
  rw [← List.reverse_reverse (trimStart _), List.reverse_infix, List.reverse_infix] at he
  exact he.trans (infix_trimStart hne hh s)

theorem infix_append_cons (hp : sep ∉ p) (a b : List Char) :
    p <:+: a ++ sep :: b ↔ p <:+: a ∨ p <:+: b := by
  constructor
  · rintro ⟨x, y, h⟩
    rw [List.append_assoc] at h
    rcases List.append_eq_append_iff.mp h with ⟨z, rfl, hz⟩ | ⟨z, rfl, hz⟩
    · rcases List.append_eq_append_iff.mp hz with ⟨w, rfl, -⟩ | ⟨w, rfl, hw⟩
      · exact .inl ⟨x, w, by simp⟩
      · cases w with
        | nil => exact .inl ⟨x, [], by simp⟩
        | cons d w =>
          exact absurd ((List.cons.inj hw).1 ▸ List.mem_append_right z List.mem_cons_self) hp
    · cases z with
      | nil =>
        cases p with
        | nil => exact .inl List.nil_infix
        | cons d p => exact absurd ((List.cons.inj hz).1 ▸ List.mem_cons_self) hp
      | cons d z => exact .inr ⟨z, y, by simpa using (List.cons.inj hz).2.symm⟩
  · rintro (h | h)
    · exact h.trans (List.prefix_append a (sep :: b)).isInfix
    · exact h.trans ((List.suffix_cons sep b).trans (List.suffix_append a (sep :: b))).isInfix

theorem infix_iff_exists_splitAt (hp : sep ∉ p) (s : List Char) :
    p <:+: s ↔ ∃ l ∈ splitAt sep s, p <:+: l := by
  by_cases hs : sep ∈ s
  · obtain ⟨a, b, h⟩ := List.append_of_mem hs
    have ha := infix_iff_exists_splitAt hp a
    have hb := infix_iff_exists_splitAt hp b
    rw [h, infix_append_cons hp, splitAt_append, ha, hb]
    simp only [List.mem_append, or_and_right, exists_or]
  · rw [splitAt_of_not_mem hs]
    simp
termination_by s.length
decreasing_by all_goals rw [h, List.length_append, List.length_cons]; omega

/-- A sign that no trimming and no line ending touches stands in a text if and only if it stands in
one of its lines. -/
theorem infix_iff_exists_line (hne : p ≠ []) (hn : '\n' ∉ p) (hh : p.head?.any isBlank = false)
    (hl : endsBlank p = false) (s : List Char) : p <:+: s ↔ ∃ l ∈ lines s, p <:+: l := by
  have hm (ls : List (List Char)) :
      (∃ l ∈ ls, p <:+: l) ↔ (ls.map trim).filter (contains p) ≠ [] := by
    simp [List.filter_eq_nil_iff, contains_iff, infix_trim hne hh hl]
  have hp : contains p [] = false := by simpa [contains] using hne
  rw [infix_iff_exists_splitAt hn, hm, hm, filter_trim_lines hp]

end Triage.Text
