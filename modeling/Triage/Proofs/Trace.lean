import Mathlib.Data.List.Basic

set_option autoImplicit true

namespace Triage

inductive Trace {α ε : Type} (Step : α → ε → α → Prop) (p : α) : List ε → α → Prop
  | refl : Trace Step p [] p
  | snoc (h : Trace Step p tr q) (hs : Step q e r) : Trace Step p (tr ++ [e]) r

namespace Trace

variable {α ε : Type} {Step : α → ε → α → Prop}

theorem single (h : Step p e q) : Trace Step p [e] q := .snoc .refl h

theorem append (h : Trace Step p a q) (h' : Trace Step q b r) : Trace Step p (a ++ b) r := by
  induction h' with
  | refl => rwa [List.append_nil]
  | snoc _ hs ih =>
    rw [← List.append_assoc]
    exact .snoc ih hs

theorem split (h : Trace Step p tr r) (he : tr = a ++ e :: b) :
    ∃ q m, Trace Step p a q ∧ Step q e m ∧ Trace Step m b r := by
  induction h generalizing b with
  | refl => simp at he
  | snoc h hs ih =>
    rcases List.eq_nil_or_concat b with rfl | ⟨c, x, rfl⟩
    · obtain ⟨rfl, hx⟩ := List.append_inj' he rfl
      cases hx
      exact ⟨_, _, h, hs, .refl⟩
    · rw [List.concat_eq_append, ← List.cons_append, ← List.append_assoc] at he
      obtain ⟨hc, hx⟩ := List.append_inj' he rfl
      cases hx
      obtain ⟨q, m, ha, hq, hm⟩ := ih hc
      rw [List.concat_eq_append]
      exact ⟨q, m, ha, hq, .snoc hm hs⟩

theorem eq_of_nil (h : Trace Step p [] q) : q = p := by
  generalize ht : ([] : List ε) = tr at h
  cases h with
  | refl => rfl
  | snoc => simp at ht

theorem uncons (h : Trace Step p (e :: tr) r) : ∃ q, Step p e q ∧ Trace Step q tr r := by
  obtain ⟨p', q, h₀, hs, h⟩ := h.split (a := []) rfl
  cases h₀.eq_of_nil
  exact ⟨q, hs, h⟩

theorem of_mem (h : Trace Step p tr r) (he : e ∈ tr) :
    ∃ q m b, Step q e m ∧ Trace Step m b r := by
  obtain ⟨a, b, rfl⟩ := List.append_of_mem he
  obtain ⟨q, m, -, hs, h⟩ := h.split rfl
  exact ⟨q, m, b, hs, h⟩

/-- What holds at the start and is kept by every step holds after every run. -/
theorem invariant {I : List ε → α → Prop} (h : Trace Step p tr q) (h₀ : I [] p)
    (hs : ∀ {tr q e r}, I tr q → Step q e r → I (tr ++ [e]) r) : I tr q := by
  induction h with
  | refl => exact h₀
  | snoc _ hq ih => exact hs ih hq

end Trace
end Triage
