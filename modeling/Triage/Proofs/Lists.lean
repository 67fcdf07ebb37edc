import Mathlib.Data.List.Nodup
import Mathlib.Data.List.Perm.Subperm

set_option autoImplicit true

open scoped List

namespace Triage

theorem filterMap_snoc (f : α → Option β) (l : List α) (x : α) :
    (l ++ [x]).filterMap f = l.filterMap f ++ (f x).toList := by
  rw [List.filterMap_append]
  cases hx : f x with
  | none =>
    rw [List.filterMap_cons_none hx]
    rfl
  | some y =>
    rw [List.filterMap_cons_some hx]
    rfl

theorem count_filterMap_set [DecidableEq β] (f : α → Option β) {l : List α} {i : Nat}
    (h : l[i]? = some x) (y : α) (b : β) :
    ((l.set i y).filterMap f).count b + (f x).toList.count b =
      (l.filterMap f).count b + (f y).toList.count b := by
  induction l generalizing i with
  | nil => simp at h
  | cons a l ih =>
    cases i with
    | zero =>
      simp only [List.getElem?_cons_zero, Option.some.injEq] at h
      subst a
      rw [List.set_cons_zero]
      cases hx : f x <;> cases hy : f y <;> simp [hx, hy, List.count_cons]
      omega
    | succ i =>
      have ih := ih h
      rw [List.set_cons_succ]
      cases ha : f a <;> simp [ha, List.count_cons] <;> omega

theorem count_eraseIdx [DecidableEq α] {l : List α} {i : Nat} (h : l[i]? = some x) (a : α) :
    (l.eraseIdx i).count a + [x].count a = l.count a := by
  obtain ⟨hi, rfl⟩ := List.getElem?_eq_some_iff.mp h
  rw [← (List.getElem_cons_eraseIdx_perm hi).count_eq, ← List.count_append]
  simp [List.count_cons, List.count_append]

theorem set_of_getElem? {l : List α} {i : Nat} (h : l[i]? = some x) : l.set i x = l := by
  obtain ⟨hi, rfl⟩ := List.getElem?_eq_some_iff.mp h
  exact List.set_getElem_self hi

theorem mem_set_or_eq {l : List α} {i : Nat} (hi : l[i]? = some x) (h : z ∈ l) (y : α) :
    z = x ∨ z ∈ l.set i y := by
  obtain ⟨j, hj⟩ := List.getElem?_of_mem h
  by_cases he : i = j
  · subst he
    rw [hi] at hj
    cases hj
    exact .inl rfl
  · exact .inr (List.mem_of_getElem? (by rwa [List.getElem?_set_ne he]))

theorem subperm_map (f : α → β) {l m : List α} (h : l <+~ m) : l.map f <+~ m.map f := by
  obtain ⟨k, hk, hs⟩ := h
  exact ⟨k.map f, hk.map f, hs.map f⟩

end Triage
