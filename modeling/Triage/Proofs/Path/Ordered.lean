import Mathlib.Data.List.Nodup
import Triage.Proofs.Path.Joined

set_option autoImplicit true

open Std

namespace Triage

namespace Component

theorem compare_eq : (compare : Component → Component → Ordering) =
    compareLex (compareOn order) (compareOn text) := by
  funext a b
  cases a <;> cases b <;> rfl

instance : TransOrd Component := by
  rw [TransOrd, compare_eq]
  infer_instance

theorem eq_of_compare {a b : Component} (h : compare a b = .eq) : a = b := by
  cases a with
  | name s =>
    cases b with
    | name t => exact congrArg name (LawfulEqOrd.eq_of_compare h)
    | _ => cases h
  | _ =>
    cases b with
    | name t => cases h
    | _ => first | rfl | cases h

instance : LawfulEqOrd Component where
  compare_self := ReflOrd.compare_self
  eq_of_compare := eq_of_compare

end Component

namespace Path

theorem le_trans (p q r : String) (hpq : le p q = true) (hqr : le q r = true) : le p r = true :=
  TransCmp.isLE_trans hpq hqr

theorem le_total (p q : String) : (le p q || le q p) = true := by
  have hs : compare (components p) (components q) = (compare (components q) (components p)).swap :=
    OrientedCmp.eq_swap
  rw [le, le, hs]
  cases compare (components q) (components p) <;> rfl

theorem pairwise_mergeSort {ps : List String} (hn : (ps.map components).Nodup) :
    (ps.mergeSort le).Pairwise fun p q => compare (components p) (components q) = .lt := by
  have hd : ((ps.mergeSort le).map components).Nodup :=
    ((List.mergeSort_perm ps le).map components).nodup_iff.mpr hn
  refine (List.pairwise_mergeSort le_trans le_total ps).imp₂ (fun p q hle hne => ?_)
    (List.pairwise_map.mp hd)
  rcases Ordering.isLE_iff_eq_lt_or_eq_eq.mp hle with hc | hc
  · exact hc
  · exact absurd (LawfulEqOrd.eq_of_compare hc) hne

/-- The components of a root, as far as they do not depend on what is joined to it. -/
def trunk (root : String) : List Component :=
  (if isAbsolute root then [.root]
    else if (stem root).head? = some ['.'] then [.here] else []) ++
    (stem root).filterMap Component.ofPart?

theorem stem_ne_nil (h : root ≠ "") : stem root ≠ [] := by
  cases ho : isOpen root with
  | false =>
    rw [stem_of_not_isOpen ho]
    exact Text.splitAt_ne_nil '/' root.toList
  | true =>
    rcases cases_of_isOpen ho with ⟨hp, -⟩ | ⟨q, -, hs⟩
    · exact absurd (String.toList_inj.mp hp) h
    · exact hs ▸ Text.splitAt_ne_nil '/' q

theorem components_foldl_join (h : root ≠ "") {ns : List String} (hn : ∀ n ∈ ns, Segment n)
    (hne : ns ≠ []) : components (ns.foldl join root) =
      trunk root ++ (ns.map String.toList).filterMap Component.ofPart? := by
  have hp : Text.splitAt '/' (ns.foldl join root).toList = stem root ++ ns.map String.toList := by
    rw [← stem_of_not_isOpen (not_isOpen_foldl_join hn hne root), stem_foldl_join hn]
  have hh : (stem root ++ ns.map String.toList).head? = (stem root).head? :=
    List.head?_append_of_ne_nil _ (stem_ne_nil h)
  simp only [components, hp, hh, isAbsolute_foldl_join h, List.filterMap_append, trunk,
    List.append_assoc]

theorem trunk_of_isAbsolute (h : isAbsolute root = true) : trunk root = components root := by
  simp only [trunk, components, h, if_true]
  cases ho : isOpen root with
  | false => rw [stem_of_not_isOpen ho]
  | true =>
    rw [splitAt_of_isOpen ho, List.filterMap_append]
    exact congrArg _ (List.append_nil _).symm

theorem components_foldl_join_inj (h : root ≠ "") {ns ms : List String}
    (hn : ∀ n ∈ ns, Segment n) (hne : ns ≠ []) (hm : ∀ n ∈ ms, Segment n) (hme : ms ≠ [])
    (he : components (ns.foldl join root) = components (ms.foldl join root)) : ns = ms := by
  rw [components_foldl_join h hn hne, components_foldl_join h hm hme,
    List.append_cancel_left_eq] at he
  rw [← kept_of_names hn, he, kept_of_names hm]

end Path
end Triage
