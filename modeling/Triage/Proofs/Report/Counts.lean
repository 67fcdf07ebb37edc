import Mathlib.Data.List.Basic
import Triage.Report

set_option autoImplicit true

namespace Triage

namespace Tally

def Full (t : Tally) : Prop := ∀ s, (t.counts.lookup s).isSome

theorem lookup_counts_add (t : Tally) (s key : Status) :
    (t.add s).counts.lookup key =
      (t.counts.lookup key).map fun n => if key = s then n + 1 else n := by
  rw [add]
  generalize t.counts = cs
  induction cs with
  | nil => rfl
  | cons c cs ih =>
    obtain ⟨k, n⟩ := c
    rw [List.map_cons, List.lookup_cons, List.lookup_cons, ih]
    cases hk : key == k with
    | true => rw [eq_of_beq hk]; rfl
    | false => rfl

theorem full_default : Full {} := by
  intro s
  cases s <;> rfl

theorem Full.add {t : Tally} (h : t.Full) (s : Status) : (t.add s).Full := by
  intro key
  rw [lookup_counts_add, Option.isSome_map]
  exact h key

theorem Full.count_add {t : Tally} (h : t.Full) (s key : Status) :
    (t.add s).count key = t.count key + if s = key then 1 else 0 := by
  obtain ⟨n, hn⟩ := Option.isSome_iff_exists.mp (h key)
  rw [count, count, lookup_counts_add, hn]
  by_cases hs : s = key
  · simp [hs]
  · simp [hs, Ne.symm hs]

theorem Full.count_foldl {t : Tally} (h : t.Full) (fs : List Finding) (s : Status) :
    (fs.foldl (fun t f => t.add f.status) t).count s =
      t.count s + fs.countP (·.status = s) := by
  induction fs generalizing t with
  | nil => rfl
  | cons f fs ih =>
    rw [List.foldl_cons, ih (h.add f.status), h.count_add, List.countP_cons]
    simp only [decide_eq_true_eq]
    omega

end Tally

namespace Report

theorem count_ofFindings (fs : List Finding) (s : Status) :
    (ofFindings fs).count s = ((ofFindings fs).byStatus s).length := by
  have hz : ({} : Tally).count s = 0 := by cases s <;> rfl
  have hc := Tally.full_default.count_foldl (ofFindings fs).findings s
  rw [hz, Nat.zero_add, List.countP_eq_length_filter] at hc
  exact hc

end Report
end Triage
