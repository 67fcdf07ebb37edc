import Mathlib.Data.List.Nodup
import Triage.Report

set_option autoImplicit true

open scoped List

namespace Triage.Report

theorem file_le_trans (f g h : Finding) (hf : decide (f.file ≤ g.file) = true)
    (hg : decide (g.file ≤ h.file) = true) : decide (f.file ≤ h.file) = true :=
  decide_eq_true (String.le_trans (of_decide_eq_true hf) (of_decide_eq_true hg))

theorem file_le_total (f g : Finding) :
    (decide (f.file ≤ g.file) || decide (g.file ≤ f.file)) = true := by
  simpa using String.le_total f.file g.file

theorem pairwise_le (fs : List Finding) :
    (ofFindings fs).findings.Pairwise fun f g => f.file ≤ g.file :=
  (List.pairwise_mergeSort file_le_trans file_le_total fs).imp of_decide_eq_true

theorem findings_perm (fs : List Finding) : (ofFindings fs).findings ~ fs := List.mergeSort_perm fs _

theorem pairwise_files (hn : (fs.map Finding.file).Nodup) :
    ((ofFindings fs).findings.map Finding.file).Pairwise (· < ·) := by
  have hd : ((ofFindings fs).findings.map Finding.file).Nodup :=
    ((findings_perm fs).map Finding.file).nodup_iff.mpr hn
  have hp := (List.pairwise_map (f := Finding.file) (R := (· ≤ ·))).mpr (pairwise_le fs)
  refine hp.imp₂ (fun a b hle hne => ?_) hd
  exact String.not_le.mp fun h => hne (String.le_antisymm hle h)

theorem ofFindings_congr (h : (ofFindings fs).findings = (ofFindings gs).findings) :
    ofFindings fs = ofFindings gs := by
  have he (fs : List Finding) : ofFindings fs =
      ⟨(ofFindings fs).findings, .ofFindings (ofFindings fs).findings, 0⟩ := rfl
  rw [he fs, he gs, h]

/-- The order in which the findings came does not matter. -/
theorem ofFindings_eq_of_perm (h : fs ~ gs) (hn : (fs.map Finding.file).Nodup) :
    ofFindings fs = ofFindings gs := by
  have hf : (ofFindings fs).findings = (ofFindings gs).findings := by
    refine List.Perm.eq_of_pairwise (fun f g hf hg hfg hgf => ?_) (pairwise_le fs) (pairwise_le gs)
      ((findings_perm fs).trans (h.trans (findings_perm gs).symm))
    have hf := (findings_perm fs).mem_iff.mp hf
    have hg := h.mem_iff.mpr ((findings_perm gs).mem_iff.mp hg)
    exact List.inj_on_of_nodup_map hn hf hg (String.le_antisymm hfg hgf)
  exact ofFindings_congr hf

end Triage.Report
