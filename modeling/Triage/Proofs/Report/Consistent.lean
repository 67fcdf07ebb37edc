import Mathlib.Algebra.GroupWithZero.Nat
import Mathlib.Data.List.Perm.Basic
import Triage.Proofs.Report.Counts
import Triage.Proofs.Report.Order
import Triage.Proofs.Text.ByteOrder

set_option autoImplicit true

open scoped List

namespace Triage

theorem flatMap_filter_perm [DecidableEq κ] {key : α → κ} {ks : List κ} (hn : ks.Nodup)
    (h : ∀ a ∈ l, key a ∈ ks) : (ks.flatMap fun k => l.filter (key · = k)) ~ l := by
  induction ks generalizing l with
  | nil =>
    rw [List.eq_nil_iff_forall_not_mem.mpr fun a ha => absurd (h a ha) List.not_mem_nil]
    exact .refl _
  | cons k ks ih =>
    obtain ⟨hk, hn⟩ := List.nodup_cons.mp hn
    -- The classes behind the first one are those of what it leaves.
    have hr : (ks.flatMap fun j => l.filter (key · = j)) =
        ks.flatMap fun j => (l.filter (!key · = k)).filter (key · = j) := by
      refine List.flatMap_congr fun j hj => ?_
      rw [List.filter_filter]
      refine List.filter_congr fun a _ => ?_
      have hjk : j ≠ k := fun he => hk (he ▸ hj)
      by_cases ha : key a = j
      · simp [ha, hjk]
      · simp [ha]
    have hm : ∀ a ∈ l.filter (!key · = k), key a ∈ ks := by
      intro a ha
      obtain ⟨ha, hne⟩ := List.mem_filter.mp ha
      exact (List.mem_cons.mp (h a ha)).resolve_left (by simpa using hne)
    rw [List.flatMap_cons, hr]
    exact ((ih hn hm).append_left _).trans (List.filter_append_perm _ l)

namespace Tally

theorem keys_add (t : Tally) (s : Status) : (t.add s).counts.map Prod.fst = t.counts.map Prod.fst := by
  rw [add, List.map_map]
  rfl

theorem keys_foldl (fs : List Finding) (t : Tally) :
    (fs.foldl (fun t f => t.add f.status) t).counts.map Prod.fst = t.counts.map Prod.fst := by
  induction fs generalizing t with
  | nil => rfl
  | cons f fs ih => rw [List.foldl_cons, ih, keys_add]

theorem keys_ofFindings (fs : List Finding) : (ofFindings fs).counts.map Prod.fst = Status.all :=
  keys_foldl fs {}

end Tally

namespace Report

variable {fs gs : List Finding}

theorem pairwise_bytes (fs : List Finding) :
    (ofFindings fs).findings.Pairwise fun f g =>
      ¬List.Lex (· < ·) (Text.Utf8.encode g.file.toList) (Text.Utf8.encode f.file.toList) :=
  (pairwise_le fs).imp fun hle hlt => String.not_lt.mpr hle ((Text.Utf8.lex_encode _ _).mp hlt)

theorem filter_file_ofFindings (fs : List Finding) (file : String) :
    (ofFindings fs).findings.filter (·.file = file) = fs.filter (·.file = file) := by
  have hp : (fs.filter (·.file = file)).Pairwise fun f g => decide (f.file ≤ g.file) = true := by
    refine List.pairwise_of_forall_mem_list fun f hf g hg => ?_
    have hf : f.file = file := by simpa using (List.mem_filter.mp hf).2
    have hg : g.file = file := by simpa using (List.mem_filter.mp hg).2
    rw [hf, hg]
    exact decide_eq_true (String.le_refl _)
  have hs : fs.filter (·.file = file) <+ (ofFindings fs).findings :=
    List.sublist_mergeSort file_le_trans file_le_total hp List.filter_sublist
  have hf := hs.filter (·.file = file)
  rw [List.filter_filter] at hf
  simp only [Bool.and_self] at hf
  refine (hf.eq_of_length ?_).symm
  exact ((findings_perm fs).filter _).length_eq.symm

theorem ofFindings_findings (fs : List Finding) :
    ofFindings (ofFindings fs).findings = ofFindings fs :=
  ofFindings_congr (List.mergeSort_of_pairwise ((pairwise_le fs).imp decide_eq_true))

theorem flatMap_byStatus_perm (r : Report) : Status.all.flatMap r.byStatus ~ r.findings :=
  flatMap_filter_perm Status.all_nodup fun f _ => Status.mem_all f.status

theorem passing_eq (r : Report) :
    r.passing = (r.byStatus .ok).length + (r.byStatus .okWithWarning).length := by
  rw [passing, byStatus, byStatus]
  generalize r.findings = fs
  induction fs with
  | nil => rfl
  | cons f fs ih =>
    rw [List.countP_cons, List.filter_cons, List.filter_cons, ih]
    cases f.status <;> simp [Status.passing] <;> omega

/-- A report has the findings that it was made of, in the order of the bytes of their files; those of
one file stand in the order in which they came.  It counts each status, and a count is the number of
findings listed under its status; together these are all findings, so the counts add up.  A report on
the findings of a report is the same, and findings of different files may come in any order. -/
theorem parts_agree (fs : List Finding) :
    (ofFindings fs).findings ~ fs ∧
    ((ofFindings fs).findings.Pairwise fun f g =>
      ¬List.Lex (· < ·) (Text.Utf8.encode g.file.toList) (Text.Utf8.encode f.file.toList)) ∧
    (∀ file, (ofFindings fs).findings.filter (·.file = file) = fs.filter (·.file = file)) ∧
    (ofFindings fs).tally.counts.map Prod.fst = Status.all ∧
    (∀ s, (ofFindings fs).count s = ((ofFindings fs).byStatus s).length) ∧
    Status.all.flatMap (ofFindings fs).byStatus ~ fs ∧
    (Status.all.map (ofFindings fs).count).sum = (ofFindings fs).total ∧
    (ofFindings fs).passing = (ofFindings fs).count .ok + (ofFindings fs).count .okWithWarning ∧
    ofFindings (ofFindings fs).findings = ofFindings fs ∧
    ∀ gs, gs ~ fs → (fs.map Finding.file).Nodup → ofFindings gs = ofFindings fs := by
  have hp := findings_perm fs
  have hb := flatMap_byStatus_perm (ofFindings fs)
  have hs : (Status.all.map (ofFindings fs).count).sum = (ofFindings fs).total := by
    rw [total, ← hb.length_eq, List.length_flatMap]
    exact congrArg List.sum (List.map_congr_left fun s _ => count_ofFindings fs s)
  have hc : (ofFindings fs).passing =
      (ofFindings fs).count .ok + (ofFindings fs).count .okWithWarning := by
    rw [passing_eq, count_ofFindings, count_ofFindings]
  exact ⟨hp, pairwise_bytes fs, filter_file_ofFindings fs,
    Tally.keys_ofFindings (ofFindings fs).findings, count_ofFindings fs, hb.trans hp, hs, hc,
    ofFindings_findings fs, fun gs hg hn => (ofFindings_eq_of_perm hg.symm hn).symm⟩

theorem parts_agree_of_two :
    ofFindings [⟨"/é.py", .syntaxError, "", none⟩, .ok "/a.py"] =
        ofFindings [.ok "/a.py", ⟨"/é.py", .syntaxError, "", none⟩] ∧
      (ofFindings [.ok "/a.py", ⟨"/é.py", .syntaxError, "", none⟩]).count .syntaxError =
        ((ofFindings [.ok "/a.py", ⟨"/é.py", .syntaxError, "", none⟩]).byStatus
          .syntaxError).length := by
  obtain ⟨-, -, -, -, hc, -, -, -, -, hg⟩ :=
    parts_agree [.ok "/a.py", ⟨"/é.py", .syntaxError, "", none⟩]
  exact ⟨hg _ (.swap _ _ []) (by decide), hc .syntaxError⟩

end Report
end Triage
