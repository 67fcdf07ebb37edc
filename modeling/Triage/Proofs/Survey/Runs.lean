import Triage.Proofs.Session.Batches
import Triage.Proofs.Survey.SameReport

set_option autoImplicit true

open scoped List

namespace Triage.Survey

variable {settings : Settings} {host : Nat} {s s' : Session} {r : Report}

theorem exists_run (h : 0 < s.registries.size)
    (hx : run (checkAll host) settings s = some (.ok r, s')) :
    ∃ checked files tr p, prepare settings s.machine.tree s.here = .ok (checked, files) ∧
      (s.crew checked).Run (.start (checked.workerCount host) files (s.registry 0, s.machine)) tr
        p ∧
      r = reportOf p.schedule.batch ∧ p.shared = (s'.registry 0, s'.machine) := by
  unfold run at hx
  split at hx
  · cases hx
  next checked hp =>
    cases hx
    exact ⟨checked, [], [], _, hp, .refl, rfl, rfl⟩
  next checked files hf hp =>
    split at hx
    · cases hx
    next d hd =>
      obtain ⟨⟨b, s₁⟩, hb, hx⟩ := Option.map_eq_some_iff.mp hx
      cases hx
      obtain ⟨tr, p, hr, hq, hs⟩ := Session.exists_run_of_runBatch (fun _ _ => rfl) h hf hb
      obtain rfl := Schedule.batch_of_returned hq
      exact ⟨checked, files, tr, p, hp, hr, rfl, hs⟩

/-- The findings of a report and the shortfall account for all files below the root, each once, and
the findings stand in the order of the files. -/
theorem accounts_of_run (h : 0 < s.registries.size) (ht : s.machine.tree.WellFormed)
    (hh : ∀ n ∈ s.here, Path.Segment n) (hx : run (checkAll host) settings s = some (.ok r, s')) :
    ∃ checked, settings.validate s.machine.tree s.here = .ok checked ∧
      r.findings.map Finding.file <+~ Discovery.collect s.machine.tree s.here checked ∧
      r.findings.length + r.shortfall =
        (Discovery.collect s.machine.tree s.here checked).length ∧
      (r.findings.map Finding.file).Pairwise (· < ·) := by
  obtain ⟨checked, files, tr, p, hp, hr, rfl, -⟩ := exists_run h hx
  obtain ⟨hv, rfl⟩ := prepare_eq_ok.mp hp
  have hA := Schedule.Accounts.of_run hr
  have hf := hA.files_subperm fun t f hs => file_of_sent ht hh hv hr hs
  have hl := hA.length_add_shortfall
  have hr := Report.findings_perm p.schedule.collected
  have hs := (hr.map Finding.file).subperm.trans hf
  refine ⟨checked, hv, hs, ?_, ?_⟩
  · rw [← hl]
    exact congrArg (· + _) hr.length_eq
  · obtain ⟨l, hp, hl⟩ := hf
    exact Report.pairwise_files (hp.nodup_iff.mp (hl.nodup (Discovery.nodup_collect ht s.here)))

theorem shortfall_pos_of_cancelled (h : 0 < s.registries.size)
    (hc : (s.registry 0).cancelled = false) (hx : run (checkAll host) settings s = some (.ok r, s'))
    (hs : (s'.registry 0).cancelled = true) : 0 < r.shortfall := by
  obtain ⟨checked, files, tr, p, -, hr, rfl, hp⟩ := exists_run h hx
  obtain ⟨r, hq, hd⟩ := Crew.Run.cancelled (Check.crew_nobodyElseCancels id) rfl hc hr
  rw [hp] at hq
  cases hq
  have hd := hd.mp hs
  have hb : p.schedule.returned? = some p.schedule.batch := by
    simp only [Schedule.returned?, hd]
  exact ((Schedule.Accounts.of_run hr).shortfall_pos_iff hb).mpr hd

/-- What a survey of a session comes to is what some order of steps comes to. -/
theorem ends_of_run (h : 0 < s.registries.size)
    (hx : run (checkAll host) settings s = some (x, s')) :
    ∃ tr, Ends s.system Session.Aside settings host s.machine.tree s.here (s.registry 0, s.machine)
      tr x := by
  unfold run at hx
  split at hx
  next f hp =>
    cases hx
    exact ⟨[], .setup hp⟩
  next checked hp =>
    cases hx
    exact ⟨[], .nothing hp⟩
  next checked files hf hp =>
    split at hx
    next hd =>
      cases hx
      exact ⟨[], .clock hp hf hd⟩
    next d hd =>
      obtain ⟨⟨b, s₁⟩, hb, hx⟩ := Option.map_eq_some_iff.mp hx
      cases hx
      obtain ⟨tr, p, hr, hq, -⟩ := Session.exists_run_of_runBatch (fun _ _ => rfl) h hf hb
      exact ⟨tr, .batch hp hf hd hr hq⟩

end Triage.Survey
