import Triage.Proofs.Check.History
import Triage.Proofs.Session.Jobs

set_option autoImplicit true

namespace Triage.Session

open Check (History)

/-- The job with the number `i` is a check on the registry with the number `k`. -/
structure Checking (settings : Settings) (k i : Nat) (s : Session) (stage : Check.Stage) : Prop where
  job : ∃ since, s.jobs[i]? = some ⟨.check k settings stage, since⟩
  registry : k < s.registries.size

structure Passes (settings : Settings) (k i : Nat) (s : Session) (stage : Check.Stage)
    (s' : Session) (stage' : Check.Stage) : Prop where
  history : ∃ tr, History s.system settings ⟨stage, s.registry k, s.machine⟩ tr
    ⟨stage', s'.registry k, s'.machine⟩
  system : s'.system = s.system
  checking : Checking settings k i s' stage'

variable {settings : Settings} {s s' s'' : Session} {stage stage' stage'' : Check.Stage}

theorem Passes.trans (h : Passes settings k i s stage s' stage')
    (h' : Passes settings k i s' stage' s'' stage'') : Passes settings k i s stage s'' stage'' := by
  obtain ⟨tr, ht⟩ := h.history
  obtain ⟨tr', ht'⟩ := h'.history
  rw [h.system] at ht'
  exact ⟨⟨tr ++ tr', ht.append ht'⟩, h'.system.trans h.system, h'.checking⟩

namespace Checking

theorem machine (h : Checking settings k i s stage) (machine : Machine) :
    Passes settings k i s stage { s with machine } stage :=
  ⟨⟨[.elsewhere], .single (.elsewhere rfl)⟩, rfl, h.job, h.registry⟩

theorem stepJob (h : Checking settings k i s stage) (hj : s.jobs[n]? = some j) :
    ∃ stage', Passes settings k i s stage (s.stepJob n j) stage' := by
  obtain ⟨since, hs⟩ := h.job
  have hk : k < (s.stepJob n j).registries.size := by
    rw [stepJob_registries_size]
    exact h.registry
  by_cases hn : n = i
  · subst hn
    rw [hs] at hj
    cases hj
    obtain ⟨⟨stage', r, m⟩, hm⟩ :
        ∃ x, Check.step s.system settings stage (s.registry k) s.machine = x := ⟨_, rfl⟩
    have hi := (Array.getElem?_eq_some_iff.mp hs).1
    obtain ⟨hj, hr, hm'⟩ := stepJob_check s hi h.registry since hm
    have hc : Check.Step s.system settings ⟨stage, s.registry k, s.machine⟩
        (Check.notice s.system ⟨stage, s.registry k, s.machine⟩) ⟨stage', r, m⟩ := .own hm
    rw [← hr, ← hm'] at hc
    exact ⟨stage', ⟨_, .single hc⟩, rfl, ⟨_, hj⟩, hk⟩
  · have hj' : (s.stepJob n j).jobs[i]? = s.jobs[i]? := getElem?_stepJob_ne s j hn
    exact ⟨stage, ⟨[.elsewhere], .single (.elsewhere (stepJob_cancelled s n j h.registry))⟩, rfl,
      ⟨since, hj'.trans hs⟩, hk⟩

theorem turn (h : Checking settings k i s stage) (ht : s.turn? limit = some s') :
    ∃ stage', Passes settings k i s stage s' stage' := by
  rcases turn?_eq_some ht with ⟨now, n, j, hj, rfl⟩ | ⟨machine, rfl⟩
  · have hm := h.machine { s.machine with now }
    obtain ⟨stage', hs⟩ := hm.checking.stepJob hj
    exact ⟨stage', hm.trans hs⟩
  · exact ⟨stage, h.machine machine⟩

theorem runUntil (h : Checking settings k i s stage) (stop : Session → Bool) (fuel : Nat) :
    ∃ stage', Passes settings k i s stage (Session.runUntil stop fuel s) stage' := by
  induction fuel generalizing s stage with
  | zero => exact ⟨stage, ⟨[], .refl⟩, rfl, h⟩
  | succ fuel ih =>
    rw [Session.runUntil]
    split
    · exact ⟨stage, ⟨[], .refl⟩, rfl, h⟩
    split
    next s' ht =>
      obtain ⟨stage', hs⟩ := h.turn ht
      obtain ⟨stage'', hs'⟩ := ih hs.checking
      exact ⟨stage'', hs.trans hs'⟩
    · exact ⟨stage, ⟨[], .refl⟩, rfl, h⟩

end Checking

/-- The check of a file in a session answers what a history of it comes to. -/
theorem exists_history_of_checkFile (s : Session) (hk : k < s.registries.size)
    (settings : Settings) (path : String) :
    ∃ tr p, History s.system settings
        ⟨Check.start settings s.here.path path, s.registry k, s.machine⟩ tr p ∧
      (s.checkFile k settings path).1 = p.stage.answer? := by
  have h : Checking settings k s.jobs.size
      (s.add (.check k settings (Check.start settings s.here.path path))).2
      (Check.start settings s.here.path path) :=
    ⟨⟨_, Array.getElem?_push_size⟩, hk⟩
  obtain ⟨stage, ⟨tr, ht⟩, -, ⟨since, hj⟩, -⟩ := h.runUntil
    (fun s' => (s'.jobs[s.jobs.size]?.map (·.settled s'.machine.now)).getD true) turns
  refine ⟨tr, _, ht, ?_⟩
  simp only [checkFile, runJob, add] at hj ⊢
  rw [hj]
  rfl

end Triage.Session
