import Triage.Proofs.Check.Crew
import Triage.Session

set_option autoImplicit true

namespace Triage.Session

def stage (s : Session) (i : Nat) : Check.Stage :=
  match s.jobs[i]? with
  | some ⟨.check _ _ stage, _⟩ => stage
  | _ => .crashed

theorem stage_eq_of_getElem? {s s' : Session} (h : s'.jobs[i]? = s.jobs[i]?) :
    s'.stage i = s.stage i := by
  simp only [stage, h]

theorem stage_of_getElem? {s : Session} {stage : Check.Stage} {since : Time}
    (h : s.jobs[i]? = some ⟨.check k settings stage, since⟩) : s.stage i = stage := by
  simp only [Session.stage, h]

theorem getElem?_add (s : Session) (work : Job.Work) (h : i < s.jobs.size) :
    (s.add work).2.jobs[i]? = s.jobs[i]? := by
  simp only [add, Array.getElem?_push, if_neg (Nat.ne_of_lt h)]

theorem registry_setRegistry (s : Session) (h : i < s.registries.size) (k : Nat) (r : Registry) :
    (s.setRegistry k r).registry i = if k = i then r else s.registry i := by
  simp only [registry, setRegistry, Array.getElem?_setIfInBounds]
  split
  next hk => simp [hk, h]
  · rfl

theorem stepJob_registries_size (s : Session) (i : Nat) (j : Job) :
    (s.stepJob i j).registries.size = s.registries.size := by
  simp [stepJob, setRegistry]

theorem getElem?_stepJob_ne (s : Session) (j : Job) (h : i ≠ k) :
    (s.stepJob i j).jobs[k]? = s.jobs[k]? := by
  simp only [stepJob, setRegistry, Array.getElem?_setIfInBounds_ne h]

theorem stage_stepJob_ne (s : Session) (j : Job) (h : i ≠ k) :
    (s.stepJob i j).stage k = s.stage k :=
  stage_eq_of_getElem? (getElem?_stepJob_ne s j h)

theorem stepWork_cancelled (s : Session) (work : Job.Work) :
    (s.stepWork work).2.2.1.cancelled = (s.registry (s.stepWork work).2.1).cancelled := by
  cases work with
  | run i r => exact Run.step_cancelled s.system r.command r.phase (s.registry i) s.machine
  | check i settings stage =>
    exact Check.step_cancelled s.system settings stage (s.registry i) s.machine
  | nap t answer => rfl

theorem stepJob_cancelled (s : Session) (i : Nat) (j : Job) (h : k < s.registries.size) :
    ((s.stepJob i j).registry k).cancelled = (s.registry k).cancelled := by
  have hr : (s.stepJob i j).registry k =
      if (s.stepWork j.work).2.1 = k then (s.stepWork j.work).2.2.1 else s.registry k := by
    rw [stepJob]
    exact registry_setRegistry _ h _ _
  rw [hr]
  split
  next hk => rw [stepWork_cancelled, hk]
  · rfl

theorem stepJob_check (s : Session) (hi : i < s.jobs.size) (hk : k < s.registries.size)
    {settings : Settings} {stage : Check.Stage} (since : Time)
    (hs : Check.step s.system settings stage (s.registry k) s.machine = (stage', r, m)) :
    (s.stepJob i ⟨.check k settings stage, since⟩).jobs[i]? =
        some ⟨.check k settings stage', m.now + Machine.stepTime⟩ ∧
      (s.stepJob i ⟨.check k settings stage, since⟩).registry k = r ∧
      (s.stepJob i ⟨.check k settings stage, since⟩).machine = m := by
  have hw : s.stepWork (.check k settings stage) = (.check k settings stage', k, r, m) := by
    simp only [stepWork, hs]
  simp only [stepJob, hw]
  refine ⟨?_, ?_, rfl⟩
  · exact Array.getElem?_setIfInBounds_self_of_lt hi
  · exact (registry_setRegistry _ (by exact hk) k r).trans (if_pos rfl)

theorem sooner_eq {s : Session} {x : Job × Nat} (h : s.sooner best x = some (t, i, j)) :
    best = some (t, i, j) ∨ (j, i) = x := by
  obtain ⟨j', i'⟩ := x
  simp only [sooner] at h
  split at h
  · split at h
    · cases h
      exact .inr rfl
    · exact .inl h
  · cases h
    exact .inr rfl
  · exact .inl h

theorem mem_of_foldl_sooner {s : Session} {l : List (Job × Nat)}
    (h : l.foldl s.sooner best = some (t, i, j)) : best = some (t, i, j) ∨ (j, i) ∈ l := by
  induction l generalizing best with
  | nil => exact .inl h
  | cons x l ih =>
    rcases ih h with hb | hm
    · rcases sooner_eq hb with hb | rfl
      · exact .inl hb
      · exact .inr List.mem_cons_self
    · exact .inr (List.mem_cons_of_mem x hm)

theorem getElem?_of_nextJob? (h : nextJob? s = some (t, i, j)) : s.jobs[i]? = some j := by
  rcases mem_of_foldl_sooner h with h | h
  · cases h
  · rw [← Array.getElem?_toList]
    exact List.mem_zipIdx_iff_getElem?.mp h

/-- In a turn either a job takes a step or a process of the machine does. -/
theorem turn?_eq_some {s s' : Session} {limit : Option Time} (h : s.turn? limit = some s') :
    (∃ now i j, s.jobs[i]? = some j ∧
      s' = ({ s with machine := { s.machine with now } } : Session).stepJob i j) ∨
    ∃ machine, s' = { s with machine } := by
  have hj : ∀ {t i j}, s.nextJob? = some (t, i, j) → ∀ {now : Time},
      s' = ({ s with machine := { s.machine with now } } : Session).stepJob i j →
      ∃ now i j, s.jobs[i]? = some j ∧
        s' = ({ s with machine := { s.machine with now } } : Session).stepJob i j :=
    fun hn now hs => ⟨now, _, _, getElem?_of_nextJob? hn, hs⟩
  simp only [turn?] at h
  split at h
  · cases h
  next hn _ =>
    obtain ⟨-, h⟩ := Option.ite_none_right_eq_some.mp h
    exact .inl (hj hn (Option.some.inj h).symm)
  next hn _ =>
    obtain ⟨-, h⟩ := Option.ite_none_right_eq_some.mp h
    exact .inr ⟨_, (Option.some.inj h).symm⟩
  next hn _ =>
    split at h
    · obtain ⟨-, h⟩ := Option.ite_none_right_eq_some.mp h
      exact .inl (hj hn (Option.some.inj h).symm)
    · obtain ⟨-, h⟩ := Option.ite_none_right_eq_some.mp h
      exact .inr ⟨_, (Option.some.inj h).symm⟩

end Triage.Session
