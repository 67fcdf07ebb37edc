import Triage.Proofs.Session.Jobs

set_option autoImplicit true

namespace Triage

def Worker.map (f : κ → ι) : Worker κ → Worker ι
  | idle => .idle
  | starting t => .starting t
  | cleared t => .cleared t
  | checking t k => .checking t (f k)
  | leaving => .leaving

theorem Worker.isIdle_map (f : κ → ι) (x : Worker κ) : (x.map f).isIdle = x.isIdle := by
  cases x <;> rfl

namespace Schedule

def map (f : κ → ι) (q : Schedule κ) : Schedule ι :=
  ⟨q.queue, q.workers.map (·.map f), q.mailbox, q.collected, q.expected, q.abandoned, q.collector⟩

theorem map_congr {f g : κ → ι} {q : Schedule κ}
    (h : ∀ t k, .checking t k ∈ q.workers → f k = g k) : q.map f = q.map g := by
  have hw : q.workers.map (Worker.map f) = q.workers.map (Worker.map g) := by
    refine List.map_congr_left fun x hx => ?_
    cases x with
    | checking t k => exact congrArg (Worker.checking t) (h t k hx)
    | _ => rfl
  simp only [map, hw]

theorem held_map (f : κ → ι) (q : Schedule κ) : (q.map f).held = q.held := by
  simp only [held, map, List.any_map, Function.comp_def, Worker.isIdle_map]

theorem receive_map (f : κ → ι) (q : Schedule κ) : (q.map f).receive = q.receive.map f := by
  cases hm : q.mailbox with
  | nil => simp only [receive, map, hm]
  | cons x xs =>
    rw [receive_eq hm, receive_eq (s := q.map f) hm]
    rfl

theorem workers_map {q : Schedule κ} {w : Nat} {x : Worker κ} (f : κ → ι) (h : q.workers[w]? = some x) :
    (q.map f).workers[w]? = some (x.map f) := by
  simp only [map, List.getElem?_map, h, Option.map_some]

theorem check_map {f g : κ → ι} {q : Schedule κ} {w : Nat} (hw : q.workers[w]? = some (.checking t k))
    (h : ∀ (v : Nat) u i, q.workers[v]? = some (.checking u i) → v ≠ w → f i = g i) :
    (q.map f).check w t (g k) = q.map g := by
  have hl : (q.workers.map (Worker.map f)).set w (.checking t (g k)) =
      q.workers.map (Worker.map g) := by
    apply List.ext_getElem?
    intro v
    rw [List.getElem?_set, List.getElem?_map, List.getElem?_map, List.length_map]
    split
    next hv =>
      rw [← hv, hw, if_pos (List.getElem?_eq_some_iff.mp hw).1]
      rfl
    next hv =>
      cases hx : q.workers[v]? with
      | none => rfl
      | some x =>
        cases x with
        | checking u i => exact congrArg (some ∘ Worker.checking u) (h v u i hx (Ne.symm hv))
        | _ => rfl
  simp only [check, put, map, hl]

end Schedule

namespace Session

/-- What happens in a session beside a batch cancels no registry. -/
def Aside (x y : Registry × Machine) : Prop := y.1.cancelled = x.1.cancelled

def crew (s : Session) (settings : Settings) : Crew Check.Stage (Registry × Machine) :=
  Check.crew s.system settings s.here.path Aside

def floor (s : Session) (k : Nat) (q : Schedule Nat) : Floor Check.Stage (Registry × Machine) :=
  ⟨q.map s.stage, s.registry k, s.machine⟩

/-- Each worker that checks a file holds a job of its own, and that is a check on the registry with
the number `k`. -/
structure Holders (settings : Settings) (k : Nat) (s : Session) (ws : List (Worker Nat)) : Prop where
  jobs : ∀ t i, .checking t i ∈ ws →
    ∃ stage since, s.jobs[i]? = some ⟨.check k settings stage, since⟩
  distinct : ∀ (w v : Nat) t u i, ws[w]? = some (.checking t i) → ws[v]? = some (.checking u i) → w = v

/-- A session in which `C` collects a batch. -/
structure Collects (C : Crew Check.Stage (Registry × Machine)) (settings : Settings) (k : Nat)
    (s : Session) (q : Schedule Nat) : Prop where
  crew : s.crew settings = C
  registry : k < s.registries.size
  open_ : q.collector = .receiving → q.abandoned = false
  holders : Holders settings k s q.workers

/-- Steps of `C` lead from one moment of a batch to another. -/
structure Leads (C : Crew Check.Stage (Registry × Machine)) (settings : Settings) (k : Nat)
    (x y : Session × Schedule Nat) : Prop where
  run : ∃ tr, C.Run (x.1.floor k x.2) tr (y.1.floor k y.2)
  collects : Collects C settings k y.1 y.2

variable {settings : Settings} {k : Nat} {s : Session} {ws : List (Worker Nat)}

namespace Holders

theorem lt_size (h : Holders settings k s ws) (hi : .checking t i ∈ ws) : i < s.jobs.size := by
  obtain ⟨stage, since, hj⟩ := h.jobs t i hi
  exact (Array.getElem?_eq_some_iff.mp hj).1

theorem set (h : Holders settings k s ws) (w : Nat) {x : Worker Nat}
    (hx : ∀ t i, x ≠ .checking t i) : Holders settings k s (ws.set w x) where
  jobs t i hi := by
    rcases List.mem_or_eq_of_mem_set hi with hi | hi
    · exact h.jobs t i hi
    · exact absurd hi.symm (hx t i)
  distinct v v' t u i hv hv' := by
    have hne : ∀ {v : Nat} {t}, (ws.set w x)[v]? = some (Worker.checking t i) →
        ws[v]? = some (Worker.checking t i) := by
      intro v t hv
      rw [List.getElem?_set] at hv
      split at hv
      · split at hv
        · exact absurd (Option.some.inj hv) (hx t i)
        · cases hv
      · exact hv
    exact h.distinct v v' t u i (hne hv) (hne hv')

theorem add (h : Holders settings k s ws) (w : Nat) (t : Task) (stage : Check.Stage) :
    Holders settings k (s.add (.check k settings stage)).2
      (ws.set w (.checking t s.jobs.size)) where
  jobs u i hi := by
    rcases List.mem_or_eq_of_mem_set hi with hi | hi
    · rw [getElem?_add s _ (h.lt_size hi)]
      exact h.jobs u i hi
    · cases hi
      exact ⟨stage, _, Array.getElem?_push_size⟩
  distinct v v' u u' i hv hv' := by
    have hw : ∀ {v : Nat} {u}, (ws.set w (.checking t s.jobs.size))[v]? = some (Worker.checking u i) →
        v = w ∧ i = s.jobs.size ∨ ws[v]? = some (Worker.checking u i) ∧ i < s.jobs.size := by
      intro v u hv
      rw [List.getElem?_set] at hv
      split at hv
      next hvw =>
        split at hv
        · cases hv
          exact .inl ⟨hvw.symm, rfl⟩
        · cases hv
      · exact .inr ⟨hv, h.lt_size (List.mem_of_getElem? hv)⟩
    rcases hw hv with ⟨rfl, hi⟩ | ⟨ho, hi⟩
    · rcases hw hv' with ⟨rfl, -⟩ | ⟨-, hi'⟩
      · rfl
      · omega
    · rcases hw hv' with ⟨rfl, hi'⟩ | ⟨ho', -⟩
      · omega
      · exact h.distinct v v' u u' i ho ho'

theorem stepJob (h : Holders settings k s ws) (hk : k < s.registries.size)
    (hj : s.jobs[i]? = some j) : Holders settings k (s.stepJob i j) ws where
  jobs t i' hi := by
    by_cases hne : i = i'
    · subst hne
      obtain ⟨stage, since, hs⟩ := h.jobs t i hi
      obtain rfl := Option.some.inj (hj.symm.trans hs)
      exact ⟨_, _, (stepJob_check s (h.lt_size hi) hk since rfl).1⟩
    · rw [getElem?_stepJob_ne s j hne]
      exact h.jobs t i' hi
  distinct := h.distinct

end Holders

variable {C : Crew Check.Stage (Registry × Machine)} {q : Schedule Nat}

theorem Leads.trans (h : Leads C settings k x y) (h' : Leads C settings k y z) :
    Leads C settings k x z := by
  obtain ⟨⟨a, ha⟩, -⟩ := h
  obtain ⟨⟨b, hb⟩, hz⟩ := h'
  exact ⟨⟨_, ha.append hb⟩, hz⟩

namespace Collects

theorem refl (h : Collects C settings k s q) : Leads C settings k (s, q) (s, q) :=
  ⟨⟨[], .refl⟩, h⟩

theorem machine (h : Collects C settings k s q) (machine : Machine) :
    Leads C settings k (s, q) ({ s with machine }, q) := by
  obtain rfl := h.crew
  have hs : (s.crew settings).Step (s.floor k q) .elsewhere
      (({ s with machine } : Session).floor k q) := .elsewhere rfl
  exact ⟨⟨_, .single hs⟩, rfl, h.registry, h.open_, h.holders.jobs, h.holders.distinct⟩

theorem step_of_held (h : Collects C settings k s q) {w : Nat}
    (hw : q.workers[w]? = some (.checking t i)) (hj : s.jobs[i]? = some j) :
    C.Step (s.floor k q) (.moved t) ((s.stepJob i j).floor k q) := by
  obtain rfl := h.crew
  have ht := List.mem_of_getElem? hw
  obtain ⟨stage, since, hs⟩ := h.holders.jobs t i ht
  obtain rfl := Option.some.inj (hj.symm.trans hs)
  obtain ⟨⟨stage', r, m⟩, hm⟩ :
      ∃ x, Check.step s.system settings stage (s.registry k) s.machine = x := ⟨_, rfl⟩
  obtain ⟨hg, hr, hm'⟩ := stepJob_check s (h.holders.lt_size ht) h.registry since hm
  have hf := Schedule.workers_map s.stage hw
  rw [Worker.map, stage_of_getElem? hs] at hf
  have hq := Schedule.check_map (f := s.stage)
    (g := (s.stepJob i ⟨.check k settings stage, since⟩).stage) hw ?_
  · rw [floor, floor, ← hq, stage_of_getElem? hg, hr, hm']
    exact .move w hf hm
  · intro v u i' hv hne
    refine (stage_stepJob_ne s _ ?_).symm
    rintro rfl
    exact hne (h.holders.distinct v w u t i hv hw)

theorem step_of_not_held (h : Collects C settings k s q) (hi : ∀ t, .checking t i ∉ q.workers)
    (j : Job) : C.Step (s.floor k q) .elsewhere ((s.stepJob i j).floor k q) := by
  obtain rfl := h.crew
  have hq : q.map s.stage = q.map (s.stepJob i j).stage := by
    apply Schedule.map_congr
    intro t i' hm
    refine (stage_stepJob_ne s j ?_).symm
    rintro rfl
    exact hi t hm
  rw [floor, floor, ← hq]
  exact .elsewhere (stepJob_cancelled s i j h.registry)

theorem stepJob (h : Collects C settings k s q) (hj : s.jobs[i]? = some j) :
    Leads C settings k (s, q) (s.stepJob i j, q) := by
  have hc : Collects C settings k (s.stepJob i j) q := by
    refine ⟨h.crew, ?_, h.open_, h.holders.stepJob h.registry hj⟩
    rw [stepJob_registries_size]
    exact h.registry
  by_cases hi : ∃ t, .checking t i ∈ q.workers
  · obtain ⟨t, ht⟩ := hi
    obtain ⟨w, hw⟩ := List.getElem?_of_mem ht
    exact ⟨⟨_, .single (h.step_of_held hw hj)⟩, hc⟩
  · exact ⟨⟨_, .single (h.step_of_not_held (fun t ht => hi ⟨t, ht⟩) j)⟩, hc⟩

theorem turn (h : Collects C settings k s q) (ht : s.turn? limit = some s') :
    Leads C settings k (s, q) (s', q) := by
  rcases turn?_eq_some ht with ⟨now, i, j, hj, rfl⟩ | ⟨m, rfl⟩
  · have hm := h.machine { s.machine with now }
    exact hm.trans (hm.collects.stepJob hj)
  · exact h.machine m

theorem idle?_eq_some (h : idle? q = some w) : q.workers[w]? = some .idle := by
  obtain ⟨hl, hi, -⟩ := List.findIdx?_eq_some_iff_getElem.mp h
  rw [List.getElem?_eq_getElem hl]
  cases hx : q.workers[w] with
  | idle => rfl
  | _ =>
    rw [hx] at hi
    cases hi

theorem begins (h : Collects C settings k s q) (hc : q.collector = .receiving)
    (hw : idle? q = some w) (hq : q.queue = t :: ts) :
    Leads C settings k (s, q)
      ((s.add (.check k settings (Check.start settings s.here.path t.file))).2,
        ((q.assign 0 w t).look w t).check w t s.jobs.size) := by
  obtain rfl := h.crew
  let s' := (s.add (.check k settings (Check.start settings s.here.path t.file))).2
  let q' := ((q.assign 0 w t).look w t).check w t s.jobs.size
  have hg : s'.stage s.jobs.size = Check.start settings s.here.path t.file :=
    stage_of_getElem? Array.getElem?_push_size
  have hm : q.map s.stage = q.map s'.stage := by
    apply Schedule.map_congr
    intro t i hi
    exact (stage_eq_of_getElem? (getElem?_add s _ (h.holders.lt_size hi))).symm
  have hr := Crew.Run.begins (C := s.crew settings) (q := q.map s'.stage) (i := 0) (w := w)
    (s := (s.registry k, s.machine)) (by rw [Schedule.map, hq]; rfl)
    (Schedule.workers_map _ (idle?_eq_some hw)) (h.open_ hc)
  have hf : s'.floor k q' = ⟨({ q.map s'.stage with queue := q.queue.eraseIdx 0 } :
      Schedule Check.Stage).check w t (Check.start settings s.here.path t.file),
      s'.registry k, s'.machine⟩ := by
    simp only [floor, q', Schedule.map, Schedule.check, Schedule.look, Schedule.assign,
      Schedule.put, List.set_set, List.map_set, Worker.map, hg]
  have hw' : q'.workers = q.workers.set w (.checking t s.jobs.size) := by
    simp only [q', Schedule.check, Schedule.look, Schedule.assign, Schedule.put, List.set_set]
  refine ⟨⟨[.assigned t, .looked t false, .began t], ?_⟩, rfl, h.registry, h.open_, ?_⟩
  · rw [floor, hm, show Session.floor _ k _ = _ from hf]
    exact hr
  · exact (show q'.workers = _ from hw') ▸ h.holders.add w t _

theorem finished?_eq_some (h : s.finished? q = some (w, t, a)) :
    ∃ i, q.workers[w]? = some (.checking t i) ∧
      (s.jobs[i]?).bind (·.answer? s.machine.now) = some a := by
  obtain ⟨⟨x, v⟩, hx, h⟩ := List.exists_of_findSome?_eq_some h
  obtain ⟨⟨u, b⟩, ha, hv⟩ := Option.map_eq_some_iff.mp h
  cases hv
  have hx : q.workers[w]? = some x := List.mem_zipIdx_iff_getElem?.mp hx
  cases x with
  | checking t i =>
    obtain ⟨b, hb, hv⟩ := Option.map_eq_some_iff.mp ha
    cases hv
    exact ⟨i, hx, hb⟩
  | _ => cases ha

theorem finishes (h : Collects C settings k s q) (hf : s.finished? q = some (w, t, a)) :
    Leads C settings k (s, q) (s, (q.deliver w (a.finding t.file)).release w) := by
  obtain rfl := h.crew
  let q' := (q.deliver w (a.finding t.file)).release w
  obtain ⟨i, hw, ha⟩ := finished?_eq_some hf
  obtain ⟨stage, since, hs⟩ := h.holders.jobs t i (List.mem_of_getElem? hw)
  rw [hs] at ha
  have hk := Schedule.workers_map s.stage hw
  rw [Worker.map, stage_of_getElem? hs] at hk
  have hr := Crew.Run.ends (C := s.crew settings) (s := (s.registry k, s.machine)) hk ha
  have hf : s.floor k q' = ⟨((q.map s.stage).deliver w (a.finding t.file)).release w,
      s.registry k, s.machine⟩ := by
    simp only [floor, q', Schedule.map, Schedule.release, Schedule.deliver, Schedule.put,
      List.set_set, List.map_set, Worker.map]
  refine ⟨⟨[.sent t (a.finding t.file), .released], ?_⟩, rfl, h.registry, h.open_, ?_⟩
  · rw [show Session.floor _ k _ = _ from hf]
    exact hr
  · exact (h.holders.set w (x := .leaving) (by simp)).set w (x := .idle) (by simp)

theorem step (h : Collects C settings k s q) (hs : C.Step (s.floor k q) e (s.floor k q'))
    (hw : q'.workers = q.workers) (ho : q'.collector = .receiving → q'.abandoned = false) :
    Leads C settings k (s, q) (s, q') :=
  ⟨⟨_, .single hs⟩, h.crew, h.registry, ho, hw ▸ h.holders⟩

variable {work : Session → String → Job.Work}

theorem goOn (h : Collects C settings k s q) (hc : q.collector = .receiving)
    (hw : ∀ s file, work s file = .check k settings (Check.start settings s.here.path file)) :
    Leads C settings k (s, q) (Session.goOn work deadline s q) := by
  unfold Session.goOn
  split
  next w t ts hi hq =>
    rw [hw]
    exact h.begins hc hi hq
  · split
    next w t a hf => exact h.finishes hf
    · split
      next s' ht => exact h.turn ht
      · exact h.machine _

theorem cancel (h : Collects C settings k s q) (hc : q.collector = .abandoning) :
    Leads C settings k (s, q) ((s.cancel k).2, q.stop .ceiling) := by
  obtain rfl := h.crew
  have hr : (s.cancel k).2.registry k = (s.registry k).cancel :=
    (registry_setRegistry s h.registry k _).trans (if_pos rfl)
  have hs : (s.crew settings).Step (s.floor k q) .cancelled
      ((s.cancel k).2.floor k (q.stop .ceiling)) := by
    have hs : (s.crew settings).Step (s.floor k q) .cancelled _ := .cancel hc
    rw [floor, floor, hr]
    exact hs
  exact ⟨⟨_, .single hs⟩, rfl, by simp [Session.cancel, setRegistry, h.registry], nofun,
    h.holders.jobs, h.holders.distinct⟩

theorem stepBatch (h : Collects C settings k s q) (deadline : Time)
    (hw : ∀ s file, work s file = .check k settings (Check.start settings s.here.path file)) :
    Leads C settings k (s, q) (Session.stepBatch work k deadline s q) := by
  have hh := Schedule.held_map s.stage q
  cases hc : q.collector with
  | done e =>
    simp only [Session.stepBatch, hc]
    exact h.refl
  | late =>
    simp only [Session.stepBatch, hc]
    exact h.step (.giveUp hc) rfl nofun
  | abandoning =>
    simp only [Session.stepBatch, hc]
    exact h.cancel hc
  | receiving =>
    simp only [Session.stepBatch, hc]
    split
    next hf => exact h.step (.complete hc hf) rfl nofun
    next hf =>
    have hf : q.full = false := Bool.eq_false_iff.mpr hf
    split
    next hm =>
      obtain ⟨f, fs, hm⟩ := List.exists_cons_of_ne_nil (l := q.mailbox) (by simpa using hm)
      have hs : C.Step (s.floor k q) (.received f) (s.floor k q.receive) := by
        rw [floor, floor, ← Schedule.receive_map]
        exact .receive hc hf hm
      rw [Schedule.receive_eq hm] at hs ⊢
      exact h.step hs rfl h.open_
    next hm =>
    have hm : q.mailbox = [] := by simpa using hm
    split
    next hn => exact h.step (.desert hc hf hm (hh.trans (by simpa using hn))) rfl nofun
    · split
      · exact h.step (.timeOut hc hf) rfl nofun
      · exact h.goOn hc hw

end Collects

theorem Collects.collectBatch {work : Session → String → Job.Work}
    (h : Collects C settings k s q) (deadline : Time)
    (hw : ∀ s file, work s file = .check k settings (Check.start settings s.here.path file))
    (fuel : Nat) : Leads C settings k (s, q) (Session.collectBatch work k deadline fuel s q) := by
  induction fuel generalizing s q with
  | zero => exact h.refl
  | succ fuel ih =>
    have hs := h.stepBatch deadline hw
    unfold Session.collectBatch
    split
    · exact h.refl
    · exact hs.trans (ih hs.collects)

theorem collects_start (settings : Settings) (h : k < s.registries.size) (n : Nat)
    (files : List String) : Collects (s.crew settings) settings k s (.start n files) := by
  have hn : ∀ x ∈ (Schedule.start n files : Schedule Nat).workers, x = .idle :=
    fun _ hx => List.eq_of_mem_replicate hx
  refine ⟨rfl, h, fun _ => rfl, ?_, ?_⟩
  · exact fun t i hi => absurd (hn _ hi) nofun
  · exact fun w v t u i hi => absurd (hn _ (List.mem_of_getElem? hi)) nofun

theorem floor_start (s : Session) (k n : Nat) (files : List String) :
    s.floor k (.start n files) = .start n files (s.registry k, s.machine) := by
  simp only [floor, Floor.start, Schedule.map, Schedule.start, List.map_replicate, Worker.map]

/-- What a batch comes to in a session is what some run of its crew has collected once the collector
has stopped. -/
theorem exists_run_of_runBatch {work : Session → String → Job.Work}
    (hw : ∀ s file, work s file = .check k settings (Check.start settings s.here.path file))
    (h : k < s.registries.size) (hf : files ≠ [])
    (hb : s.runBatch work k n deadline files = some (b, s')) :
    ∃ tr p, (s.crew settings).Run (.start n files (s.registry k, s.machine)) tr p ∧
      p.schedule.returned? = some b ∧ p.shared = (s'.registry k, s'.machine) := by
  unfold runBatch at hb
  split at hb
  next he => exact absurd (List.isEmpty_iff.mp he) hf
  obtain ⟨tr, hr⟩ := ((collects_start settings h n files).collectBatch deadline hw turns).run
  rcases he : s.collectBatch work k deadline turns (.start n files) with ⟨s₁, q⟩
  rw [he] at hr hb
  obtain ⟨b', hq, hb⟩ := Option.map_eq_some_iff.mp hb
  obtain ⟨rfl, rfl⟩ := Prod.mk.inj hb
  exact ⟨tr, _, floor_start s k n files ▸ hr, hq, rfl⟩

end Session
end Triage
