import Triage.Proofs.Schedule.Accounting

set_option autoImplicit true

open scoped List

namespace Triage

def found (check : String → Answer) (file : String) : Finding := (check file).finding file

def Crew.ofCheck (check : String → Answer) : Crew String (Option Registry) where
  start file s := (file, s)
  moves _ _ _ _ := False
  answer? file _ := some (check file)
  elsewhere _ _ := False
  registry s := s
  cancel := Option.map Registry.cancel
  registry_cancel _ := rfl

namespace Schedule

theorem getElem?_place (h : t ∈ tasksOf files) : files[t.place]? = some t.file := by
  obtain ⟨i, hi, rfl⟩ := List.mem_mapIdx.mp h
  exact List.getElem?_eq_getElem hi

theorem map_place_tasksOf (files : List String) :
    (tasksOf files).map Task.place = List.range files.length := by
  apply List.ext_getElem <;> simp [tasksOf]

theorem map_file_tasksOf (files : List String) : (tasksOf files).map Task.file = files := by
  apply List.ext_getElem <;> simp [tasksOf]

theorem nodup_tasksOf (files : List String) : (tasksOf files).Nodup := by
  apply List.Nodup.of_map Task.place
  rw [map_place_tasksOf]
  exact List.nodup_range

variable {out : String → Finding} {files : List String} {tr : List Event} {q : Schedule κ}

theorem Accounts.exists_sent (h : Accounts files tr q) :
    ∃ ss, ss <+ sent tr ∧ ss.map Prod.fst <+~ tasksOf files ∧ q.collected = ss.map Prod.snd := by
  have hs := List.take_sublist q.collected.length (sent tr)
  refine ⟨(sent tr).take q.collected.length, hs, ?_, ?_⟩
  · refine (hs.map Prod.fst).subperm.trans (h.perm.subperm_left.mp ?_)
    simp only [List.append_assoc]
    exact (List.sublist_append_left _ _).subperm
  · rw [List.map_take, ← h.findings, List.take_left]

theorem Accounts.collected_eq (h : Accounts files tr q)
    (ho : ∀ t f, .sent t f ∈ tr → f = out t.file) :
    ∃ ts, ts <+~ tasksOf files ∧ q.collected = ts.map fun t => out t.file := by
  obtain ⟨ss, hs, ht, hc⟩ := h.exists_sent
  refine ⟨ss.map Prod.fst, ht, ?_⟩
  rw [hc, List.map_map]
  refine List.map_congr_left ?_
  rintro ⟨t, f⟩ hf
  exact ho t f (mem_sent.mp (hs.subset hf))

theorem exists_places (out : String → Finding) (h : ts <+~ tasksOf files) :
    ∃ places : List Nat, places.Nodup ∧
      places.map (fun i => files[i]?.map out) = ts.map fun t => some (out t.file) := by
  refine ⟨ts.map Task.place, ?_, ?_⟩
  · have hp := subperm_map Task.place h
    rw [map_place_tasksOf] at hp
    obtain ⟨l, hl, hs⟩ := hp
    exact hl.nodup_iff.mp (hs.nodup List.nodup_range)
  · rw [List.map_map]
    refine List.map_congr_left fun t ht => ?_
    simp only [Function.comp, getElem?_place (h.subset ht), Option.map_some]

theorem Accounts.collected_subperm (h : Accounts files tr q)
    (ho : ∀ t f, .sent t f ∈ tr → f = out t.file) : q.collected <+~ files.map out := by
  obtain ⟨ts, ht, hq⟩ := h.collected_eq ho
  have hm := subperm_map (out ∘ Task.file) ht
  rw [← List.map_map (l := tasksOf files), map_file_tasksOf] at hm
  rw [hq]
  exact hm

theorem Accounts.collected_perm (h : Accounts files tr q)
    (ho : ∀ t f, .sent t f ∈ tr → f = out t.file) (hf : q.full = true) :
    q.collected ~ files.map out := by
  apply (h.collected_subperm ho).perm_of_length_le
  simpa [full, h.expected] using hf

theorem Accounts.files_subperm (h : Accounts files tr q)
    (ho : ∀ t f, .sent t f ∈ tr → t ∈ tasksOf files → f.file = t.file) :
    q.collected.map Finding.file <+~ files := by
  obtain ⟨ss, hs, ht, hc⟩ := h.exists_sent
  have he : q.collected.map Finding.file = (ss.map Prod.fst).map Task.file := by
    rw [hc, List.map_map, List.map_map]
    refine List.map_congr_left ?_
    rintro ⟨t, f⟩ hm
    exact ho t f (mem_sent.mp (hs.subset hm)) (ht.subset (List.mem_map_of_mem hm))
  have hp := subperm_map Task.file ht
  rwa [map_file_tasksOf, ← he] at hp

theorem Accounts.files_perm (h : Accounts files tr q)
    (ho : ∀ t f, .sent t f ∈ tr → t ∈ tasksOf files → f.file = t.file) (hf : q.full = true) :
    q.collected.map Finding.file ~ files := by
  apply (h.files_subperm ho).perm_of_length_le
  simpa [full, h.expected] using hf

theorem Accounts.length_collected_le (h : Accounts files tr q) :
    q.collected.length ≤ files.length := by
  have hf := congrArg List.length h.findings
  have hp := h.perm.length_eq
  simp only [List.length_append, List.length_map, tasksOf, List.length_mapIdx] at hf hp
  omega

theorem Accounts.length_add_shortfall (h : Accounts files tr q) :
    q.batch.findings.length + q.batch.shortfall = files.length := by
  have hl := h.length_collected_le
  simp only [batch, Batch.shortfall, Batch.shortfallOf, h.expected]
  omega

end Schedule

/-- How many steps are due to a worker and to the finding that it sends, if checks do nothing but
find. -/
def Worker.due : Worker κ → Nat
  | idle => 0
  | leaving => 1
  | checking .. => 3
  | cleared _ => 4
  | starting _ => 5

def Collector.due : Collector → Nat
  | receiving => 3
  | late => 2
  | abandoning => 1
  | done _ => 0

namespace Schedule

def dueAll : List (Worker κ) → Nat
  | [] => 0
  | x :: xs => x.due + dueAll xs

def stepsLeft (q : Schedule κ) : Nat :=
  6 * q.queue.length + dueAll q.workers + q.mailbox.length + q.collector.due

theorem dueAll_set {ws : List (Worker κ)} (h : ws[w]? = some x) (y : Worker κ) :
    dueAll (ws.set w y) + x.due = dueAll ws + y.due := by
  induction ws generalizing w with
  | nil => simp at h
  | cons a ws ih =>
    cases w with
    | zero =>
      simp only [List.getElem?_cons_zero, Option.some.injEq] at h
      subst a
      simp only [List.set_cons_zero, dueAll]
      omega
    | succ w =>
      have ih := ih h
      simp only [List.set_cons_succ, dueAll]
      omega

theorem dueAll_replicate_idle (n : Nat) :
    dueAll (List.replicate n Worker.idle : List (Worker κ)) = 0 := by
  induction n with
  | zero => rfl
  | succ n ih => simp only [List.replicate_succ, dueAll, Worker.due, ih]

theorem stepsLeft_put {q : Schedule κ} (hw : q.workers[w]? = some x) (y : Worker κ) :
    (q.put w y).stepsLeft + x.due = q.stepsLeft + y.due := by
  have hd := dueAll_set hw y
  simp only [stepsLeft, put]
  omega

end Schedule

theorem Crew.Step.stepsLeft_lt {check : String → Answer} (h : (Crew.ofCheck check).Step p e r) :
    r.schedule.stepsLeft < p.schedule.stepsLeft := by
  cases h with
  | @assign q s t i w ht hw =>
    have hd := Schedule.stepsLeft_put hw (.starting t)
    have hi := (List.getElem?_eq_some_iff.mp ht).1
    have hl := List.length_eraseIdx_of_lt hi
    simp only [Schedule.stepsLeft, Schedule.assign, Schedule.put, Worker.due] at hd ⊢
    omega
  | @look q s t w hw =>
    cases ha : q.abandoned with
    | true =>
      have hd := Schedule.stepsLeft_put hw .leaving
      rw [Schedule.look_of_abandoned ha]
      simp only [Worker.due] at hd ⊢
      omega
    | false =>
      have hd := Schedule.stepsLeft_put hw (.cleared t)
      rw [Schedule.look_of_not_abandoned ha]
      simp only [Worker.due] at hd ⊢
      omega
  | @check q s t w hw =>
    have hd := Schedule.stepsLeft_put hw (.checking t t.file)
    change (q.put w (.checking t t.file)).stepsLeft < q.stepsLeft
    simp only [Worker.due] at hd
    omega
  | move w hw hm => exact hm.elim
  | @send q s t k a w hw ha =>
    have hd := Schedule.stepsLeft_put hw .leaving
    simp only [Schedule.stepsLeft, Schedule.deliver, Schedule.put, Worker.due, List.length_append,
      List.length_singleton] at hd ⊢
    omega
  | @release q s w hw =>
    have hd := Schedule.stepsLeft_put hw .idle
    change (q.put w .idle).stepsLeft < q.stepsLeft
    simp only [Worker.due] at hd
    omega
  | receive hc hf hm =>
    rw [Schedule.receive_eq hm]
    simp only [Schedule.stepsLeft, hm, List.length_cons]
    omega
  | complete hc hf =>
    simp only [Schedule.stepsLeft, Schedule.stop, hc, Collector.due]
    omega
  | desert hc hf hm hh =>
    simp only [Schedule.stepsLeft, Schedule.stop, hc, Collector.due]
    omega
  | timeOut hc hf =>
    simp only [Schedule.stepsLeft, Schedule.timeOut, hc, Collector.due]
    omega
  | giveUp hc =>
    simp only [Schedule.stepsLeft, Schedule.giveUp, hc, Collector.due]
    omega
  | cancel hc =>
    simp only [Schedule.stepsLeft, Schedule.stop, hc, Collector.due]
    omega
  | elsewhere he => exact he.elim

theorem Crew.Run.length_add_stepsLeft {check : String → Answer}
    (h : (Crew.ofCheck check).Run p tr q) :
    tr.length + q.schedule.stepsLeft ≤ p.schedule.stepsLeft := by
  induction h with
  | refl => simp
  | snoc h hs ih =>
    have hl := hs.stepsLeft_lt
    simp only [List.length_append, List.length_singleton]
    omega

theorem Crew.Step.length_workers {C : Crew κ σ} (h : C.Step p e r) :
    r.schedule.workers.length = p.schedule.workers.length := by
  cases h with
  | receive hc hf hm => rw [Schedule.receive_eq hm]
  | complete | desert | timeOut | giveUp | cancel | elsewhere => rfl
  | _ => exact List.length_set

theorem Crew.Run.workers_ne_nil {C : Crew κ σ} (h : C.Run (.start n files s) tr p) :
    p.schedule.workers ≠ [] := by
  refine h.invariant (I := fun _ p => p.schedule.workers ≠ []) ?_ fun hI hs => ?_
  · apply List.ne_nil_of_length_pos
    simp only [Floor.start, Schedule.start, Schedule.workersFor, List.length_replicate]
    omega
  · rw [← List.length_pos_iff, hs.length_workers, List.length_pos_iff]
    exact hI

theorem Crew.step_of_worker {check : String → Answer} {q : Schedule String} {w : Nat}
    {x : Worker String}
    (hw : q.workers[w]? = some x) (hx : x.isIdle = false) (s : Option Registry) :
    ∃ e r, (Crew.ofCheck check).Step ⟨q, s⟩ e r ∧ e ≠ .ceiling := by
  cases x with
  | idle => cases hx
  | starting t => exact ⟨_, _, .look w hw, nofun⟩
  | cleared t => exact ⟨_, _, .check w hw, nofun⟩
  | checking t k => exact ⟨_, _, .send w hw rfl, nofun⟩
  | leaving => exact ⟨_, _, .release w hw, nofun⟩

theorem Crew.Run.step_of_not_returned {check : String → Answer}
    (h : (Crew.ofCheck check).Run (.start n files s) tr p) (hp : p.schedule.returned? = none) :
    ∃ e r, (Crew.ofCheck check).Step p e r ∧ e ≠ .ceiling := by
  have hn := h.workers_ne_nil
  have hA := Schedule.Accounts.of_run h
  obtain ⟨q, s⟩ := p
  cases hc : q.collector with
  | done e => simp only [Schedule.returned?, hc, reduceCtorEq] at hp
  | late => exact ⟨_, _, .giveUp hc, by simp⟩
  | abandoning => exact ⟨_, _, .cancel hc, by simp⟩
  | receiving =>
    cases hf : q.full with
    | true => exact ⟨_, _, .complete hc hf, by simp⟩
    | false =>
      cases hm : q.mailbox with
      | cons f fs => exact ⟨_, _, .receive hc hf hm, by simp⟩
      | nil =>
        -- Somebody holds the mailbox open: a worker that is at something, or a task for an idle one.
        by_cases hi : ∃ x ∈ q.workers, x.isIdle = false
        · obtain ⟨x, hx, hi⟩ := hi
          obtain ⟨w, hw⟩ := List.getElem?_of_mem hx
          exact step_of_worker hw hi s
        · cases hq : q.queue with
          | nil =>
            have hh : q.held = false := by
              simpa [Schedule.held, hq] using hi
            rw [hA.full_of_not_held (by rw [hc]; rfl) hm hh] at hf
            cases hf
          | cons t ts =>
            obtain ⟨x, xs, hw⟩ := List.exists_cons_of_ne_nil hn
            have hx : x = .idle := by
              cases x with
              | idle => rfl
              | _ => exact absurd ⟨_, hw ▸ List.mem_cons_self, rfl⟩ hi
            exact ⟨_, _, .assign 0 0 (by rw [hq]; rfl) (by rw [hw, hx]; rfl), by simp⟩

theorem Crew.Run.sent_ofCheck {check : String → Answer}
    (h : (Crew.ofCheck check).Run (.start n files s) tr p) (hf : .sent t f ∈ tr) :
    f = found check t.file := by
  obtain ⟨k, s, a, rfl, ha, hf⟩ := h.answered (fun t k => k = t.file) (fun _ _ => rfl)
    (by intro _ _ _ _ _ _ hm; exact hm.elim) hf
  cases ha
  exact hf

/-- The mailbox is never deserted. -/
theorem Crew.Run.not_deserted {C : Crew κ σ} {s : σ} (h : C.Run (.start n files s) tr p) :
    .deserted ∉ tr := by
  induction h with
  | refl => exact List.not_mem_nil
  | snoc h hs ih =>
    intro hd
    rcases List.mem_append.mp hd with hd | hd
    · exact ih hd
    · cases List.eq_of_mem_singleton hd
      have hA := Schedule.Accounts.of_run (.snoc h hs)
      cases hs with
      | desert hc hf hm hh => exact hA.not_deserted rfl

theorem Schedule.Accounts.full_of_returned {q : Schedule κ} (h : q.Accounts files tr)
    (hr : q.returned? = some b) (ht : .ceiling ∉ tr) : q.full = true := by
  cases hc : q.collector with
  | done e =>
    cases e with
    | complete => exact h.complete hc
    | ceiling => exact absurd (h.ceiling.mpr (by rw [hc]; rfl)) ht
    | deserted => exact absurd hc h.not_deserted
  | _ => simp only [returned?, hc, reduceCtorEq] at hr

theorem Schedule.batch_of_returned {q : Schedule κ} (hr : q.returned? = some b) : b = q.batch := by
  cases hc : q.collector with
  | done e =>
    simp only [returned?, hc, Option.some.injEq] at hr
    exact hr.symm
  | _ => simp only [returned?, hc, reduceCtorEq] at hr

theorem found_eq (check : String → Answer) (file : String) :
    (∀ f, check file = .ok f → found check file = f) ∧
      (∀ reason, check file = .error (.because reason) → found check file =
        ⟨file, .processError, "check task failed: " ++ reason, none⟩) ∧
      (check file = .error .unknown → found check file =
        ⟨file, .processError, "check task failed: unknown panic", none⟩) := by
  refine ⟨?_, ?_, ?_⟩
  · intro f hc
    simp only [found, hc, Answer.finding]
  · intro reason hc
    simp only [found, hc, Answer.finding]
    rfl
  · intro hc
    simp only [found, hc, Answer.finding]
    rfl

/-- What a batch returns, in whatever order its workers and its collector take their steps: the
findings of files at different places, and how many are missing; all of them unless the ceiling
passes.  A check that breaks off counts as one that finds a process error.  The mailbox is never
deserted, and the steps come to an end with a batch. -/
theorem Crew.batch_of_any_order (check : String → Answer) (n : Nat) (files : List String)
    (s : Option Registry) (h : (Crew.ofCheck check).Run (.start n files s) tr p) :
    (∀ file, (∀ f, check file = .ok f → found check file = f) ∧
      (∀ reason, check file = .error (.because reason) → found check file =
        ⟨file, .processError, "check task failed: " ++ reason, none⟩) ∧
      (check file = .error .unknown → found check file =
        ⟨file, .processError, "check task failed: unknown panic", none⟩)) ∧
    (∀ b, p.schedule.returned? = some b →
      (∃ places : List Nat, places.Nodup ∧
        b.findings.map some = places.map fun i => files[i]?.map (found check)) ∧
      b.findings <+~ files.map (found check) ∧
      b.findings.length + b.shortfall = files.length ∧
      (.ceiling ∉ tr → b.findings ~ files.map (found check))) ∧
    .deserted ∉ tr ∧
    (p.schedule.returned? = none → ∃ e r, (Crew.ofCheck check).Step p e r ∧ e ≠ .ceiling) ∧
    tr.length ≤ 6 * files.length + 3 := by
  have hA := Schedule.Accounts.of_run h
  have ho : ∀ t f, .sent t f ∈ tr → f = found check t.file := fun t f => h.sent_ofCheck
  refine ⟨found_eq check, ?_, h.not_deserted, h.step_of_not_returned, ?_⟩
  · intro b hb
    obtain rfl := Schedule.batch_of_returned hb
    refine ⟨?_, hA.collected_subperm ho, hA.length_add_shortfall, ?_⟩
    · obtain ⟨ts, ht, hc⟩ := hA.collected_eq ho
      obtain ⟨places, hn, hp⟩ := Schedule.exists_places (found check) ht
      refine ⟨places, hn, ?_⟩
      rw [hp, Schedule.batch, hc, List.map_map]
      rfl
    · intro hc
      exact hA.collected_perm ho (hA.full_of_returned hb hc)
  · have hl := h.length_add_stepsLeft
    simp only [Floor.start, Schedule.start, Schedule.stepsLeft, Schedule.dueAll_replicate_idle,
      Schedule.tasksOf, List.length_mapIdx, List.length_nil, Collector.due] at hl
    omega

theorem Crew.batch_of_two_in_time :
    ∃ (check : String → Answer) (tr : List Event) (p : Floor String (Option Registry)) (b : Batch),
      check "b" = .error .unknown ∧
      (Crew.ofCheck check).Run (.start 2 ["a", "b", "a"] none) tr p ∧
      p.schedule.returned? = some b ∧ b.shortfall = 1 ∧
      b.findings = [⟨"b", .processError, "check task failed: unknown panic", none⟩,
        ⟨"a", .ok, "imports", none⟩] ∧
      b.findings.length + b.shortfall = ["a", "b", "a"].length := by
  let check (file : String) : Answer :=
    if file = "b" then .error .unknown else .ok ⟨file, .ok, "imports", none⟩
  have h : (Crew.ofCheck check).Run (.start 2 ["a", "b", "a"] none) [] _ := .refl
  have h := (((h.snoc (.assign 1 0 rfl rfl)).snoc (.look 0 rfl)).snoc (.check 0 rfl)).snoc
    (.send 0 rfl rfl)
  have h := (((h.snoc (.assign 1 1 rfl rfl)).snoc (.look 1 rfl)).snoc (.check 1 rfl)).snoc
    (.send 1 rfl rfl)
  have h := (h.snoc (.receive rfl rfl rfl)).snoc (.receive rfl rfl rfl)
  have h := ((h.snoc (.timeOut rfl rfl)).snoc (.giveUp rfl)).snoc (.cancel rfl)
  obtain ⟨hf, hb, -⟩ := batch_of_any_order check 2 ["a", "b", "a"] none h
  have ha : found check "a" = ⟨"a", .ok, "imports", none⟩ := (hf "a").1 _ rfl
  refine ⟨check, _, _, _, rfl, h, rfl, rfl, ?_, (hb _ rfl).2.2.1⟩
  rw [← (hf "b").2.2 rfl, ← ha]
  rfl

end Triage
