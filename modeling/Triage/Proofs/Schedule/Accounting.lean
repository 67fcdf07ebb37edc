import Triage.Proofs.Lists
import Triage.Proofs.Schedule.Crew

set_option autoImplicit true

open scoped List

namespace Triage

def Event.sent? : Event → Option (Task × Finding)
  | .sent t f => some (t, f)
  | _ => none

def Event.turnedAway? : Event → Option Task
  | .looked t true => some t
  | _ => none

def sent (tr : List Event) : List (Task × Finding) := tr.filterMap Event.sent?

def turnedAway (tr : List Event) : List Task := tr.filterMap Event.turnedAway?

theorem sent_append (a b : List Event) : sent (a ++ b) = sent a ++ sent b :=
  List.filterMap_append

theorem mem_sent : (t, f) ∈ sent tr ↔ .sent t f ∈ tr := by
  constructor
  · intro h
    obtain ⟨e, he, hs⟩ := List.mem_filterMap.mp h
    cases e <;> cases hs
    exact he
  · intro h
    exact List.mem_filterMap.mpr ⟨_, h, rfl⟩

theorem mem_turnedAway : t ∈ turnedAway tr ↔ .looked t true ∈ tr := by
  constructor
  · intro h
    obtain ⟨e, he, hs⟩ := List.mem_filterMap.mp h
    cases e with
    | looked u flag => cases flag <;> cases hs; exact he
    | _ => cases hs
  · intro h
    exact List.mem_filterMap.mpr ⟨_, h, rfl⟩

/-- The task that a step settles: its finding is sent, or it is turned away. -/
def Event.settled? : Event → Option Task
  | .sent t _ | .looked t true => some t
  | _ => none

namespace Schedule

def underWay (q : Schedule κ) : List Task := q.workers.filterMap Worker.task?

/-- In how many places a task is. -/
def places (tr : List Event) (q : Schedule κ) (t : Task) : Nat :=
  ((sent tr).map Prod.fst).count t + (turnedAway tr).count t + q.queue.count t + q.underWay.count t

theorem places_snoc (tr : List Event) (e : Event) (q : Schedule κ) (t : Task) :
    places (tr ++ [e]) q t = places tr q t + e.settled?.toList.count t := by
  have he : ((sent [e]).map Prod.fst).count t + (turnedAway [e]).count t =
      e.settled?.toList.count t := by
    cases e with
    | looked u flag =>
      cases flag with
      | true => exact Nat.zero_add _
      | false => rfl
    | _ => rfl
  simp only [places, sent_append, turnedAway, List.filterMap_append, List.map_append,
    List.count_append] at he ⊢
  omega

theorem places_put (tr : List Event) {q : Schedule κ} (hw : q.workers[w]? = some x) (y : Worker κ)
    (t : Task) :
    places tr (q.put w y) t + x.task?.toList.count t = places tr q t + y.task?.toList.count t := by
  have hu := count_filterMap_set Worker.task? hw y t
  change _ + (q.put w y).underWay.count t + _ = _
  simp only [places, underWay, put] at hu ⊢
  omega

theorem places_assign (tr : List Event) {q : Schedule κ} (hq : q.queue[i]? = some u)
    (hw : q.workers[w]? = some .idle) (t : Task) : places tr (q.assign i w u) t = places tr q t := by
  have hp := places_put tr hw (.starting u) t
  have he := count_eraseIdx hq t
  simp only [places, underWay, assign, put, Worker.task?, Option.toList, List.count_nil] at hp he ⊢
  omega

theorem places_receive (tr : List Event) (q : Schedule κ) (t : Task) :
    places tr q.receive t = places tr q t := by
  unfold receive
  split <;> rfl

end Schedule

theorem Crew.Step.places_eq {C : Crew κ σ} (h : C.Step p e r) (tr : List Event) (t : Task) :
    r.schedule.places (tr ++ [e]) t = p.schedule.places tr t := by
  rw [Schedule.places_snoc]
  cases h with
  | assign i w ht hw => exact Schedule.places_assign tr ht hw t
  | @look q s u w hw =>
    cases ha : q.abandoned with
    | true =>
      rw [Schedule.look_of_abandoned ha]
      exact Schedule.places_put tr hw .leaving t
    | false =>
      rw [Schedule.look_of_not_abandoned ha]
      exact Nat.add_right_cancel (Schedule.places_put tr hw (.cleared u) t)
  | @check q s u w hw =>
    exact Nat.add_right_cancel (Schedule.places_put tr hw (.checking u (C.start u.file s).1) t)
  | @move q s u k k' s' w hw hm =>
    exact Nat.add_right_cancel (Schedule.places_put tr hw (.checking u k') t)
  | send w hw ha => exact Schedule.places_put tr hw .leaving t
  | release w hw => exact Schedule.places_put tr hw .idle t
  | receive hc hf hm => exact Schedule.places_receive tr _ t
  | complete hc hf => rfl
  | desert hc hf hm hh => rfl
  | timeOut hc hf => rfl
  | giveUp hc => rfl
  | cancel hc => rfl
  | elsewhere he => rfl

theorem Crew.Step.findings_eq {C : Crew κ σ} (h : C.Step p e r)
    (hp : p.schedule.collected ++ p.schedule.mailbox = (sent tr).map Prod.snd) :
    r.schedule.collected ++ r.schedule.mailbox = (sent (tr ++ [e])).map Prod.snd := by
  rw [sent_append, List.map_append, ← hp]
  cases h with
  | send w hw ha => exact (List.append_assoc _ _ _).symm
  | @receive q s f fs hc hf hm =>
    rw [Schedule.receive_eq hm, hm]
    simp [sent, Event.sent?]
  | _ => exact (List.append_nil _).symm

namespace Schedule

/-- What holds of a batch over `files` after the steps `tr`. -/
structure Accounts (files : List String) (tr : List Event) (q : Schedule κ) : Prop where
  expected : q.expected = files.length
  findings : q.collected ++ q.mailbox = (sent tr).map Prod.snd
  places : ∀ t, q.places tr t = (tasksOf files).count t
  abandoned : q.abandoned = q.collector.hasGivenUp
  turnedAway : turnedAway tr ≠ [] → q.abandoned = true
  ceiling : .ceiling ∈ tr ↔ q.collector.isLate = true
  short : q.collector.isLate = true → q.full = false
  complete : q.collector = .done .complete → q.full = true
  not_deserted : q.collector ≠ .done .deserted

theorem Accounts.start (n : Nat) (files : List String) :
    Accounts files [] (Schedule.start n files : Schedule κ) where
  expected := rfl
  findings := rfl
  places t := by
    have hu : (List.replicate (workersFor n) Worker.idle : List (Worker κ)).filterMap
        Worker.task? = [] := by
      refine List.filterMap_eq_nil_iff.mpr fun x hx => ?_
      rw [List.eq_of_mem_replicate hx]
      rfl
    simp [Schedule.places, underWay, Schedule.start, sent, Triage.turnedAway, hu]
  abandoned := rfl
  turnedAway h := absurd rfl h
  ceiling := by simp [Schedule.start, Collector.isLate]
  short h := by cases h
  complete h := by cases h
  not_deserted h := by cases h

variable {files : List String} {tr : List Event} {q : Schedule κ}

theorem Accounts.perm (h : Accounts files tr q) :
    (sent tr).map Prod.fst ++ Triage.turnedAway tr ++ q.queue ++ q.underWay ~ tasksOf files := by
  rw [List.perm_iff_count]
  intro t
  simp only [List.count_append]
  exact h.places t

theorem Accounts.not_abandoned (h : Accounts files tr q) (hc : q.collector.isLate = false) :
    q.abandoned = false := by
  rw [h.abandoned]
  cases hq : q.collector with
  | done e =>
    cases e with
    | ceiling => simp only [hq, Collector.isLate, Bool.true_eq_false] at hc
    | _ => rfl
  | abandoning => simp only [hq, Collector.isLate, Bool.true_eq_false] at hc
  | _ => rfl

theorem Accounts.turnedAway_eq_nil (h : Accounts files tr q) (ha : q.abandoned = false) :
    Triage.turnedAway tr = [] := by
  by_contra ht
  rw [h.turnedAway ht] at ha
  cases ha

theorem underWay_of_not_held (hh : q.held = false) : q.queue = [] ∧ q.underWay = [] := by
  simp only [held, Bool.or_eq_false_iff, Bool.not_eq_false', List.isEmpty_iff,
    List.any_eq_false, Bool.not_eq_true', Bool.not_eq_false] at hh
  refine ⟨hh.1, List.filterMap_eq_nil_iff.mpr ?_⟩
  intro x hx
  have hi := hh.2 x hx
  cases x <;> first | rfl | cases hi

/-- As long as the ceiling has not passed, somebody holds the mailbox open for every finding that
is missing. -/
theorem Accounts.full_of_not_held (h : Accounts files tr q) (hc : q.collector.isLate = false)
    (hm : q.mailbox = []) (hh : q.held = false) : q.full = true := by
  obtain ⟨hq, hu⟩ := underWay_of_not_held hh
  have hp := h.perm
  rw [h.turnedAway_eq_nil (h.not_abandoned hc), hq, hu, List.append_nil, List.append_nil,
    List.append_nil] at hp
  have hl := hp.length_eq
  have hf := congrArg List.length h.findings
  simp only [hm, List.append_nil, List.length_map, tasksOf, List.length_mapIdx] at hl hf
  simp only [full, h.expected, hf, hl, decide_eq_true_eq, Nat.le_refl]

theorem turnedAway_snoc (tr : List Event) (e : Event) :
    Triage.turnedAway (tr ++ [e]) = Triage.turnedAway tr ++ e.turnedAway?.toList := by
  simp only [Triage.turnedAway, List.filterMap_append]
  cases e with
  | looked t flag => cases flag <;> rfl
  | _ => rfl

theorem Accounts.same_collector (h : Accounts files tr q) {r : Schedule κ} (he : e ≠ .ceiling)
    (ht : e.turnedAway? ≠ none → q.abandoned = true) (hx : r.expected = q.expected)
    (ha : r.abandoned = q.abandoned) (hc : r.collector = q.collector)
    (hl : q.collector = .receiving ∨ r.full = q.full)
    (hf : r.collected ++ r.mailbox = (sent (tr ++ [e])).map Prod.snd)
    (hp : ∀ t, r.places (tr ++ [e]) t = (tasksOf files).count t) :
    Accounts files (tr ++ [e]) r where
  expected := hx.trans h.expected
  findings := hf
  places := hp
  abandoned := by rw [ha, hc, h.abandoned]
  turnedAway hn := by
    rw [ha]
    by_cases ho : e.turnedAway? = none
    · rw [turnedAway_snoc, ho] at hn
      exact h.turnedAway (by simpa using hn)
    · exact ht ho
  ceiling := by
    rw [hc, ← h.ceiling, List.mem_append, List.mem_singleton]
    exact or_iff_left (Ne.symm he)
  short hs := by
    rcases hl with hl | hl
    · rw [hc, hl] at hs
      cases hs
    · rw [hl]
      exact h.short (hc ▸ hs)
  complete hd := by
    rcases hl with hl | hl
    · rw [hc, hl] at hd
      cases hd
    · rw [hl]
      exact h.complete (hc ▸ hd)
  not_deserted := hc ▸ h.not_deserted

theorem Accounts.step {C : Crew κ σ} (h : Accounts files tr p.schedule) (hs : C.Step p e r) :
    Accounts files (tr ++ [e]) r.schedule := by
  have hp (t : Task) := (hs.places_eq tr t).trans (h.places t)
  have hf := hs.findings_eq h.findings
  -- The steps up to `receive` leave the collector as it is, so it still keeps what it promised.
  cases hs with
  | assign i w ht hw =>
    exact h.same_collector nofun (absurd rfl) rfl rfl rfl (.inr rfl) hf hp
  | @look q s t w hw =>
    refine h.same_collector nofun ?_ rfl rfl rfl (.inr rfl) hf hp
    intro hn
    cases ha : q.abandoned with
    | true => rfl
    | false => simp [ha, Event.turnedAway?] at hn
  | check w hw => exact h.same_collector nofun (absurd rfl) rfl rfl rfl (.inr rfl) hf hp
  | move w hw hm => exact h.same_collector nofun (absurd rfl) rfl rfl rfl (.inr rfl) hf hp
  | send w hw ha => exact h.same_collector nofun (absurd rfl) rfl rfl rfl (.inr rfl) hf hp
  | release w hw => exact h.same_collector nofun (absurd rfl) rfl rfl rfl (.inr rfl) hf hp
  | elsewhere he => exact h.same_collector nofun (absurd rfl) rfl rfl rfl (.inr rfl) hf hp
  | @receive q s f fs hc hl hm =>
    have hr := Schedule.receive_eq hm
    refine h.same_collector nofun (absurd rfl) ?_ ?_ ?_ (.inl hc) hf hp <;> rw [hr]
  | complete hc hl =>
    have ha := h.abandoned
    have hn := mt h.ceiling.mp
    rw [hc] at ha hn
    exact {
      expected := h.expected, findings := hf, places := hp, abandoned := ha
      turnedAway := fun ho => h.turnedAway (by simpa [turnedAway_snoc, Event.turnedAway?] using ho)
      ceiling := by simpa [Schedule.stop, Collector.isLate] using hn nofun
      short := nofun, complete := fun _ => hl, not_deserted := nofun }
  | desert hc hl hm hh =>
    -- No worker is left, yet a finding is missing: this step is never taken.
    have ho := h.full_of_not_held (by rw [hc]; rfl) hm hh
    rw [hl] at ho
    cases ho
  | timeOut hc hl =>
    have ha := h.abandoned
    rw [hc] at ha
    exact {
      expected := h.expected, findings := hf, places := hp, abandoned := ha
      turnedAway := fun ho => h.turnedAway (by simpa [turnedAway_snoc, Event.turnedAway?] using ho)
      ceiling := by simp [Schedule.timeOut, Collector.isLate]
      short := fun _ => hl, complete := nofun, not_deserted := nofun }
  | giveUp hc =>
    have hl : _ = true := (congrArg Collector.isLate hc).trans rfl
    exact {
      expected := h.expected, findings := hf, places := hp, abandoned := rfl
      turnedAway := fun _ => rfl
      ceiling := by simpa [Schedule.giveUp, Collector.isLate] using h.ceiling.mpr hl
      short := fun _ => h.short hl, complete := nofun, not_deserted := nofun }
  | cancel hc =>
    have hl : _ = true := (congrArg Collector.isLate hc).trans rfl
    have ha : _ = true := h.abandoned.trans ((congrArg Collector.hasGivenUp hc).trans rfl)
    exact {
      expected := h.expected, findings := hf, places := hp, abandoned := ha
      turnedAway := fun _ => ha
      ceiling := by simpa [Schedule.stop, Collector.isLate] using h.ceiling.mpr hl
      short := fun _ => h.short hl, complete := nofun, not_deserted := nofun }

theorem Accounts.of_run {C : Crew κ σ} {s : σ} (h : C.Run (.start n files s) tr p) :
    Accounts files tr p.schedule :=
  h.invariant (I := fun tr p => Accounts files tr p.schedule) (.start n files) fun h hs => h.step hs

end Schedule
end Triage
