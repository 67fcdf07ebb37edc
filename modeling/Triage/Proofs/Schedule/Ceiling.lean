import Triage.Proofs.Schedule.Collection
import Triage.Run

set_option autoImplicit true

open scoped List

namespace Triage

theorem Crew.Step.abandoned {C : Crew κ σ} (h : C.Step p e r) :
    r.schedule.abandoned = true ↔ p.schedule.abandoned = true ∨ e = .abandoned := by
  cases h with
  | receive hc hf hm => simp [Schedule.receive_eq hm]
  | giveUp hc => simp [Schedule.giveUp]
  | _ => exact (or_iff_left (by simp)).symm

theorem Crew.Run.abandoned {C : Crew κ σ} {s : σ} (h : C.Run (.start n files s) tr p) :
    p.schedule.abandoned = true ↔ .abandoned ∈ tr := by
  induction h with
  | refl => simp [Floor.start, Schedule.start]
  | snoc h hs ih => rw [hs.abandoned, ih, List.mem_append, List.mem_singleton, eq_comm]

theorem Crew.Run.looked {C : Crew κ σ} {s : σ} (h : C.Run (.start n files s) tr p)
    (he : tr = a ++ .abandoned :: b) (hl : .looked t flag ∈ b) : flag = true := by
  obtain ⟨c, d, rfl⟩ := List.append_of_mem hl
  have he : tr = (a ++ .abandoned :: c) ++ .looked t flag :: d := by simp [he]
  obtain ⟨q, r, hq, hs, -⟩ := h.split he
  have ha := (Crew.Run.abandoned hq).mpr (by simp)
  cases hs with
  | look w hw => exact ha

/-- A task with which a worker has begun is still being checked, or its finding was sent. -/
def Begun (tr : List Event) (ws : List (Worker κ)) : Prop :=
  ∀ t, .began t ∈ tr → (∃ f, .sent t f ∈ tr) ∨ ∃ k, .checking t k ∈ ws

theorem Begun.same {ws : List (Worker κ)} (h : Begun tr ws) (he : ∀ t, e ≠ .began t) :
    Begun (tr ++ [e]) ws := by
  intro t ht
  rcases List.mem_append.mp ht with ht | ht
  · exact (h t ht).imp_left fun ⟨f, hf⟩ => ⟨f, List.mem_append_left _ hf⟩
  · exact absurd (List.eq_of_mem_singleton ht).symm (he t)

theorem Begun.set {ws : List (Worker κ)} (h : Begun tr ws) (hw : ws[w]? = some x)
    (hx : ∀ t k, x = .checking t k → (∃ f, e = .sent t f) ∨ ∃ k, y = .checking t k)
    (he : ∀ t, e = .began t → ∃ k, y = .checking t k) : Begun (tr ++ [e]) (ws.set w y) := by
  have hy : y ∈ ws.set w y := List.mem_set (List.getElem?_eq_some_iff.mp hw).1 y
  intro t ht
  rcases List.mem_append.mp ht with ht | ht
  · rcases h t ht with ⟨f, hf⟩ | ⟨k, hk⟩
    · exact .inl ⟨f, List.mem_append_left _ hf⟩
    · rcases mem_set_or_eq hw hk y with hk | hk
      · rcases hx t k hk.symm with ⟨f, rfl⟩ | ⟨k, rfl⟩
        · exact .inl ⟨f, List.mem_append_right _ (List.mem_singleton_self _)⟩
        · exact .inr ⟨k, hy⟩
      · exact .inr ⟨k, hk⟩
  · obtain ⟨k, rfl⟩ := he t (List.eq_of_mem_singleton ht).symm
    exact .inr ⟨k, hy⟩

theorem Begun.step {C : Crew κ σ} (h : Begun tr p.schedule.workers) (hs : C.Step p e r) :
    Begun (tr ++ [e]) r.schedule.workers := by
  cases hs with
  | assign i w ht hw => exact h.set hw nofun nofun
  | look w hw => exact h.set hw nofun nofun
  | check w hw =>
    refine h.set hw nofun ?_
    rintro t ⟨⟩
    exact ⟨_, rfl⟩
  | move w hw hm =>
    refine h.set hw ?_ nofun
    rintro t k ⟨⟩
    exact .inr ⟨_, rfl⟩
  | send w hw ha =>
    refine h.set hw ?_ nofun
    rintro t k ⟨⟩
    exact .inl ⟨_, rfl⟩
  | release w hw => exact h.set hw nofun nofun
  | receive hc hf hm =>
    rw [Schedule.receive_eq hm]
    exact h.same nofun
  | _ => exact h.same nofun

theorem Crew.Run.not_begun {C : Crew κ σ} {s : σ} (h : C.Run (.start n files s) tr p)
    (ht : .looked t true ∈ tr) : .began t ∉ tr ∧ ∀ f, .sent t f ∉ tr := by
  have hA := (Schedule.Accounts.of_run h).places t
  have hn := List.nodup_iff_count_le_one.mp (Schedule.nodup_tasksOf files) t
  have ht := List.count_pos_iff.mpr (mem_turnedAway.mpr ht)
  simp only [Schedule.places] at hA
  have hs : ∀ f, .sent t f ∉ tr := by
    intro f hf
    have hc : 0 < ((sent tr).map Prod.fst).count t :=
      List.count_pos_iff.mpr (List.mem_map_of_mem (mem_sent.mpr hf))
    omega
  refine ⟨fun hb => ?_, hs⟩
  have hB : Begun tr p.schedule.workers :=
    h.invariant (I := fun tr p => Begun tr p.schedule.workers)
      (fun _ ht => absurd ht List.not_mem_nil) Begun.step
  rcases hB t hb with ⟨f, hf⟩ | ⟨k, hk⟩
  · exact hs f hf
  · have hu : t ∈ p.schedule.underWay := List.mem_filterMap.mpr ⟨_, hk, rfl⟩
    have hc := List.count_pos_iff.mpr hu
    omega

theorem Crew.Step.collected_eq {C : Crew κ σ} (h : C.Step p e r)
    (hl : p.schedule.collector.isLate = true) :
    r.schedule.collected = p.schedule.collected ∧ r.schedule.collector.isLate = true := by
  cases h with
  | receive hc | complete hc | desert hc | timeOut hc =>
    simp [hc, Collector.isLate] at hl
  | giveUp hc => exact ⟨rfl, rfl⟩
  | cancel hc => exact ⟨rfl, rfl⟩
  | _ => exact ⟨rfl, hl⟩

theorem Crew.Run.collected_eq {C : Crew κ σ} (h : C.Run p tr r)
    (hl : p.schedule.collector.isLate = true) :
    r.schedule.collected = p.schedule.collected := by
  suffices hr : r.schedule.collected = p.schedule.collected ∧
      r.schedule.collector.isLate = true from hr.1
  induction h with
  | refl => exact ⟨rfl, hl⟩
  | snoc h hs ih =>
    obtain ⟨hc, hl⟩ := hs.collected_eq ih.2
    exact ⟨hc.trans ih.1, hl⟩

theorem Crew.Run.collected_prefix {C : Crew κ σ} {s : σ} (h : C.Run (.start n files s) tr p)
    (he : tr = a ++ .ceiling :: b) : p.schedule.collected <+: (sent a).map Prod.snd := by
  obtain ⟨q, r, hq, hs, hr⟩ := h.split he
  have hA := Schedule.Accounts.of_run (hq.snoc hs)
  have hl := hA.ceiling.mp (List.mem_append_right _ (List.mem_singleton_self _))
  have hf := hA.findings
  rw [sent_append, show sent [.ceiling] = [] from rfl, List.append_nil] at hf
  rw [Crew.Run.collected_eq hr hl, ← hf]
  exact List.prefix_append _ _

/-- Neither the checks of a crew nor others cancel the registry. -/
structure Crew.NobodyElseCancels (C : Crew κ σ) : Prop where
  start : ∀ file s, (C.registry (C.start file s).2).map Registry.cancelled =
    (C.registry s).map Registry.cancelled
  moves : C.moves k s k' s' →
    (C.registry s').map Registry.cancelled = (C.registry s).map Registry.cancelled
  elsewhere : C.elsewhere s s' →
    (C.registry s').map Registry.cancelled = (C.registry s).map Registry.cancelled

theorem Crew.Step.cancelled {C : Crew κ σ} (hN : C.NobodyElseCancels) (h : C.Step p e r)
    {cancelled : Bool} (hp : (C.registry p.shared).map Registry.cancelled = some cancelled)
    (hd : cancelled = true ↔ p.schedule.collector = .done .ceiling) :
    ∃ cancelled, (C.registry r.shared).map Registry.cancelled = some cancelled ∧
      (cancelled = true ↔ r.schedule.collector = .done .ceiling) := by
  cases h with
  | check w hw => exact ⟨cancelled, (hN.start _ _).trans hp, hd⟩
  | move w hw hm => exact ⟨cancelled, (hN.moves hm).trans hp, hd⟩
  | elsewhere he => exact ⟨cancelled, (hN.elsewhere he).trans hp, hd⟩
  | receive hc hf hm =>
    rw [Schedule.receive_eq hm]
    exact ⟨cancelled, hp, hd⟩
  | complete hc | desert hc | timeOut hc | giveUp hc =>
    rw [hc] at hd
    exact ⟨cancelled, hp, hd.trans (iff_of_false nofun nofun)⟩
  | @cancel q s hc =>
    obtain ⟨r, hr, -⟩ := Option.map_eq_some_iff.mp hp
    refine ⟨true, ?_, iff_of_true rfl rfl⟩
    rw [C.registry_cancel, show C.registry s = some r from hr]
    rfl
  | _ => exact ⟨cancelled, hp, hd⟩

theorem Crew.Run.cancelled {C : Crew κ σ} {s : σ} {r₀ : Registry} (hN : C.NobodyElseCancels)
    (hr : C.registry s = some r₀) (hc : r₀.cancelled = false)
    (h : C.Run (.start n files s) tr p) :
    ∃ r, C.registry p.shared = some r ∧
      (r.cancelled = true ↔ p.schedule.collector = .done .ceiling) := by
  have hI := h.invariant (I := fun _ p => ∃ cancelled,
      (C.registry p.shared).map Registry.cancelled = some cancelled ∧
        (cancelled = true ↔ p.schedule.collector = .done .ceiling))
    ⟨false, by rw [Floor.start, hr, Option.map_some, hc], iff_of_false nofun nofun⟩
    fun ⟨_, hp, hd⟩ hs => hs.cancelled hN hp hd
  obtain ⟨cancelled, hp, hd⟩ := hI
  obtain ⟨r, hr, rfl⟩ := Option.map_eq_some_iff.mp hp
  exact ⟨r, hr, hd⟩

theorem Crew.Run.cancelled_mem {C : Crew κ σ} {s : σ} (h : C.Run (.start n files s) tr p)
    (hc : .cancelled ∈ tr) : p.schedule.collector = .done .ceiling := by
  refine h.invariant (I := fun tr p => .cancelled ∈ tr → p.schedule.collector = .done .ceiling)
    nofun (fun {tr q e r} hI hs hc => ?_) hc
  rcases List.mem_append.mp hc with hc | hc
  · have hq := hI hc
    cases hs with
    | receive ho | complete ho | desert ho | timeOut ho | giveUp ho =>
      rw [ho] at hq
      cases hq
    | cancel => rfl
    | _ => exact hq
  · cases List.eq_of_mem_singleton hc
    cases hs with
    | cancel => rfl

theorem Schedule.Accounts.shortfall_pos_iff {q : Schedule κ} (h : q.Accounts files tr)
    (hr : q.returned? = some b) : 0 < b.shortfall ↔ q.collector = .done .ceiling := by
  obtain rfl := batch_of_returned hr
  have hf : 0 < q.batch.shortfall ↔ q.full = false := by
    simp only [batch, Batch.shortfall, Batch.shortfallOf, full, decide_eq_false_iff_not]
    omega
  rw [hf]
  cases hc : q.collector with
  | done e =>
    cases e with
    | complete => simp [h.complete hc]
    | ceiling => simp [h.short (by rw [hc]; rfl)]
    | deserted => exact absurd hc h.not_deserted
  | _ => simp only [returned?, hc, reduceCtorEq] at hr

/-- Once the ceiling of a batch has passed, no check begins that was not let through before, no
finding that is still sent counts, and no command starts on the registry.  If nobody else cancels
the registry, it is cancelled exactly if the batch that is returned has findings missing. -/
theorem Crew.ceiling_cuts_off (C : Crew κ σ) (hN : C.NobodyElseCancels) (n : Nat)
    (files : List String) {s : σ} (hr : C.registry s = some r₀) (hc : r₀.cancelled = false)
    (h : C.Run (.start n files s) tr p) :
    (∀ a b t flag, tr = a ++ .abandoned :: b → .looked t flag ∈ b →
      flag = true ∧ .began t ∉ tr ∧ ∀ f, .sent t f ∉ tr) ∧
    (∀ a b out, tr = a ++ .ceiling :: b → p.schedule.returned? = some out →
      out.findings <+: (sent a).map Prod.snd) ∧
    (.cancelled ∈ tr → ∃ r, C.registry p.shared = some r ∧
      ∀ {τ : Type} (sys : System τ) (c : Command) (x : τ),
        Run.step sys c .admission r x = (.ended (.error (.cancelled c.program)), r, x)) ∧
    (∀ out, p.schedule.returned? = some out →
      ∃ r, C.registry p.shared = some r ∧ (r.cancelled = true ↔ 0 < out.shortfall)) := by
  have hA := Schedule.Accounts.of_run h
  obtain ⟨r, hp, hd⟩ := h.cancelled hN hr hc
  refine ⟨?_, ?_, ?_, ?_⟩
  · intro a b t flag he hl
    obtain rfl := h.looked he hl
    refine ⟨rfl, h.not_begun ?_⟩
    rw [he]
    exact List.mem_append_right _ (List.mem_cons_of_mem _ hl)
  · intro a b out he ho
    obtain rfl := Schedule.batch_of_returned ho
    exact h.collected_prefix he
  · intro hm
    refine ⟨r, hp, fun sys c x => ?_⟩
    simp only [Run.step, hd.mpr (h.cancelled_mem hm), if_true]
  · intro out ho
    exact ⟨r, hp, hd.trans (hA.shortfall_pos_iff ho).symm⟩

theorem Crew.ofCheck_nobodyElseCancels (check : String → Answer) :
    (Crew.ofCheck check).NobodyElseCancels where
  start _ _ := rfl
  moves := False.elim
  elsewhere := False.elim

theorem Crew.ceiling_cuts_off_two :
    ∃ (check : String → Answer) (tr : List Event) (p : Floor String (Option Registry)) (out : Batch)
      (r : Registry),
      (Crew.ofCheck check).Run (.start 2 ["a", "b"] (some {})) tr p ∧
      .looked ⟨1, "b"⟩ true ∈ tr ∧ .began ⟨1, "b"⟩ ∉ tr ∧
      .sent ⟨0, "a"⟩ (found check "a") ∈ tr ∧ p.schedule.returned? = some out ∧
      out.findings <+: [] ∧ p.shared = some r ∧ (r.cancelled = true ↔ 0 < out.shortfall) := by
  let check (file : String) : Answer := .ok ⟨file, .ok, "imports", none⟩
  have h : (Crew.ofCheck check).Run (.start 2 ["a", "b"] (some {})) [] _ := .refl
  have h := ((h.snoc (.assign 0 0 rfl rfl)).snoc (.look 0 rfl)).snoc (.check 0 rfl)
  have h := (h.snoc (.timeOut rfl rfl)).snoc (.giveUp rfl)
  have h := (h.snoc (.assign 0 1 rfl rfl)).snoc (.look 1 rfl)
  have h := (h.snoc (.send 0 rfl rfl)).snoc (.cancel rfl)
  let a : List Event :=
    [.assigned ⟨0, "a"⟩, .looked ⟨0, "a"⟩ false, .began ⟨0, "a"⟩, .ceiling]
  let b : List Event :=
    [.assigned ⟨1, "b"⟩, .looked ⟨1, "b"⟩ true, .sent ⟨0, "a"⟩ (found check "a"), .cancelled]
  have h : (Crew.ofCheck check).Run (.start 2 ["a", "b"] (some {})) (a ++ .abandoned :: b) _ := h
  obtain ⟨hl, hf, -, hr⟩ := ceiling_cuts_off (Crew.ofCheck check)
    (ofCheck_nobodyElseCancels check) 2 ["a", "b"] rfl rfl h
  obtain ⟨-, hb, -⟩ := hl a b ⟨1, "b"⟩ true rfl (by simp [b])
  obtain ⟨r, hp, hr⟩ := hr _ rfl
  exact ⟨check, _, _, _, r, h, by simp [a, b], hb, by simp [a, b], rfl,
    hf (a.take 3) (.abandoned :: b) _ rfl rfl, hp, hr⟩

end Triage
