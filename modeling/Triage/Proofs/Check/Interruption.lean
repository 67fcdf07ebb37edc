import Triage.Proofs.Check.Decision

set_option autoImplicit true

namespace Triage.Check

open Run (Sight Course)

variable {sys : System σ} {settings : Settings} {path : String} {a b : List Sight}

theorem Concludes.of_no_verdict (h : Concludes settings path a b f) (hr : .registered ∉ b) :
    f.status = .processError ∨ .ended (.exited 0) ∈ a ∧ f = .ok path := by
  cases h with
  | unnamed | unlaunched | undecided => exact .inl rfl
  | passed h ha ho => exact .inr ⟨(ended_mem_iff ha).mpr ho, rfl⟩
  | decided h ha ho hb => exact absurd hb.registered_mem_of_ok hr

theorem not_registered_of_cancelled (sys : System σ) (c : Command) (phase : Run.Phase)
    {r : Registry} (s : σ) (hc : r.cancelled = true) :
    .registered ∉ Run.sight sys c phase r s := by
  have hs := Run.step_cases sys c phase r s
  generalize Run.step sys c phase r s = x at hs
  generalize Run.sight sys c phase r s = l at hs ⊢
  cases hs with
  | register h =>
    rw [Registry.register?_eq_none.mpr hc] at h
    cases h
  | _ => simp

theorem Step.cancelled (h : Step sys settings p e q) (hc : p.registry.cancelled = true) :
    q.registry.cancelled = true ∧ .registered ∉ e.ofParse := by
  cases h with
  | @own _ k r s h =>
    refine ⟨?_, ?_⟩
    · have hs := step_cancelled sys settings p.stage p.registry p.system
      rw [h] at hs
      exact hs.trans hc
    · unfold notice
      cases p.stage with
      | parse path o run => exact not_registered_of_cancelled sys _ _ _ hc
      | _ => exact List.not_mem_nil
  | cancel h =>
    cases h
    exact ⟨rfl, List.not_mem_nil⟩
  | elsewhere h => exact ⟨h.trans hc, List.not_mem_nil⟩

theorem History.cancelled (h : History sys settings p tr q) (hc : p.registry.cancelled = true) :
    q.registry.cancelled = true ∧ .registered ∉ parseSights tr := by
  refine h.invariant (I := fun tr q => q.registry.cancelled = true ∧ .registered ∉ parseSights tr)
    ⟨hc, List.not_mem_nil⟩ fun ⟨hq, hr⟩ hs => ?_
  obtain ⟨hq, hn⟩ := hs.cancelled hq
  rw [parseSights_snoc, List.mem_append, not_or]
  exact ⟨hq, hr, hn⟩

theorem Step.of_cancelled (h : Step sys settings p e q) (he : e = .cancelled killed) :
    q.stage = p.stage ∧ q.registry.cancelled = true := by
  cases h with
  | own h =>
    unfold notice at he
    split at he <;> cases he
  | cancel h =>
    cases h
    exact ⟨rfl, rfl⟩
  | elsewhere h => cases he

/-- The parse check has no child, and will have none if the registry is cancelled. -/
def Stage.Childless : Stage → Prop
  | .parse _ _ run => run.phase = .admission ∨ ∃ x, run.phase = .ended x
  | _ => True

theorem afterPrimary_childless (settings : Settings) (path : String)
    (x : Except Command.LaunchFault Outcome) : (afterPrimary settings path x).Childless := by
  unfold afterPrimary
  split
  · trivial
  · split
    · trivial
    · exact .inl rfl

theorem step_childless (sys : System σ) (settings : Settings) {p : Moment σ}
    (h : p.stage.Childless) (hc : p.registry.cancelled = true) :
    (step sys settings p.stage p.registry p.system).1.Childless ∧
      ∀ child, .launched child ∉ (notice sys p).ofParse := by
  obtain ⟨stage, reg, s⟩ := p
  cases stage with
  | primary q run =>
    refine ⟨?_, fun _ => List.not_mem_nil⟩
    simp only [step]
    split
    · exact afterPrimary_childless settings q _
    · trivial
    · trivial
  | parse q o run =>
    rcases h with hp | ⟨x, hp⟩
    · simp only [step, notice, Notice.ofParse, hp, Run.step, Run.sight,
        show reg.cancelled = true from hc, if_true]
      exact ⟨.inr ⟨_, rfl⟩, fun child => by simp⟩
    · simp only [step, notice, Notice.ofParse, hp, Run.sight]
      exact ⟨trivial, fun _ => List.not_mem_nil⟩
  | done f => exact ⟨trivial, fun _ => List.not_mem_nil⟩
  | crashed => exact ⟨trivial, fun _ => List.not_mem_nil⟩

theorem Step.childless (h : Step sys settings p e q) (hp : p.stage.Childless)
    (hc : p.registry.cancelled = true) :
    q.stage.Childless ∧ ∀ child, .launched child ∉ e.ofParse := by
  cases h with
  | own h =>
    have hs := step_childless sys settings hp hc
    rwa [h] at hs
  | cancel h => exact ⟨hp, fun _ => List.not_mem_nil⟩
  | elsewhere h => exact ⟨hp, fun _ => List.not_mem_nil⟩

theorem History.childless (h : History sys settings p tr q) (hp : p.stage.Childless)
    (hc : p.registry.cancelled = true) :
    q.stage.Childless ∧ ∀ child, .launched child ∉ parseSights tr := by
  obtain ⟨hq, -, hl⟩ := h.invariant (I := fun tr q => q.stage.Childless ∧
    q.registry.cancelled = true ∧ ∀ child, .launched child ∉ parseSights tr)
    ⟨hp, hc, fun _ => List.not_mem_nil⟩ fun ⟨hq, hc, hl⟩ hs => by
      obtain ⟨hq', hn⟩ := hs.childless hq hc
      refine ⟨hq', (hs.cancelled hc).1, fun child => ?_⟩
      rw [parseSights_snoc, List.mem_append, not_or]
      exact ⟨hl child, hn child⟩
  exact ⟨hq, hl⟩

/-- Once its registry is cancelled, a check whose parse check has no child yet comes to no verdict,
whatever signal its primary check dies of.  If that one still runs then nothing else is launched. -/
theorem no_verdict_once_cancelled (sys : System σ) (settings : Settings) {here path : String}
    (hp : path ≠ "") {r : Registry} {s : σ} {before after : List Notice} {killed : List Pid}
    {q q' p : Moment σ} (h : History sys settings ⟨start settings here path, r, s⟩ before q)
    (hk : Step sys settings q (.cancelled killed) q') (h' : History sys settings q' after p)
    (hr : .registered ∉ parseSights before)
    (hc : InTime settings (before ++ .cancelled killed :: after)) :
    (p.stage.answer? = none → p.stage.Waits sys p.system ∨
      (step sys settings p.stage p.registry p.system).1.due < p.stage.due) ∧
    (∀ x, p.stage.answer? = some x → ∃ full f, Path.absolute? here path = some full ∧ x = .ok f ∧
      (f.status = .processError ∨
        .ended (.exited 0) ∈ primarySights (before ++ .cancelled killed :: after) ∧
          f = .ok full)) ∧
    ∀ file run, q.stage = .primary file run →
      ∀ child, .launched child ∉ parseSights (before ++ .cancelled killed :: after) := by
  obtain ⟨full, hf⟩ := exists_absolute? here hp
  have hall : History sys settings ⟨start settings here path, r, s⟩
      (before ++ .cancelled killed :: after) p := h.append ((Trace.single hk).append h')
  have hb : parseSights (before ++ .cancelled killed :: after) =
      parseSights before ++ parseSights after := by
    simp [parseSights, Notice.ofParse]
  obtain ⟨hs', hq⟩ := hk.of_cancelled rfl
  refine ⟨fun ha => or_iff_not_imp_left.mpr fun hw => step_due hw ha, fun x ha => ?_, ?_⟩
  · obtain ⟨f, rfl, hd⟩ := hall.concludes hf hc ha
    refine ⟨full, f, hf, rfl, hd.of_no_verdict ?_⟩
    rw [hb, List.mem_append, not_or]
    exact ⟨hr, (h'.cancelled hq).2⟩
  · intro file run hs child
    -- While the primary check runs the parse check has learnt nothing.
    have hn : parseSights before = [] := by
      have hpast := h.past hf
      rw [hs] at hpast
      exact hpast.2.2.2
    have hi : q'.stage.Childless := by
      rw [hs', hs]
      trivial
    rw [hb, hn, List.nil_append]
    exact (h'.childless hi hq).2 child

def sleeper : System Bool where
  now _ := 0
  launch _ s := (.ok 1, s)
  ending? _ killed := .ok (if killed then some (.killed 9) else none)
  reap _ s := s
  killGroup _ _ := true
  silent _ _ := true
  recording _ _ := {}

theorem no_verdict_of_killed_sleeper : ∃ before q q' after p f,
    History sleeper { root := "/" } ⟨start { root := "/" } "/" "a.py", {}, false⟩ before q ∧
    Step sleeper { root := "/" } q (.cancelled [1]) q' ∧
    History sleeper { root := "/" } q' after p ∧
    .ended (.killed 9) ∈ primarySights (before ++ .cancelled [1] :: after) ∧
    p.stage.answer? = some (.ok f) ∧ f.status = .processError ∧
    ∀ child, .launched child ∉ parseSights (before ++ .cancelled [1] :: after) := by
  have h := history_alone sleeper { root := "/" } 4 ⟨start { root := "/" } "/" "a.py", {}, false⟩
  generalize he : alone sleeper { root := "/" } 4 ⟨start { root := "/" } "/" "a.py", {}, false⟩ = e
    at h
  have hk : Step sleeper { root := "/" } e.2 (.cancelled e.2.registry.live)
      ⟨e.2.stage, e.2.registry.cancel, true⟩ := by
    subst he
    exact .cancel rfl
  have h' := history_alone sleeper { root := "/" } 6 ⟨e.2.stage, e.2.registry.cancel, true⟩
  generalize he' : alone sleeper { root := "/" } 6 ⟨e.2.stage, e.2.registry.cancel, true⟩ = e' at h'
  have hl : e.2.registry.live = [1] := by
    subst he
    decide
  rw [hl] at hk
  have ha : primarySights (e.1 ++ .cancelled [1] :: e'.1) =
      [.launched 1, .registered, .started 0, .ended (.killed 9), .printed {}] := by
    subst he he'
    decide
  have hb : parseSights (e.1 ++ .cancelled [1] :: e'.1) = [.barred] := by
    subst he he'
    decide
  have hr : .registered ∉ parseSights e.1 := by
    subst he
    decide
  have hx : e'.2.stage.answer?.isSome = true := by
    subst he he'
    decide
  have hs : ∃ file run, e.2.stage = .primary file run := by
    subst he
    exact ⟨_, _, rfl⟩
  have hc : InTime { root := "/" } (e.1 ++ .cancelled [1] :: e'.1) := by
    rw [InTime, ha, hb]
    rintro ⟨now, d, -, ⟨hd, -⟩ | ⟨-, hm⟩⟩
    · cases hd
    · simp at hm
  obtain ⟨x, hx⟩ := Option.isSome_iff_exists.mp hx
  obtain ⟨-, hv, hn⟩ :=
    no_verdict_once_cancelled sleeper { root := "/" } (by decide) h hk h' hr hc
  obtain ⟨full, f, -, rfl, hf⟩ := hv x hx
  have hp : .ended (.exited 0) ∉ primarySights (e.1 ++ .cancelled [1] :: e'.1) := by simp [ha]
  have hf : f.status = .processError := hf.resolve_right fun h => hp h.1
  obtain ⟨file, run, hs⟩ := hs
  exact ⟨e.1, e.2, _, e'.1, e'.2, f, h, hk, h', by simp [ha], hx, hf, hn file run hs⟩

end Triage.Check
