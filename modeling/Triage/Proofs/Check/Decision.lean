import Triage.Proofs.Check.History

set_option autoImplicit true

namespace Triage.Check

open Run (Sight Course)

/-- The child ended in time, but not well. -/
def FailedInTime (l : List Sight) : Prop := ∃ e, e ≠ .exited 0 ∧ .ended e ∈ l

def Failed (l : List Sight) : Prop := FailedInTime l ∨ .overdue ∈ l

def Thwarted (l : List Sight) : Prop := .barred ∈ l ∨ ∃ f, .unlaunched f ∈ l ∨ .lost f ∈ l

/-- The verdict is `v`, by how the child ended and by what it printed. -/
def Reads (l : List Sight) (v : Verdict) : Prop :=
  ∃ ending r, .ofEnding ending ∈ l ∧ .printed r ∈ l ∧
    Verdict.ofOutcome (Run.outcomeOf r ending) = v

section Sights

variable {c : Command} {l : List Sight} {o : Outcome}

theorem not_failed_of_error (h : Course c l (.error f)) :
    ¬Failed l ∧ .ended (.exited 0) ∉ l ∧ ∀ v, ¬Reads l v := by
  refine ⟨?_, h.not_mem_of_error (some (.exited 0)), ?_⟩
  · rintro (⟨e, -, he⟩ | ho)
    · exact h.not_mem_of_error (some e) he
    · exact h.not_mem_of_error none ho
  · rintro v ⟨ending, r, he, -⟩
    exact h.not_mem_of_error ending he

theorem ended_mem_iff (h : Course c l (.ok o)) : .ended (.exited 0) ∈ l ↔ o.success = true := by
  obtain ⟨child, now, ending, r, rfl, rfl⟩ := h.of_ok
  rw [Run.success_outcomeOf]
  cases ending <;> simp [Sight.ofEnding, eq_comm]

theorem overdue_mem_iff (h : Course c l (.ok o)) : .overdue ∈ l ↔ o.timedOut = true := by
  obtain ⟨child, now, ending, r, rfl, rfl⟩ := h.of_ok
  rw [Run.timedOut_outcomeOf]
  cases ending <;> simp [Sight.ofEnding]

theorem failedInTime_iff (h : Course c l (.ok o)) :
    FailedInTime l ↔ o.success = false ∧ o.timedOut = false := by
  obtain ⟨child, now, ending, r, rfl, rfl⟩ := h.of_ok
  rw [← Bool.not_eq_true, Run.success_outcomeOf, ← Bool.not_eq_true, Run.timedOut_outcomeOf]
  cases ending <;> simp [FailedInTime, Sight.ofEnding]

theorem failed_iff (h : Course c l (.ok o)) : Failed l ↔ o.success = false := by
  obtain ⟨child, now, ending, r, rfl, rfl⟩ := h.of_ok
  rw [← Bool.not_eq_true, Run.success_outcomeOf]
  cases ending <;> simp [Failed, FailedInTime, Sight.ofEnding]

theorem reads_iff (h : Course c l (.ok o)) : Reads l v ↔ Verdict.ofOutcome o = v := by
  obtain ⟨child, now, ending, r, rfl, rfl⟩ := h.of_ok
  constructor
  · rintro ⟨ending', r', he, hr, rfl⟩
    have hr : r' = r := by
      cases ending <;> simpa [Sight.ofEnding] using hr
    have he : ending' = ending := by
      rcases ending with _ | e <;> rcases ending' with _ | e' <;> simp_all [Sight.ofEnding]
    rw [hr, he]
  · exact fun hv => ⟨ending, r, by simp, by simp, hv⟩

theorem not_thwarted (h : Course c l (.ok o)) : ¬Thwarted l := by
  obtain ⟨child, now, ending, r, rfl, rfl⟩ := h.of_ok
  cases ending <;> simp [Thwarted, Sight.ofEnding]

end Sights

theorem primaryCommand?_eq_none {settings : Settings} {path : String} :
    primaryCommand? settings path = none ↔
      settings.mode = .import ∧
        ModuleName.ofPath? settings.root path settings.extension = none := by
  rw [primaryCommand?, Option.map_eq_none_iff, modeCommand?]
  cases settings.mode <;> simp

theorem classifyValid_status (settings : Settings) (o : Outcome) :
    ((classifyValid settings o).1 = .ok ↔ settings.policy = .pass) ∧
    ((classifyValid settings o).1 = .okWithWarning ↔ settings.policy = .warn) ∧
    (classifyValid settings o).1 ≠ .syntaxError := by
  unfold classifyValid
  cases settings.policy with
  | pass => simp
  | warn => simp
  | classify => cases hm : missingModuleLine? o.combined.toList <;> simp [hm]

theorem classify_status_of_timedOut (settings : Settings) (path : String) (h : o.timedOut = true) :
    (classify settings path o .valid).status = .runtimeFailure := by
  simp only [classify, h, if_true]
  rfl

theorem classify_status_of_not_timedOut (settings : Settings) (path : String)
    (h : o.timedOut = false) :
    (classify settings path o .valid).status = (classifyValid settings o).1 := by
  simp only [classify, h, Bool.false_eq_true, if_false]
  rfl

/-- How the status of a finding is decided by what the two runs of a check have learnt. -/
structure Decided (settings : Settings) (path : String) (a b : List Sight) (f : Finding) : Prop where
  ok : f.status = .ok ↔
    .ended (.exited 0) ∈ a ∨ FailedInTime a ∧ Reads b .valid ∧ settings.policy = .pass
  okWithWarning : f.status = .okWithWarning ↔
    FailedInTime a ∧ Reads b .valid ∧ settings.policy = .warn
  syntaxError : f.status = .syntaxError ↔ Failed a ∧ ∃ description, Reads b (.defect description)
  runtimeFailure : .overdue ∈ a → Reads b .valid → f.status = .runtimeFailure
  unnamed : settings.mode = .import →
    ModuleName.ofPath? settings.root path settings.extension = none → f.status = .processError
  thwarted : Thwarted a ∨ Thwarted b → f.status = .processError
  unreadable : ∀ reason, Reads b (.unreadable reason) → f.status = .processError
  inconclusive : ∀ doubt, Reads b (.inconclusive doubt) → f.status = .processError
  tried : b ≠ [] ↔ Failed a

variable {settings : Settings} {path : String} {a b : List Sight}

theorem Decided.of_processError (hf : f.status = .processError) (he : .ended (.exited 0) ∉ a)
    (hr : ∀ v, ¬Reads b v) (ht : b ≠ [] ↔ Failed a) : Decided settings path a b f where
  ok := by simp [hf, he, hr]
  okWithWarning := by simp [hf, hr]
  syntaxError := by simp [hf, hr]
  runtimeFailure _ hv := absurd hv (hr _)
  unnamed _ _ := hf
  thwarted _ := hf
  unreadable _ _ := hf
  inconclusive _ _ := hf
  tried := ht

theorem not_reads_nil (v : Verdict) : ¬Reads [] v := by
  rintro ⟨ending, r, he, -⟩
  cases he

theorem decided_of_classify (hn : primaryCommand? settings path ≠ none) (ha : Course c a (.ok o))
    (ho : o.success = false) (hb : Course c' b (.ok o')) :
    Decided settings path a b (classify settings path o (.ofOutcome o')) := by
  have hf : Failed a := (failed_iff ha).mpr ho
  have he : .ended (.exited 0) ∉ a := by simp [ended_mem_iff ha, ho]
  have ht : ¬Thwarted a ∧ ¬Thwarted b := ⟨not_thwarted ha, not_thwarted hb⟩
  have hu : settings.mode = .import →
      ¬ModuleName.ofPath? settings.root path settings.extension = none :=
    fun hm hp => hn (primaryCommand?_eq_none.mpr ⟨hm, hp⟩)
  have hr (v : Verdict) : Reads b v ↔ Verdict.ofOutcome o' = v := reads_iff hb
  -- Only a file that parses is told by how its primary check failed.
  cases hv : Verdict.ofOutcome o' with
  | defect description =>
    have hs : (classify settings path o (.defect description)).status = .syntaxError := rfl
    simp only [hv] at hr
    constructor <;> simp [hs, he, hr, hf, ht, hb.ne_nil]
    exact hu
  | unreadable reason =>
    have hs : (classify settings path o (.unreadable reason)).status = .processError := rfl
    simp only [hv] at hr
    constructor <;> simp [hs, he, hr, hf, hb.ne_nil]
  | inconclusive doubt =>
    have hs : (classify settings path o (.inconclusive doubt)).status = .processError := rfl
    simp only [hv] at hr
    constructor <;> simp [hs, he, hr, hf, hb.ne_nil]
  | valid =>
    simp only [hv] at hr
    cases hl : o.timedOut with
    | true =>
      have hs := classify_status_of_timedOut settings path hl
      have hi : ¬FailedInTime a := by simp [failedInTime_iff ha, hl]
      constructor <;> simp [hs, he, hr, hf, hi, ht, hb.ne_nil]
      exact hu
    | false =>
      have hs := classify_status_of_not_timedOut settings path hl
      have hi : FailedInTime a := (failedInTime_iff ha).mpr ⟨ho, hl⟩
      have hd : .overdue ∉ a := by simp [overdue_mem_iff ha, hl]
      obtain ⟨hp, hw, hx⟩ := classifyValid_status settings o
      constructor <;> simp [hs, he, hr, hf, hi, hd, ht, hp, hw, hx, hb.ne_nil]
      exact fun hm h => absurd h (hu hm)

theorem Concludes.decided_by (h : Concludes settings path a b f) : Decided settings path a b f := by
  cases h with
  | unnamed h =>
    refine .of_processError rfl List.not_mem_nil not_reads_nil (iff_of_false (· rfl) ?_)
    rintro (⟨e, -, he⟩ | ho)
    · cases he
    · cases ho
  | unlaunched h ha =>
    obtain ⟨hf, he, -⟩ := not_failed_of_error ha
    exact .of_processError rfl he not_reads_nil (iff_of_false (· rfl) hf)
  | @passed c a o h ha ho =>
    have hs : (Finding.ok path).status = .ok := rfl
    have he : .ended (.exited 0) ∈ a := (ended_mem_iff ha).mpr ho
    have hf : ¬Failed a := by simp [failed_iff ha, ho]
    have hd : .overdue ∉ a := fun h => hf (.inr h)
    have ht : ¬Thwarted a ∧ ¬Thwarted [] := ⟨not_thwarted ha, by simp [Thwarted]⟩
    have hu : settings.mode = .import →
        ¬ModuleName.ofPath? settings.root path settings.extension = none := by
      intro hm hp
      rw [primaryCommand?_eq_none.mpr ⟨hm, hp⟩] at h
      cases h
    constructor <;> simp [hs, he, hf, hd, ht, not_reads_nil]
    exact hu
  | undecided h ha ho hb =>
    obtain ⟨-, -, hr⟩ := not_failed_of_error hb
    refine .of_processError rfl ?_ hr (iff_of_true hb.ne_nil ((failed_iff ha).mpr ho))
    simp [ended_mem_iff ha, ho]
  | decided h ha ho hb => exact decided_of_classify (by simp [h]) ha ho hb

/-- The policy counts only if the file parses and the primary check failed in time. -/
theorem classify_policy (settings : Settings) (path : String) (o : Outcome) (v : Verdict)
    (policy : Policy) (h : v = .valid → o.timedOut = true) :
    classify { settings with policy } path o v = classify settings path o v := by
  cases v with
  | valid => simp only [classify, h rfl, if_true]; rfl
  | _ => rfl

theorem course_unique {policy : Policy} (h : primaryCommand? settings path = some c)
    (h' : primaryCommand? { settings with policy } path = some c') (ha : Course c a x)
    (ha' : Course c' a y) : x = y := by
  have hc : c = c' := Option.some.inj (h.symm.trans h')
  exact ha.unique (hc ▸ ha')

theorem Concludes.same_of_policy (h : Concludes settings path a b f) {policy : Policy}
    (h' : Concludes { settings with policy } path a b f')
    (hn : ¬(FailedInTime a ∧ Reads b .valid)) : f' = f := by
  -- What was learnt tells which of the five it is, and what came of it.
  cases h with
  | unnamed h =>
    cases h' with
    | unnamed => rfl
    | unlaunched _ ha | passed _ ha | undecided _ ha | decided _ ha => exact absurd rfl ha.ne_nil
  | unlaunched h ha =>
    cases h' with
    | unnamed => exact absurd rfl ha.ne_nil
    | unlaunched h' ha' =>
      cases course_unique h h' ha ha'
      rfl
    | passed h' ha' => cases course_unique h h' ha ha'
    | undecided _ _ _ hb' | decided _ _ _ hb' => exact absurd rfl hb'.ne_nil
  | passed h ha ho =>
    cases h' with
    | unnamed => exact absurd rfl ha.ne_nil
    | unlaunched h' ha' => cases course_unique h h' ha ha'
    | passed => rfl
    | undecided _ _ _ hb' | decided _ _ _ hb' => exact absurd rfl hb'.ne_nil
  | undecided h ha ho hb =>
    cases h' with
    | unnamed | unlaunched | passed => exact absurd rfl hb.ne_nil
    | undecided h' ha' ho' hb' =>
      cases course_unique h h' ha ha'
      cases hb.unique hb'
      rfl
    | decided h' ha' ho' hb' => cases hb.unique hb'
  | decided h ha ho hb =>
    cases h' with
    | unnamed | unlaunched | passed => exact absurd rfl hb.ne_nil
    | undecided h' ha' ho' hb' => cases hb.unique hb'
    | decided h' ha' ho' hb' =>
      cases course_unique h h' ha ha'
      cases hb.unique hb'
      refine classify_policy settings path _ _ policy fun hv => ?_
      rw [← Bool.not_eq_false]
      exact fun hl => hn ⟨(failedInTime_iff ha).mpr ⟨ho, hl⟩, (reads_iff hb).mpr hv⟩

def Stage.Like (k k' : Stage) : Prop := k' = k ∨ ∃ f f', k = .done f ∧ k' = .done f'

theorem Stage.Like.answer? {k k' : Stage} (h : k.Like k') (ha : k.answer? = some x) :
    ∃ x', k'.answer? = some x' := by
  obtain rfl | ⟨f, f', rfl, rfl⟩ := h
  · exact ⟨x, ha⟩
  · exact ⟨.ok f', rfl⟩

variable {sys : System σ}

theorem step_like (sys : System σ) (settings : Settings) (policy : Policy) (k : Stage)
    (r : Registry) (s : σ) : ∃ k', step sys { settings with policy } k r s =
      (k', (step sys settings k r s).2) ∧ (step sys settings k r s).1.Like k' := by
  cases k with
  | primary path run => exact ⟨_, rfl, .inl rfl⟩
  | parse path o run =>
    cases hp : run.phase with
    | ended result =>
      simp only [step, hp]
      exact ⟨_, rfl, .inr ⟨_, _, rfl, rfl⟩⟩
    | _ =>
      simp only [step, hp]
      exact ⟨_, rfl, .inl rfl⟩
  | done f => exact ⟨_, rfl, .inl rfl⟩
  | crashed => exact ⟨_, rfl, .inl rfl⟩

theorem Step.like (h : Step sys settings p e q) (policy : Policy) (hk : p.stage.Like k) :
    ∃ k', Step sys { settings with policy } ⟨k, p.registry, p.system⟩ e
      ⟨k', q.registry, q.system⟩ ∧ q.stage.Like k' := by
  cases h with
  | @own _ l r s h =>
    obtain ⟨stage, reg, t⟩ := p
    obtain rfl | ⟨f, f', rfl, rfl⟩ := hk
    · obtain ⟨k', hk', hl⟩ := step_like sys settings policy k reg t
      simp only [h] at hk' hl
      exact ⟨k', .own hk', hl⟩
    · cases h
      exact ⟨.done f', .own (p := ⟨.done f', reg, t⟩) rfl, .inr ⟨f, f', rfl, rfl⟩⟩
  | cancel h => exact ⟨k, .cancel h, hk⟩
  | elsewhere h => exact ⟨k, .elsewhere h, hk⟩

theorem History.like (h : History sys settings p tr q) (policy : Policy) :
    ∃ k, History sys { settings with policy } p tr ⟨k, q.registry, q.system⟩ ∧ q.stage.Like k := by
  induction h with
  | refl => exact ⟨p.stage, .refl, .inl rfl⟩
  | snoc _ hs ih =>
    obtain ⟨k, hk, hl⟩ := ih
    obtain ⟨k', hs', hl'⟩ := hs.like policy hl
    exact ⟨k', .snoc hk hs', hl'⟩

/-- The clock can hold the deadlines of both checks. -/
def InTime (settings : Settings) (tr : List Notice) : Prop :=
  ¬Overruns settings (primarySights tr) (parseSights tr)

theorem exists_absolute? (here : String) {path : String} (hp : path ≠ "") :
    ∃ full, Path.absolute? here path = some full := by
  unfold Path.absolute?
  split
  next h => exact absurd (String.isEmpty_iff.mp h) hp
  · exact ⟨_, rfl⟩

theorem History.concludes {here full : String} (hp : Path.absolute? here path = some full)
    (h : History sys settings ⟨start settings here path, r, s⟩ tr p)
    (hc : InTime settings tr) (ha : p.stage.answer? = some x) :
    ∃ f, x = .ok f ∧ Concludes settings full (primarySights tr) (parseSights tr) f := by
  have hq := h.past hp
  cases hs : p.stage with
  | done f =>
    rw [hs] at ha hq
    cases ha
    exact ⟨f, rfl, hq⟩
  | crashed =>
    rw [hs] at hq
    exact absurd hq hc
  | primary _ _ | parse _ _ _ =>
    rw [hs] at ha
    cases ha

theorem Decided.passing_iff (h : Decided settings path a b f) : f.status.passing = true ↔
    .ended (.exited 0) ∈ a ∨ FailedInTime a ∧ Reads b .valid ∧ settings.policy ≠ .classify := by
  have hs : f.status.passing = true ↔ f.status = .ok ∨ f.status = .okWithWarning := by
    cases f.status <;> decide
  have hc : settings.policy ≠ .classify ↔ settings.policy = .pass ∨ settings.policy = .warn := by
    cases settings.policy <;> decide
  rw [hs, h.ok, h.okWithWarning, hc, or_assoc, ← and_or_left, ← and_or_left]

/-- The check of a file, in any order of its steps with what others do, comes to an end if its
children do.  What it finds is decided by how they ended and what they printed, and by the policy
only where a file that parses failed in time. -/
theorem status_by_sights (sys : System σ) (settings : Settings) {here path : String}
    (hp : path ≠ "") {r : Registry} {s : σ} {tr : List Notice} {p : Moment σ}
    (h : History sys settings ⟨start settings here path, r, s⟩ tr p) (hc : InTime settings tr) :
    (p.stage.answer? = none → p.stage.Waits sys p.system ∨
      (step sys settings p.stage p.registry p.system).1.due < p.stage.due) ∧
    ∀ x, p.stage.answer? = some x → ∃ full f, Path.absolute? here path = some full ∧ x = .ok f ∧
      Decided settings full (primarySights tr) (parseSights tr) f ∧
      (f.status.passing = true ↔ .ended (.exited 0) ∈ primarySights tr ∨
        FailedInTime (primarySights tr) ∧ Reads (parseSights tr) .valid ∧
          settings.policy ≠ .classify) ∧
      ∀ policy,
        (∃ q, History sys { settings with policy } ⟨start { settings with policy } here path, r, s⟩
          tr q ∧ q.registry = p.registry ∧ q.system = p.system ∧
          ∃ y, q.stage.answer? = some y) ∧
        ∀ tr' q y, History sys { settings with policy }
            ⟨start { settings with policy } here path, r, s⟩ tr' q →
          primarySights tr' = primarySights tr → parseSights tr' = parseSights tr →
          q.stage.answer? = some y →
          ¬(FailedInTime (primarySights tr) ∧ Reads (parseSights tr) .valid) → y = x := by
  refine ⟨fun ha => or_iff_not_imp_left.mpr fun hw => step_due hw ha, fun x ha => ?_⟩
  obtain ⟨full, hf⟩ := exists_absolute? here hp
  obtain ⟨f, rfl, hd⟩ := h.concludes hf hc ha
  refine ⟨full, f, hf, rfl, hd.decided_by, hd.decided_by.passing_iff, fun policy => ⟨?_, ?_⟩⟩
  · obtain ⟨k, hk, hl⟩ := h.like policy
    exact ⟨_, hk, rfl, rfl, hl.answer? ha⟩
  · intro tr' q y h' hp' hb' hy hn
    have hc' : InTime { settings with policy } tr' := by
      rw [InTime, hp', hb']
      exact hc
    obtain ⟨f', rfl, hd'⟩ := h'.concludes hf hc' hy
    rw [hp', hb'] at hd'
    exact congrArg _ (hd.same_of_policy hd' hn)

/-- Every child exits with 1 and prints that its file parses. -/
def exitOne : System Unit where
  now _ := 0
  launch _ s := (.ok 1, s)
  ending? _ _ := .ok (some (.exited 1))
  reap _ s := s
  killGroup _ s := s
  silent _ _ := true
  recording _ _ := { output := [Text.Utf8.encode Verdict.validSign] }

def exitOneSights : List Sight :=
  [.launched 1, .registered, .started 0, .ended (.exited 1), .printed (exitOne.recording 1 ())]

theorem status_by_sights_of_exitOne :
    ∃ tr p f, History exitOne { root := "/" } ⟨start { root := "/" } "/" "a.py", {}, ()⟩ tr p ∧
      InTime { root := "/" } tr ∧ p.stage.answer? = some (.ok f) ∧ f.status = .okWithWarning := by
  have h := history_alone exitOne { root := "/" } 16 ⟨start { root := "/" } "/" "a.py", {}, ()⟩
  generalize he : alone exitOne { root := "/" } 16 ⟨start { root := "/" } "/" "a.py", {}, ()⟩ = e
    at h
  have ha : primarySights e.1 = exitOneSights := by
    rw [← he]
    decide
  have hb : parseSights e.1 = exitOneSights := by
    rw [← he]
    decide
  have hx : e.2.stage.answer?.isSome = true := by
    rw [← he]
    decide
  have hc : InTime { root := "/" } e.1 := by
    rw [InTime, ha, hb]
    rintro ⟨now, d, hn, ⟨hd, -⟩ | ⟨rfl, hm⟩⟩
    · cases hd
    · cases (by simpa [exitOneSights] using hm : now = 0)
      cases hn
  obtain ⟨x, hx⟩ := Option.isSome_iff_exists.mp hx
  obtain ⟨full, f, -, rfl, hf, -⟩ :=
    (status_by_sights exitOne { root := "/" } (by decide) h hc).2 x hx
  rw [ha, hb] at hf
  have hi : FailedInTime exitOneSights := ⟨.exited 1, by decide, by decide⟩
  have hv : Reads exitOneSights .valid :=
    ⟨some (.exited 1), exitOne.recording 1 (), by decide, by decide, by decide⟩
  exact ⟨e.1, e.2, f, h, hc, hx, hf.okWithWarning.mpr ⟨hi, hv, rfl⟩⟩

end Triage.Check
