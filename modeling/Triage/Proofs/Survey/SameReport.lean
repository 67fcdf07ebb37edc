import Mathlib.Logic.Function.Iterate
import Triage.Proofs.Check.History
import Triage.Proofs.Discovery.Distinct
import Triage.Proofs.Registry.Solitary
import Triage.Proofs.Report.Order
import Triage.Survey

set_option autoImplicit true

open scoped List

namespace Triage.Survey

/-- What a survey may come to on a system, in any order of steps. -/
inductive Ends (sys : System σ) (elsewhere : Registry × σ → Registry × σ → Prop)
    (settings : Settings) (host : Nat) (tree : FileTree) (here : Location) (s : Registry × σ) :
    List Event → Except Fault Report → Prop
  | setup {f} (h : prepare settings tree here = .error f) :
      Ends sys elsewhere settings host tree here s [] (.error (.setup f))
  | nothing {checked} (h : prepare settings tree here = .ok (checked, [])) :
      Ends sys elsewhere settings host tree here s [] (.ok (.ofFindings []))
  | clock {checked files} (h : prepare settings tree here = .ok (checked, files)) (hf : files ≠ [])
      (hd : Clock.deadline? (sys.now s.2) checked.batchTimeout = none) :
      Ends sys elsewhere settings host tree here s [] (.error .clock)
  | batch {checked files d tr p b} (h : prepare settings tree here = .ok (checked, files))
      (hf : files ≠ []) (hd : Clock.deadline? (sys.now s.2) checked.batchTimeout = some d)
      (hr : (Check.crew sys checked here.path elsewhere).Run
        (.start (checked.workerCount host) files s) tr p)
      (hb : p.schedule.returned? = some b) :
      Ends sys elsewhere settings host tree here s tr (.ok (reportOf b))

theorem root_resolved (hh : ∀ n ∈ here, Path.Segment n)
    (hv : Settings.validate settings tree here = .ok checked) : Path.Resolved checked.root := by
  obtain ⟨-, -, -, root, ha, rfl⟩ := Settings.validate_eq_ok.mp hv
  exact Path.resolved_of_absolute? hh ha

theorem scripts_workers (tree : FileTree) (s : Settings) (w : Option Nat) (fuel : Nat)
    (way : List Location) (path : String) :
    Discovery.scripts tree { s with workers := w } here fuel way path =
      Discovery.scripts tree s here fuel way path := by
  induction fuel generalizing way path with
  | zero => rfl
  | succ fuel ih =>
    simp only [Discovery.scripts, ih]
    rfl

theorem validate_workers (hv : Settings.validate settings tree here = .ok checked)
    (w : Option Nat) : Settings.validate { settings with workers := w } tree here =
      .ok { checked with workers := w } := by
  obtain ⟨he, hd, hp, root, ha, rfl⟩ := Settings.validate_eq_ok.mp hv
  exact Settings.validate_eq_ok.mpr ⟨he, hd, hp, root, ha, rfl⟩

theorem prepare_workers (hv : Settings.validate settings tree here = .ok checked)
    (w : Option Nat) :
    prepare { settings with workers := w } tree here =
      .ok ({ checked with workers := w }, Discovery.collect tree here checked) := by
  rw [prepare, validate_workers hv]
  simp only [Except.map, Discovery.collect, scripts_workers]

theorem prepare_eq_ok :
    prepare settings tree here = .ok (checked, files) ↔
      settings.validate tree here = .ok checked ∧ Discovery.collect tree here checked = files := by
  unfold prepare
  cases settings.validate tree here with
  | error f => simp [Except.map]
  | ok c =>
    simp only [Except.map, Except.ok.injEq, Prod.mk.injEq]
    exact ⟨by rintro ⟨rfl, rfl⟩; exact ⟨rfl, rfl⟩, by rintro ⟨rfl, rfl⟩; exact ⟨rfl, rfl⟩⟩

theorem file_of_sent {sys : System σ} (ht : tree.WellFormed) (hh : ∀ n ∈ here, Path.Segment n)
    (hv : Settings.validate settings tree here = .ok checked)
    (hr : (Check.crew sys checked here.path elsewhere).Run
      (.start n (Discovery.collect tree here checked) s) tr p)
    (hs : .sent t f ∈ tr) (hm : t ∈ Schedule.tasksOf (Discovery.collect tree here checked)) :
    f.file = t.file := by
  have hm := List.mem_map_of_mem (f := Task.file) hm
  rw [Schedule.map_file_tasksOf] at hm
  exact Check.file_of_sent hr hs
    (Discovery.absolute?_of_mem_collect ht (root_resolved hh hv) hm here.path)

theorem reportOf_eq {q : Schedule κ} {out : String → Finding} (hA : q.Accounts files tr)
    (hn : files.Nodup) (hb : q.returned? = some b) (hc : .ceiling ∉ tr)
    (ho : ∀ t f, .sent t f ∈ tr → f = out t.file)
    (hf : ∀ t f, .sent t f ∈ tr → t ∈ Schedule.tasksOf files → f.file = t.file) :
    reportOf b = .ofFindings (files.map out) ∧
      ((Report.ofFindings (files.map out)).findings.map Finding.file) ~ files := by
  obtain rfl := Schedule.batch_of_returned hb
  have hq := hA.full_of_returned hb hc
  have hp := hA.collected_perm ho hq
  have hm := hA.files_perm hf hq
  have hs : q.batch.shortfall = 0 := by
    simpa [Schedule.batch, Batch.shortfall, Batch.shortfallOf, Schedule.full, Nat.sub_eq_zero_iff_le]
      using hq
  have he := Report.ofFindings_eq_of_perm hp (hm.nodup_iff.mpr hn)
  refine ⟨?_, ?_⟩
  · rw [reportOf, hs, ← he]
    rfl
  · rw [← he]
    exact ((Report.findings_perm _).map Finding.file).trans hm

theorem Ends.eq_report {sys : System σ} {settings checked : Settings} {out : String → Finding}
    (ht : tree.WellFormed) (hh : ∀ n ∈ here, Path.Segment n)
    (hv : settings.validate tree here = .ok checked)
    (hd : (Clock.deadline? (sys.now s.2) settings.batchTimeout).isSome = true) {w : Option Nat}
    (h : Ends sys elsewhere { settings with workers := w } host tree here s tr x)
    (hc : .ceiling ∉ tr) (ho : ∀ t f, .sent t f ∈ tr → f = out t.file) :
    x = .ok (.ofFindings ((Discovery.collect tree here checked).map out)) ∧
      ((Report.ofFindings ((Discovery.collect tree here checked).map out)).findings.map
        Finding.file) ~ Discovery.collect tree here checked := by
  have hp := prepare_workers hv w
  have hb : checked.batchTimeout = settings.batchTimeout := by
    obtain ⟨-, -, -, root, -, rfl⟩ := Settings.validate_eq_ok.mp hv
    rfl
  cases h with
  | setup h =>
    rw [hp] at h
    cases h
  | nothing h =>
    obtain ⟨-, hf⟩ := Prod.mk.inj (Except.ok.inj (hp.symm.trans h))
    rw [hf]
    exact ⟨rfl, by simp [Report.ofFindings]⟩
  | clock h hf hn =>
    obtain ⟨rfl, -⟩ := Prod.mk.inj (Except.ok.inj (hp.symm.trans h))
    rw [show Clock.deadline? _ _ = none from hb ▸ hn] at hd
    cases hd
  | batch h hf hn hr hb =>
    obtain ⟨rfl, rfl⟩ := Prod.mk.inj (Except.ok.inj (hp.symm.trans h))
    obtain ⟨he, hm⟩ := reportOf_eq (Schedule.Accounts.of_run hr) (Discovery.nodup_collect ht here)
      hb hc ho fun t f hs => file_of_sent ht hh hv hr hs
    exact ⟨congrArg Except.ok he, hm⟩

def passed (settings : Settings) (path : String) : Finding :=
  match Check.primaryCommand? settings path with
  | none => Check.noModuleName path
  | some _ => .ok path

theorem moves_iterate (sys : System σ) (settings : Settings) (here : String)
    (elsewhere : Registry × σ → Registry × σ → Prop) (n : Nat) (x : Check.Stage × Registry × σ) :
    Relation.ReflTransGen (Check.crew sys settings here elsewhere).Move x
      ((fun x => Check.step sys settings x.1 x.2.1 x.2.2)^[n] x) := by
  induction n generalizing x with
  | zero => exact .refl
  | succ n ih => exact .head rfl (ih _)

theorem exists_moves_of_briefChild {elsewhere : Registry × Unit → Registry × Unit → Prop}
    {settings : Settings} {here path : String} (hp : Path.absolute? here path = some path)
    (hd : ∀ d, settings.checkTimeout = some d → (Clock.deadline? 0 d).isSome = true) :
    ∃ k a, Relation.ReflTransGen (Check.crew Solo.briefChild settings here elsewhere).Move
      ((Check.crew Solo.briefChild settings here elsewhere).start path ({}, ())) (k, {}, ()) ∧
      (Check.crew Solo.briefChild settings here elsewhere).answer? k ({}, ()) = some a ∧
      a.finding path = passed settings path := by
  refine ⟨.done (passed settings path), .ok (passed settings path), ?_, rfl, rfl⟩
  cases hc : Check.primaryCommand? settings path with
  | none =>
    have h₀ : (Check.crew Solo.briefChild settings here elsewhere).start path ({}, ()) =
        (.done (passed settings path), {}, ()) := by
      simp only [Check.crew, Check.start, hp, hc, passed]
    rw [h₀]
  | some c =>
    have h₀ : (Check.crew Solo.briefChild settings here elsewhere).start path ({}, ()) =
        (.primary path { command := c }, {}, ()) := by
      simp only [Check.crew, Check.start, hp, hc]
    have h₁ : Relation.ReflTransGen (Check.crew Solo.briefChild settings here elsewhere).Move
        (.primary path { command := c }, {}, ())
        (.primary path { command := c, phase := .starting 1 }, { live := [1] }, ()) :=
      moves_iterate Solo.briefChild settings here elsewhere 3 _
    obtain ⟨deadline, h₂⟩ : ∃ deadline, (Check.crew Solo.briefChild settings here elsewhere).Move
        (.primary path { command := c, phase := .starting 1 }, { live := [1] }, ())
        (.primary path { command := c, phase := .waiting 1 deadline }, { live := [1] }, ()) := by
      cases ht : c.timeout with
      | none => exact ⟨none, by simp only [Crew.Move, Check.crew, Check.step, Run.step, ht]⟩
      | some d =>
        obtain ⟨t, hd⟩ := Option.isSome_iff_exists.mp (hd d (Check.timeout_of_primaryCommand? hc ht))
        have hd : Clock.deadline? (Solo.briefChild.now ()) d = some t := hd
        exact ⟨some t, by simp only [Crew.Move, Check.crew, Check.step, Run.step, ht, hd]⟩
    have h₃ : Relation.ReflTransGen (Check.crew Solo.briefChild settings here elsewhere).Move
        (.primary path { command := c, phase := .waiting 1 deadline }, { live := [1] }, ())
        (.done (.ok path), {}, ()) := by
      cases deadline <;> exact moves_iterate Solo.briefChild settings here elsewhere 4 _
    rw [h₀, passed, hc]
    exact (h₁.tail h₂).trans h₃

theorem exists_ends_of_briefChild (elsewhere : Registry × Unit → Registry × Unit → Prop)
    {settings checked : Settings} {tree : FileTree} {here : Location} (host : Nat)
    (ht : tree.WellFormed) (hh : ∀ n ∈ here, Path.Segment n)
    (hv : settings.validate tree here = .ok checked)
    (hb : (Clock.deadline? 0 settings.batchTimeout).isSome = true)
    (hc : ∀ d, settings.checkTimeout = some d → (Clock.deadline? 0 d).isSome = true)
    (w : Option Nat) :
    ∃ tr x, Ends Solo.briefChild elsewhere { settings with workers := w } host tree here ({}, ())
      tr x ∧ InTime (passed { checked with workers := w }) tr := by
  have hp := prepare_workers hv w
  by_cases hf : Discovery.collect tree here checked = []
  · rw [hf] at hp
    exact ⟨[], _, .nothing hp, nofun, nofun⟩
  · obtain ⟨root, rfl⟩ : ∃ root, checked = { settings with root } := by
      obtain ⟨-, -, -, root, -, hx⟩ := Settings.validate_eq_ok.mp hv
      exact ⟨root, hx⟩
    obtain ⟨d, hd⟩ := Option.isSome_iff_exists.mp hb
    obtain ⟨tr, p, hr, hq, hi⟩ := Crew.Run.exists_returned
      (Check.crew Solo.briefChild { settings with root, workers := w } here.path elsewhere)
      (Settings.workerCount { settings with root, workers := w } host)
      (Discovery.collect tree here { settings with root }) ({}, ()) fun file hm =>
        exists_moves_of_briefChild
          (Discovery.absolute?_of_mem_collect ht (root_resolved hh hv) hm here.path) hc
    exact ⟨tr, _, .batch hp hf hd hr hq, hi⟩

/-- Two surveys of a tree come to the same report, and leave the same artifacts, whatever the
numbers of their workers and the orders of their steps, if the ceiling does not pass, the clock can
hold it, and what is found about a file depends on its path only.  Every file that is found below
the root is in the report once, and they stand in the order of their paths. -/
theorem same_report {sys₁ : System σ} {sys₂ : System τ} {settings checked : Settings}
    {out : String → Finding} {tree : FileTree} {here : Location} {s₁ : Registry × σ}
    {s₂ : Registry × τ} (ht : tree.WellFormed) (hh : ∀ n ∈ here, Path.Segment n)
    (hv : settings.validate tree here = .ok checked)
    (hd₁ : (Clock.deadline? (sys₁.now s₁.2) settings.batchTimeout).isSome = true)
    (hd₂ : (Clock.deadline? (sys₂.now s₂.2) settings.batchTimeout).isSome = true)
    {w₁ w₂ : Option Nat}
    (h₁ : Ends sys₁ elsewhere₁ { settings with workers := w₁ } host₁ tree here s₁ tr₁ x₁)
    (h₂ : Ends sys₂ elsewhere₂ { settings with workers := w₂ } host₂ tree here s₂ tr₂ x₂)
    (hc₁ : .ceiling ∉ tr₁) (hc₂ : .ceiling ∉ tr₂)
    (ho₁ : ∀ t f, .sent t f ∈ tr₁ → f = out t.file)
    (ho₂ : ∀ t f, .sent t f ∈ tr₂ → f = out t.file) :
    ∃ r, x₁ = .ok r ∧ x₂ = .ok r ∧ r.shortfall = 0 ∧
      r.findings.map Finding.file ~ Discovery.collect tree here checked ∧
      (r.findings.map Finding.file).Pairwise (· < ·) ∧
      ∀ {ρ η : Type} (st : Storage ρ η) (z : ρ),
        Artifact.writeAll st { settings with workers := w₁ } r z =
          Artifact.writeAll st { settings with workers := w₂ } r z := by
  obtain ⟨he₁, hm⟩ := h₁.eq_report ht hh hv hd₁ hc₁ ho₁
  obtain ⟨he₂, -⟩ := h₂.eq_report ht hh hv hd₂ hc₂ ho₂
  refine ⟨_, he₁, he₂, rfl, hm, ?_, fun st z => rfl⟩
  apply Report.pairwise_files
  exact (((Report.findings_perm _).map Finding.file).symm.trans hm).nodup_iff.mpr
    (Discovery.nodup_collect ht here)

end Triage.Survey
