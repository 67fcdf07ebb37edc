import Mathlib.Data.Nat.Find
import Mathlib.Order.MinMax
import Triage.Run

set_option autoImplicit true

namespace Triage.Run

variable {σ : Type} {sys : System σ} {s : σ} {child : Pid} {began deadline : Time}

theorem Poll.of_eq_sleep : Poll.of ending now deadline = .sleep t ↔
    ending = none ∧ now < deadline ∧ t = min (pollInterval) (deadline - now) := by
  cases ending with
  | some e => simp [Poll.of]
  | none =>
    by_cases h : deadline ≤ now
    · simp [Poll.of, h, Nat.not_lt.mpr h]
    · simp [Poll.of, h, Nat.not_le.mp h, @eq_comm _ t]

theorem pause_waiting (he : sys.ending? child s = .ok ending) :
    pause sys s (.waiting child (some deadline)) = .until_ t ↔ ending = none ∧
      sys.now s < deadline ∧
        t = sys.now s + min (pollInterval) (deadline - sys.now s) := by
  simp only [pause, he]
  cases hp : Poll.of ending (sys.now s) deadline with
  | sleep u =>
    obtain ⟨hn, hl, rfl⟩ := Poll.of_eq_sleep.mp hp
    simp [hn, hl, @eq_comm _ t]
  | _ =>
    refine iff_of_false nofun ?_
    rintro ⟨hn, hl, -⟩
    cases hp.symm.trans (Poll.of_eq_sleep.mpr ⟨hn, hl, rfl⟩)

def through (sys : System σ) (child : Pid) (reg : Registry) (s : σ) :
    Option Ending → Phase × Registry × σ
  | some e => (.draining child (some e) (sys.now s + grace), reg, sys.reap child s)
  | none => (.overdue child, reg, s)

theorem step_asleep (c : Command) (reg : Registry) (he : sys.ending? child s = .ok none)
    (hn : sys.now s < deadline) : step sys c (.waiting child (some deadline)) reg s =
      (.waiting child (some deadline), reg, s) := by
  simp only [step, he, Poll.of_eq_sleep.mpr ⟨rfl, hn, rfl⟩]

theorem step_through (c : Command) (reg : Registry) (he : sys.ending? child s = .ok ending)
    (hn : ending = none → deadline ≤ sys.now s) :
    step sys c (.waiting child (some deadline)) reg s = through sys child reg s ending := by
  cases ending with
  | some e => simp only [step, he, Poll.of, through]
  | none => simp only [step, he, Poll.of, if_pos (hn rfl), through]

def seen (exit : Option (Time × Ending)) (now : Time) : Option Ending :=
  exit.bind fun (t, e) => if t ≤ now then some e else none

theorem seen_eq_none : seen exit now = none ↔ ∀ t e, exit = some (t, e) → now < t := by
  cases exit with
  | none => simp [seen]
  | some x =>
    obtain ⟨t, e⟩ := x
    simp [seen]

theorem seen_eq_some : seen exit now = some e ↔ ∃ t, exit = some (t, e) ∧ t ≤ now := by
  cases exit with
  | none => simp [seen]
  | some x =>
    obtain ⟨t, f⟩ := x
    simp only [seen, Option.bind_some, Option.ite_none_right_eq_some, Option.some.injEq,
      Prod.mk.injEq]
    constructor
    · rintro ⟨hl, rfl⟩
      exact ⟨t, ⟨rfl, rfl⟩, hl⟩
    · rintro ⟨_, ⟨rfl, rfl⟩, hl⟩
      exact ⟨hl, rfl⟩

/-- The looks of a run at its child from the moment `began` on, and the moments at which it polls the
child.  It reads the clock after that, when the system is at `s`, and sleeps at least as long as it
is to.  What comes after the last look does not matter. -/
structure Watch (sys : System σ) (child : Pid) (began deadline : Time)
    (exit : Option (Time × Ending)) (polled : Nat → Time) (s : Nat → σ) : Prop where
  begins : began ≤ polled 0
  polls : ∀ i, sys.ending? child (s i) = .ok (seen exit (polled i))
  reads : ∀ i, polled i ≤ sys.now (s i)
  sleeps : ∀ i t, pause sys (s i) (.waiting child (some deadline)) = .until_ t → t ≤ polled (i + 1)

namespace Watch

variable {exit : Option (Time × Ending)} {polled : Nat → Time} {s : Nat → σ}

theorem le_polled_succ (h : Watch sys child began deadline exit polled s)
    (he : seen exit (polled i) = none) (hn : sys.now (s i) < deadline) :
    min (polled i + pollInterval) deadline ≤ polled (i + 1) := by
  have hs := h.sleeps i _ ((pause_waiting (h.polls i)).mpr ⟨he, hn, rfl⟩)
  calc min (polled i + pollInterval) deadline
    _ ≤ min (sys.now (s i) + pollInterval) deadline :=
      min_le_min_right _ (Nat.add_le_add_right (h.reads i) _)
    _ = sys.now (s i) + min (pollInterval) (deadline - sys.now (s i)) := by
      rw [← Nat.add_min_add_left, Nat.add_sub_of_le (Nat.le_of_lt hn)]
    _ ≤ polled (i + 1) := hs

theorem le_polled (h : Watch sys child began deadline exit polled s)
    (ha : ∀ i < n, seen exit (polled i) = none ∧ sys.now (s i) < deadline) :
    min (began + n * pollInterval) deadline ≤ polled n := by
  induction n with
  | zero =>
    rw [Nat.zero_mul]
    exact (Nat.min_le_left _ _).trans h.begins
  | succ n ih =>
    obtain ⟨he, hn⟩ := ha n (Nat.lt_succ_self n)
    have ih := ih fun i hi => ha i (Nat.lt_succ_of_lt hi)
    have hk (a b p k : Nat) (hp : min a b ≤ p) : min (a + k) b ≤ min (p + k) b := by omega
    rw [Nat.succ_mul, ← Nat.add_assoc]
    exact (hk _ _ _ _ ih).trans (h.le_polled_succ he hn)

/-- No more looks send the run to sleep than there are poll intervals up to the deadline, and the one
after them does not. -/
theorem exists_last (h : Watch sys child began deadline exit polled s)
    (hk : deadline ≤ began + k * pollInterval) : ∃ n ≤ k,
      (∀ i < n, seen exit (polled i) = none ∧ sys.now (s i) < deadline) ∧
      (seen exit (polled n) = none → deadline ≤ sys.now (s n)) := by
  let asleep (i : Nat) : Prop := seen exit (polled i) = none ∧ sys.now (s i) < deadline
  have hl : ∃ n, n ≤ k ∧ ¬asleep n := by
    by_contra hn
    have ha (i : Nat) (hi : i ≤ k) : asleep i := by_contra fun hs => hn ⟨i, hi, hs⟩
    have hp := h.le_polled fun i hi => ha i (Nat.le_of_lt hi)
    rw [Nat.min_eq_right hk] at hp
    exact Nat.not_le.mpr (ha k (Nat.le_refl k)).2 (hp.trans (h.reads k))
  classical
  -- The first look that does not send the run to sleep.
  obtain ⟨hle, hn⟩ := Nat.find_spec hl
  refine ⟨Nat.find hl, hle, ?_, ?_⟩
  · intro i hi
    have hs := Nat.find_min hl hi
    exact by_contra fun ha => hs ⟨(Nat.le_of_lt hi).trans hle, ha⟩
  · intro he
    exact Nat.not_lt.mp fun hs => hn ⟨he, hs⟩

end Watch

theorem deadline_le (began : Time) (d : Duration) :
    began + d ≤ began + (d + 24999999) / 25000000 * pollInterval := by
  have hn : ∀ n : Nat, n ≤ (n + 24999999) / 25000000 * 25000000 := by omega
  exact Nat.add_le_add_left (hn d) began

/-- A run whose timeout the clock can hold waits until its child ends, or that much later.  It is
through after one look more than the timeout has times of 25 ms, at the latest, and each look before
that sends it to sleep, in front of the deadline.  It then has an ending if and only if a look has
seen one; it has none only if the last look has not, and the clock has shown the deadline after that,
so that the child had not exited by then. -/
theorem wait_ends {σ : Type} {sys : System σ} {c : Command} {child : Pid} {d : Duration}
    {began : Time} {exit : Option (Time × Ending)} {polled : Nat → Time} {s₀ : σ} {s : Nat → σ}
    (hc : c.timeout = some d) (hb : sys.now s₀ = began)
    (hd : (began + d) / 1000000000 < Nat.pow 2 63)
    (h : Watch sys child began (began + d) exit polled s) :
    (∀ reg, step sys c (.starting child) reg s₀ = (.waiting child (some (began + d)), reg, s₀)) ∧
    ∃ (n : Nat) (answer : Option Ending), n ≤ (d + 24999999) / 25000000 ∧
      (∀ i < n, sys.now (s i) < began + d ∧
        pause sys (s i) (.waiting child (some (began + d))) =
          .until_ (sys.now (s i) + min 25000000 (began + d - sys.now (s i))) ∧
        ∀ reg, step sys c (.waiting child (some (began + d))) reg (s i) =
          (.waiting child (some (began + d)), reg, s i)) ∧
      (∀ reg, step sys c (.waiting child (some (began + d))) reg (s n) =
        through sys child reg (s n) answer) ∧
      (∀ t, pause sys (s n) (.waiting child (some (began + d))) ≠ .until_ t) ∧
      (∀ e, answer = some e ↔ ∃ i ≤ n, sys.ending? child (s i) = .ok (some e)) ∧
      (answer = none → sys.ending? child (s n) = .ok none ∧ began + d ≤ sys.now (s n) ∧
        ∀ t e, exit = some (t, e) → polled n < t) := by
  have hd := Clock.deadline?_eq_some.mpr ⟨rfl, hd⟩
  refine ⟨fun reg => by simp only [step, hc, hb, hd], ?_⟩
  obtain ⟨n, hn, ha, hl⟩ := h.exists_last (deadline_le began d)
  refine ⟨n, seen exit (polled n), hn, ?_, ?_, ?_, ?_, ?_⟩
  · intro i hi
    obtain ⟨he, hs⟩ := ha i hi
    have hp := h.polls i
    refine ⟨hs, (pause_waiting hp).mpr ⟨he, hs, rfl⟩, fun reg => ?_⟩
    rw [he] at hp
    exact step_asleep c reg hp hs
  · intro reg
    exact step_through c reg (h.polls n) hl
  · intro t hp
    obtain ⟨he, hs, -⟩ := (pause_waiting (h.polls n)).mp hp
    exact Nat.not_le.mpr hs (hl he)
  · intro e
    constructor
    · intro he
      exact ⟨n, Nat.le_refl n, by rw [h.polls n, he]⟩
    · rintro ⟨i, hi, he⟩
      have hp := (h.polls i).symm.trans he
      rcases Nat.lt_or_eq_of_le hi with hi | rfl
      · rw [(ha i hi).1] at hp
        cases hp
      · exact Option.some.inj (Except.ok.inj hp ▸ rfl)
  · intro he
    exact ⟨by rw [h.polls n, he], hl he, seen_eq_none.mp he⟩

def clockwork (exit : Option (Time × Ending)) : System Time where
  now := id
  launch _ s := (.ok 1, s)
  ending? _ s := .ok (seen exit s)
  reap _ s := s
  killGroup _ s := s
  silent _ _ := true
  recording _ _ := {}

@[simp] theorem now_clockwork (exit : Option (Time × Ending)) (t : Time) :
    (clockwork exit).now t = t := rfl

theorem wait_ends_of_lateExit : ∃ n : Nat, n ≤ 3 ∧ ∀ reg,
    step (clockwork (some (59000000, .exited 0))) { program := "sleep", timeout := some 60000500 }
      (.waiting 1 (some (0 + 60000500))) reg (min (n * 25000000) 60000500) =
        through (clockwork (some (59000000, .exited 0))) 1 reg (min (n * 25000000) 60000500)
          (some (.exited 0)) := by
  have hs (i : Nat) : min (i * 25000000) 60000500 +
      min 25000000 (0 + 60000500 - min (i * 25000000) 60000500) ≤
        min ((i + 1) * 25000000) 60000500 := by
    omega
  have hw : Watch (clockwork (some (59000000, .exited 0))) 1 0 (0 + 60000500)
      (some (59000000, .exited 0)) (fun i => min (i * 25000000) 60000500)
      (fun i => min (i * 25000000) 60000500) := by
    refine ⟨Nat.zero_le _, fun i => rfl, fun i => (now_clockwork _ _).ge, fun i t hp => ?_⟩
    obtain ⟨-, -, rfl⟩ := (pause_waiting rfl).mp hp
    rw [now_clockwork, show pollInterval = 25000000 from rfl]
    exact hs i
  obtain ⟨-, n, answer, hn, -, hs, -, hi, ho⟩ := wait_ends (d := 60000500)
    (c := { program := "sleep", timeout := some 60000500 }) rfl (now_clockwork _ 0) (by decide) hw
  refine ⟨n, hn, fun reg => (hs reg).trans ?_⟩
  cases answer with
  | none =>
    obtain ⟨-, hl, hx⟩ := ho rfl
    rw [now_clockwork] at hl
    exact absurd (hl.trans_lt (hx 59000000 _ rfl)) (by decide)
  | some e =>
    obtain ⟨i, -, he⟩ := (hi e).mp rfl
    obtain ⟨t, hx, -⟩ := seen_eq_some.mp (Except.ok.inj he)
    cases hx
    rfl

end Triage.Run
