import Triage.Proofs.Check.Crew
import Triage.Proofs.Run.Course

set_option autoImplicit true

namespace Triage.Check

open Run (Sight Course)

structure Moment (σ : Type) where
  stage : Stage
  registry : Registry
  system : σ

/-- What happens in a step. -/
inductive Notice
  | primary (l : List Sight)
  | parse (l : List Sight)
  | cancelled (killed : List Pid)
  | elsewhere
  deriving DecidableEq, Repr

namespace Notice

def ofPrimary : Notice → List Sight
  | primary l => l
  | _ => []

def ofParse : Notice → List Sight
  | parse l => l
  | _ => []

end Notice

def notice (sys : System σ) (p : Moment σ) : Notice :=
  match p.stage with
  | .primary _ run => .primary (Run.sight sys run.command run.phase p.registry p.system)
  | .parse _ _ run => .parse (Run.sight sys run.command run.phase p.registry p.system)
  | .done _ | .crashed => .elsewhere

inductive Step (sys : System σ) (settings : Settings) : Moment σ → Notice → Moment σ → Prop
  | own {p k r s} (h : step sys settings p.stage p.registry p.system = (k, r, s)) :
      Step sys settings p (notice sys p) ⟨k, r, s⟩
  | cancel {k r s n r' s'} (h : sys.cancel r s = (n, r', s')) :
      Step sys settings ⟨k, r, s⟩ (.cancelled r.live) ⟨k, r', s'⟩
  | elsewhere {k r s r' s'} (h : r'.cancelled = r.cancelled) :
      Step sys settings ⟨k, r, s⟩ .elsewhere ⟨k, r', s'⟩

abbrev History (sys : System σ) (settings : Settings) :
    Moment σ → List Notice → Moment σ → Prop :=
  Trace (Step sys settings)

def alone (sys : System σ) (settings : Settings) : Nat → Moment σ → List Notice × Moment σ
  | 0, p => ([], p)
  | n + 1, p =>
    let (tr, q) := alone sys settings n p
    let (k, r, s) := step sys settings q.stage q.registry q.system
    (tr ++ [notice sys q], ⟨k, r, s⟩)

theorem history_alone (sys : System σ) (settings : Settings) (n : Nat) (p : Moment σ) :
    History sys settings p (alone sys settings n p).1 (alone sys settings n p).2 := by
  induction n with
  | zero => exact .refl
  | succ n ih => exact .snoc ih (.own rfl)

def primarySights (tr : List Notice) : List Sight := tr.flatMap Notice.ofPrimary

def parseSights (tr : List Notice) : List Sight := tr.flatMap Notice.ofParse

theorem primarySights_snoc (tr : List Notice) (e : Notice) :
    primarySights (tr ++ [e]) = primarySights tr ++ e.ofPrimary := by
  simp [primarySights]

theorem parseSights_snoc (tr : List Notice) (e : Notice) :
    parseSights (tr ++ [e]) = parseSights tr ++ e.ofParse := by
  simp [parseSights]

/-- What is found about a file of which the runs of the two checks took these courses. -/
inductive Concludes (settings : Settings) (path : String) :
    List Sight → List Sight → Finding → Prop
  | unnamed (h : primaryCommand? settings path = none) :
      Concludes settings path [] [] (noModuleName path)
  | unlaunched {c a f} (h : primaryCommand? settings path = some c) (ha : Course c a (.error f)) :
      Concludes settings path a [] (primaryNotLaunched path f)
  | passed {c a o} (h : primaryCommand? settings path = some c) (ha : Course c a (.ok o))
      (ho : o.success = true) : Concludes settings path a [] (.ok path)
  | undecided {c a o b f} (h : primaryCommand? settings path = some c) (ha : Course c a (.ok o))
      (ho : o.success = false) (hb : Course (parseCommand settings path) b (.error f)) :
      Concludes settings path a b (parseNotLaunched settings path o f)
  | decided {c a o b o'} (h : primaryCommand? settings path = some c) (ha : Course c a (.ok o))
      (ho : o.success = false) (hb : Course (parseCommand settings path) b (.ok o')) :
      Concludes settings path a b (classify settings path o (.ofOutcome o'))

/-- A deadline of one of the checks lies where no clock reaches. -/
def Overruns (settings : Settings) (a b : List Sight) : Prop :=
  ∃ now d, Clock.deadline? now d = none ∧
    (settings.checkTimeout = some d ∧ .started now ∈ a ∨
      settings.parseTimeout = d ∧ .started now ∈ b)

/-- What the two runs of a check have learnt that is at some stage. -/
def Stage.Past (settings : Settings) (path : String) (a b : List Sight) : Stage → Prop
  | .primary p run =>
    p = path ∧ primaryCommand? settings path = some run.command ∧ run.phase.Past run.command a ∧
      b = []
  | .parse p o run =>
    p = path ∧ (∃ c, primaryCommand? settings path = some c ∧ Course c a (.ok o)) ∧
      o.success = false ∧ run.command = parseCommand settings path ∧ run.phase.Past run.command b
  | .done f => Concludes settings path a b f
  | .crashed => Overruns settings a b

variable {sys : System σ} {settings : Settings} {path : String} {a b : List Sight}

theorem timeout_of_primaryCommand? (h : primaryCommand? settings path = some c)
    (ht : c.timeout = some d) : settings.checkTimeout = some d := by
  obtain ⟨c', -, rfl⟩ := Option.map_eq_some_iff.mp h
  exact (Option.filter_eq_some_iff.mp ht).1

theorem timeout_of_parseCommand (ht : (parseCommand settings path).timeout = some d) :
    settings.parseTimeout = d := by
  have hf : (some settings.parseTimeout).filter (0 < ·) = some d := ht
  exact Option.some.inj (Option.filter_eq_some_iff.mp hf).1

theorem afterPrimary_past (h : primaryCommand? settings path = some c) (ha : Course c a x) :
    (afterPrimary settings path x).Past settings path a [] := by
  cases x with
  | error f => exact .unlaunched h ha
  | ok o =>
    cases ho : o.success with
    | true =>
      simp only [afterPrimary, ho, if_true]
      exact .passed h ha ho
    | false =>
      simp only [afterPrimary, ho, Bool.false_eq_true, if_false]
      exact ⟨rfl, ⟨c, h, ha⟩, ho, rfl, rfl⟩

theorem afterParse_concludes (h : primaryCommand? settings path = some c) (ha : Course c a (.ok o))
    (ho : o.success = false) (hb : Course (parseCommand settings path) b x) :
    Concludes settings path a b (afterParse settings path o x) := by
  cases x with
  | error f => exact .undecided h ha ho hb
  | ok o' => exact .decided h ha ho hb

theorem step_past (sys : System σ) {p : Moment σ} (h : p.stage.Past settings path a b) :
    (step sys settings p.stage p.registry p.system).1.Past settings path
      (a ++ (notice sys p).ofPrimary) (b ++ (notice sys p).ofParse) := by
  obtain ⟨stage, reg, s⟩ := p
  cases stage with
  | primary q run =>
    obtain ⟨rfl, hc, ha, rfl⟩ := h
    simp only [step, notice, Notice.ofPrimary, Notice.ofParse]
    split
    -- The step from one stage to the next learns nothing: its run has taken its course.
    next x hx =>
      rw [hx] at ha
      simp only [hx, Run.sight, List.append_nil]
      exact afterPrimary_past hc ha
    next child hx =>
      rw [hx] at ha
      obtain ⟨now, d, ht, hd, hm⟩ := ha
      exact ⟨now, d, hd, .inl ⟨timeout_of_primaryCommand? hc ht, List.mem_append_left _ hm⟩⟩
    · exact ⟨rfl, hc, Run.step_past reg s ha, rfl⟩
  | parse q o run =>
    obtain ⟨rfl, ⟨c, hc, ha⟩, ho, hr, hb⟩ := h
    simp only [step, notice, Notice.ofPrimary, Notice.ofParse, List.append_nil]
    split
    next x hx =>
      rw [hx, hr] at hb
      simp only [hx, Run.sight, List.append_nil]
      exact afterParse_concludes hc ha ho hb
    next child hx =>
      rw [hx, hr] at hb
      obtain ⟨now, d, ht, hd, hm⟩ := hb
      exact ⟨now, d, hd, .inr ⟨timeout_of_parseCommand ht, List.mem_append_left _ hm⟩⟩
    · exact ⟨rfl, ⟨c, hc, ha⟩, ho, hr, Run.step_past reg s hb⟩
  | done f =>
    simp only [step, notice, Notice.ofPrimary, Notice.ofParse, List.append_nil]
    exact h
  | crashed =>
    simp only [step, notice, Notice.ofPrimary, Notice.ofParse, List.append_nil]
    exact h

theorem Step.past (h : Step sys settings p e q) (hp : p.stage.Past settings path a b) :
    q.stage.Past settings path (a ++ e.ofPrimary) (b ++ e.ofParse) := by
  cases h with
  | own h =>
    have hs := step_past sys hp
    rwa [h] at hs
  | cancel h => simpa only [Notice.ofPrimary, Notice.ofParse, List.append_nil] using hp
  | elsewhere h => simpa only [Notice.ofPrimary, Notice.ofParse, List.append_nil] using hp

theorem start_past (settings : Settings) {here path full : String}
    (h : Path.absolute? here path = some full) :
    (start settings here path).Past settings full [] [] := by
  simp only [start, h]
  cases hc : primaryCommand? settings full with
  | none => exact .unnamed hc
  | some c => exact ⟨rfl, hc, rfl, rfl⟩

theorem History.past {here path full : String} (hp : Path.absolute? here path = some full)
    (h : History sys settings ⟨start settings here path, r, s⟩ tr p) :
    p.stage.Past settings full (primarySights tr) (parseSights tr) := by
  refine h.invariant (I := fun tr p => p.stage.Past settings full (primarySights tr)
    (parseSights tr)) (start_past settings hp) fun hq hs => ?_
  rw [primarySights_snoc, parseSights_snoc]
  exact hs.past hq

/-- How many steps a check has left at most, but for those in which it waits. -/
def Stage.due : Stage → Nat
  -- one more than a run of the parse check has, for what is still to come
  | .primary _ run => 10 + run.phase.due
  | .parse _ _ run => run.phase.due
  | .done _ | .crashed => 0

def Stage.Waits (sys : System σ) (s : σ) : Stage → Prop
  | .primary _ run | .parse _ _ run => Run.Waits sys s run.phase
  | .done _ | .crashed => False

theorem afterPrimary_due (settings : Settings) (path : String)
    (x : Except Command.LaunchFault Outcome) : (afterPrimary settings path x).due ≤ 9 := by
  unfold afterPrimary
  split
  · exact Nat.zero_le _
  · split
    · exact Nat.zero_le _
    · exact Nat.le_refl _

theorem step_due {p : Moment σ} (hw : ¬p.stage.Waits sys p.system) (ha : p.stage.answer? = none) :
    (step sys settings p.stage p.registry p.system).1.due < p.stage.due := by
  obtain ⟨stage, reg, s⟩ := p
  cases stage with
  | primary q run =>
    simp only [step]
    split
    next x hx => exact Nat.lt_add_right _ (Nat.lt_succ_of_le (afterPrimary_due settings q x))
    next child hx => exact Nat.add_pos_right _ run.phase.due_pos
    next he hc => exact Nat.add_lt_add_left (Run.step_due reg s hw he hc) _
  | parse q o run =>
    simp only [step]
    split
    next x hx => exact run.phase.due_pos
    next child hx => exact run.phase.due_pos
    next he hc => exact Run.step_due reg s hw he hc
  | done f => cases ha
  | crashed => cases ha

end Triage.Check
