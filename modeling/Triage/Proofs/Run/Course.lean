import Triage.Proofs.Run.Steps
import Triage.Verdict

set_option autoImplicit true

namespace Triage.Run

def Sight.ofEnding : Option Ending → Sight
  | some e => .ended e
  | none => .overdue

/-- The courses that a run can take, and their results. -/
inductive Course (c : Command) : List Sight → Except Command.LaunchFault Outcome → Prop
  | barred : Course c [.barred] (.error (.cancelled c.program))
  | unlaunched (f : Command.LaunchFault) : Course c [.unlaunched f] (.error f)
  | refused (child : Pid) : Course c [.launched child, .barred] (.error (.cancelled c.program))
  | lost (child : Pid) (now : Time) (f : Command.LaunchFault) :
      Course c [.launched child, .registered, .started now, .lost f] (.error f)
  | ended (child : Pid) (now : Time) (e : Ending) (r : Recording) :
      Course c [.launched child, .registered, .started now, .ended e, .printed r]
        (.ok (outcomeOf r (some e)))
  | overdue (child : Pid) (now : Time) (r : Recording) :
      Course c [.launched child, .registered, .started now, .overdue, .printed r]
        (.ok (outcomeOf r none))

def Phase.Past (c : Command) : Phase → List Sight → Prop
  | .admission, l | .launching, l => l = []
  | .registering child, l => l = [.launched child]
  | .refusing child, l => l = [.launched child, .barred]
  | .starting child, l => l = [.launched child, .registered]
  | .waiting child _, l => ∃ now, l = [.launched child, .registered, .started now]
  | .overdue child, l => ∃ now, l = [.launched child, .registered, .started now, .overdue]
  | .failing child f, l => ∃ now, l = [.launched child, .registered, .started now, .lost f]
  | .draining child ending _, l =>
    ∃ now, l = [.launched child, .registered, .started now, .ofEnding ending]
  | .leaving _ result, l | .ended result, l => Course c l result
  | .crashed _, l => ∃ now d, c.timeout = some d ∧ Clock.deadline? now d = none ∧ .started now ∈ l

theorem course_ofEnding (c : Command) (child : Pid) (now : Time) (ending : Option Ending)
    (r : Recording) :
    Course c [.launched child, .registered, .started now, .ofEnding ending, .printed r]
      (.ok (outcomeOf r ending)) := by
  cases ending with
  | none => exact .overdue child now r
  | some e => exact .ended child now e r

variable {sys : System σ} {c : Command} {phase : Phase} {l : List Sight}

theorem Step.past (hs : Step sys c reg s phase l' (phase', reg', s')) (h : phase.Past c l) :
    phase'.Past c (l ++ l') := by
  cases hs with
  | enter | launch | register | refuse =>
    cases h
    rfl
  | bar =>
    cases h
    exact .barred
  | fail =>
    cases h
    exact .unlaunched _
  | terminate =>
    cases h
    exact .refused _
  | startFree | start =>
    cases h
    exact ⟨_, rfl⟩
  | crash ht hd =>
    cases h
    exact ⟨_, _, ht, hd, by simp⟩
  | wait | listen | finish | giveUp | lose | kill =>
    obtain ⟨now, rfl⟩ := h
    exact ⟨now, rfl⟩
  | drop =>
    obtain ⟨now, rfl⟩ := h
    exact .lost _ now _
  | print =>
    obtain ⟨now, rfl⟩ := h
    exact course_ofEnding c _ now _ _
  | leave | stay | broken => rwa [List.append_nil]

theorem step_past (reg : Registry) (s : σ) (h : phase.Past c l) :
    (step sys c phase reg s).1.Past c (l ++ sight sys c phase reg s) :=
  (step_cases sys c phase reg s).past h

theorem success_outcomeOf (r : Recording) (ending : Option Ending) :
    (outcomeOf r ending).success = true ↔ ending = some (.exited 0) := by
  rcases ending with _ | n | n
  · simp [outcomeOf, Outcome.of, Outcome.success]
  · simp [outcomeOf, Outcome.of, Outcome.success]
  · simp [outcomeOf, Outcome.of, Outcome.success]

theorem timedOut_outcomeOf (r : Recording) (ending : Option Ending) :
    (outcomeOf r ending).timedOut = true ↔ ending = none := by
  rcases ending with _ | n | n
  · simp [outcomeOf, Outcome.of, Outcome.timedOut]
  · simp [outcomeOf, Outcome.of, Outcome.timedOut]
  · have hc : ((128 + n : Nat) : Int) ≠ -1 := by omega
    simpa [outcomeOf, Outcome.of, Outcome.timedOut, Ending.code, Outcome.timeoutCode] using hc

namespace Course

theorem ne_nil (h : Course c l x) : l ≠ [] := by
  cases h <;> exact List.cons_ne_nil _ _

theorem unique (h : Course c l x) (h' : Course c l y) : x = y := by
  cases h <;> cases h' <;> rfl

theorem of_ok (h : Course c l (.ok o)) : ∃ child now ending r,
    l = [.launched child, .registered, .started now, .ofEnding ending, .printed r] ∧
      o = outcomeOf r ending := by
  cases h with
  | ended child now e r => exact ⟨child, now, some e, r, rfl, rfl⟩
  | overdue child now r => exact ⟨child, now, none, r, rfl, rfl⟩

theorem not_mem_of_error (h : Course c l (.error f)) (ending : Option Ending) :
    Sight.ofEnding ending ∉ l := by
  cases ending <;> cases h <;> simp [Sight.ofEnding]

theorem registered_mem_of_ok (h : Course c l (.ok o)) : .registered ∈ l := by
  obtain ⟨child, now, ending, r, rfl, -⟩ := h.of_ok
  simp

end Course

/-- How many steps a run has left at most, but for those in which it waits. -/
def Phase.due : Phase → Nat
  | .admission => 9
  | .launching => 8
  | .registering _ => 7
  | .starting _ => 6
  | .waiting _ _ => 5
  | .overdue _ => 4
  | .draining _ _ _ | .failing _ _ => 3
  | .leaving _ _ | .refusing _ => 2
  | .ended _ | .crashed _ => 1

/-- A run waits while its child runs and may still run, and while others may still print. -/
def Waits (sys : System σ) (s : σ) : Phase → Prop
  | .waiting child deadline =>
    sys.ending? child s = .ok none ∧ ∀ t, deadline = some t → sys.now s < t
  | .draining child _ limit => sys.silent child s = false ∧ sys.now s < limit
  | _ => False

theorem Phase.due_pos (phase : Phase) : 0 < phase.due := by
  cases phase <;> exact Nat.succ_pos _

theorem Step.due (hs : Step sys c reg s phase l (phase', reg', s')) (hw : ¬Waits sys s phase)
    (he : ∀ x, phase ≠ .ended x) (hc : ∀ child, phase ≠ .crashed child) :
    phase'.due < phase.due := by
  cases hs with
  | wait h ht => exact absurd ⟨h, ht⟩ hw
  | listen h hl => exact absurd ⟨h, hl⟩ hw
  | stay => exact absurd rfl (he _)
  | broken => exact absurd rfl (hc _)
  | _ => simp [Phase.due]

theorem step_due (reg : Registry) (s : σ) (hw : ¬Waits sys s phase)
    (he : ∀ x, phase ≠ .ended x) (hc : ∀ child, phase ≠ .crashed child) :
    (step sys c phase reg s).1.due < phase.due :=
  (step_cases sys c phase reg s).due hw he hc

end Triage.Run
