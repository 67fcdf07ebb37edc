import Triage.Run

set_option autoImplicit true

namespace Triage.Run

inductive Sight
  | barred
  | unlaunched (fault : Command.LaunchFault)
  | launched (child : Pid)
  | registered
  | started (now : Time)
  | ended (e : Ending)
  /-- The child still runs when its deadline has passed. -/
  | overdue
  | lost (fault : Command.LaunchFault)
  | printed (r : Recording)
  deriving DecidableEq, Repr

def sight (sys : System σ) (c : Command) (phase : Phase) (reg : Registry) (s : σ) : List Sight :=
  match phase with
  | .admission => if reg.cancelled then [.barred] else []
  | .launching =>
    match (sys.launch c s).1 with
    | .ok child => [.launched child]
    | .error f => [.unlaunched f]
  | .registering _ => if reg.cancelled then [.barred] else [.registered]
  | .starting _ => [.started (sys.now s)]
  | .waiting child deadline =>
    match sys.ending? child s with
    | .ok (some e) => [.ended e]
    | .ok none => if deadline.any (· ≤ sys.now s) then [.overdue] else []
    | .error f => [.lost (.lost deadline.isSome f)]
  | .draining child _ limit =>
    if sys.silent child s || limit ≤ sys.now s then [.printed (sys.recording child s)] else []
  | _ => []

/-- All that a step of a run can do, and what is seen of it. -/
inductive Step (sys : System σ) (c : Command) (reg : Registry) (s : σ) :
    Phase → List Sight → Phase × Registry × σ → Prop
  | enter (h : reg.cancelled = false) : Step sys c reg s .admission [] (.launching, reg, s)
  | bar (h : reg.cancelled = true) :
      Step sys c reg s .admission [.barred] (.ended (.error (.cancelled c.program)), reg, s)
  | launch (h : sys.launch c s = (.ok child, t)) :
      Step sys c reg s .launching [.launched child] (.registering child, reg, t)
  | fail (h : sys.launch c s = (.error f, t)) :
      Step sys c reg s .launching [.unlaunched f] (.ended (.error f), reg, t)
  | register (h : reg.register? child = some reg') :
      Step sys c reg s (.registering child) [.registered] (.starting child, reg', s)
  | refuse (h : reg.register? child = none) :
      Step sys c reg s (.registering child) [.barred] (.refusing child, reg, s)
  | terminate : Step sys c reg s (.refusing child) []
      (.ended (.error (.cancelled c.program)), reg, sys.reap child (sys.killGroup child s))
  | startFree (h : c.timeout = none) :
      Step sys c reg s (.starting child) [.started (sys.now s)] (.waiting child none, reg, s)
  | start (h : c.timeout = some d) (hd : Clock.deadline? (sys.now s) d = some t) :
      Step sys c reg s (.starting child) [.started (sys.now s)] (.waiting child (some t), reg, s)
  | crash (h : c.timeout = some d) (hd : Clock.deadline? (sys.now s) d = none) :
      Step sys c reg s (.starting child) [.started (sys.now s)] (.crashed child, reg, s)
  | finish (h : sys.ending? child s = .ok (some e)) :
      Step sys c reg s (.waiting child deadline) [.ended e]
        (.draining child (some e) (sys.now s + grace), reg, sys.reap child s)
  | wait (h : sys.ending? child s = .ok none) (ht : ∀ t, deadline = some t → sys.now s < t) :
      Step sys c reg s (.waiting child deadline) [] (.waiting child deadline, reg, s)
  | giveUp (h : sys.ending? child s = .ok none) (ht : t ≤ sys.now s) :
      Step sys c reg s (.waiting child (some t)) [.overdue] (.overdue child, reg, s)
  | lose (h : sys.ending? child s = .error f) :
      Step sys c reg s (.waiting child deadline) [.lost (.lost deadline.isSome f)]
        (.failing child (.lost deadline.isSome f), reg, s)
  | kill : Step sys c reg s (.overdue child) []
      (.draining child none (sys.now (sys.reap child (sys.killGroup child s)) + grace), reg,
        sys.reap child (sys.killGroup child s))
  | drop : Step sys c reg s (.failing child f) []
      (.leaving child (.error f), reg, sys.reap child (sys.killGroup child s))
  | listen (h : sys.silent child s = false) (hl : sys.now s < limit) :
      Step sys c reg s (.draining child ending limit) [] (.draining child ending limit, reg, s)
  | print (h : sys.silent child s = true ∨ limit ≤ sys.now s) :
      Step sys c reg s (.draining child ending limit) [.printed (sys.recording child s)]
        (.leaving child (.ok (outcomeOf (sys.recording child s) ending)), reg, s)
  | leave : Step sys c reg s (.leaving child result) [] (.ended result, reg.unregister child, s)
  | stay : Step sys c reg s (.ended result) [] (.ended result, reg, s)
  | broken : Step sys c reg s (.crashed child) [] (.crashed child, reg, s)

/-- The one place where the phases of `step` are gone through; what a step keeps is read off
`Step`. -/
theorem step_cases (sys : System σ) (c : Command) (phase : Phase) (reg : Registry) (s : σ) :
    Step sys c reg s phase (sight sys c phase reg s) (step sys c phase reg s) := by
  cases phase with
  | admission =>
    cases h : reg.cancelled with
    | true =>
      simp only [step, sight, h, if_true]
      exact .bar h
    | false =>
      simp only [step, sight, h, Bool.false_eq_true, if_false]
      exact .enter h
  | launching =>
    rcases h : sys.launch c s with ⟨f | child, t⟩ <;> simp only [step, sight, h]
    · exact .fail h
    · exact .launch h
  | registering child =>
    cases h : reg.register? child with
    | none =>
      simp only [step, sight, h, Registry.register?_eq_none.mp h, if_true]
      exact .refuse h
    | some reg' =>
      have hc : ¬reg.cancelled = true := by
        rw [← Registry.register?_eq_none, h]
        exact Option.some_ne_none reg'
      simp only [step, sight, h, hc]
      exact .register h
  | refusing child => exact .terminate
  | starting child =>
    cases h : c.timeout with
    | none =>
      simp only [step, sight, h]
      exact .startFree h
    | some d =>
      cases hd : Clock.deadline? (sys.now s) d with
      | none =>
        simp only [step, sight, h, hd]
        exact .crash h hd
      | some t =>
        simp only [step, sight, h, hd]
        exact .start h hd
  | waiting child deadline =>
    -- Without a deadline `step` does not ask `Poll.of`, so the two are told apart first.
    cases deadline with
    | none =>
      rcases h : sys.ending? child s with f | _ | e <;> simp only [step, sight, h]
      · exact .lose h
      · exact .wait h nofun
      · exact .finish h
    | some t =>
      rcases h : sys.ending? child s with f | _ | e <;> simp only [step, sight, h, Poll.of]
      · exact .lose h
      · by_cases ht : t ≤ sys.now s
        · simp only [ht, Option.any_some, decide_true, if_true]
          exact .giveUp h ht
        · simp only [ht, Option.any_some, decide_false, Bool.false_eq_true, if_false]
          refine .wait h fun u hu => ?_
          cases hu
          exact Nat.not_le.mp ht
      · exact .finish h
  | overdue child => exact .kill
  | failing child f => exact .drop
  | draining child ending limit =>
    by_cases h : sys.silent child s = true ∨ limit ≤ sys.now s
    · simp only [step, sight, Bool.or_eq_true, decide_eq_true_eq, h, if_true]
      exact .print h
    · simp only [step, sight, Bool.or_eq_true, decide_eq_true_eq, h, if_false]
      rw [not_or, Bool.not_eq_true, Nat.not_le] at h
      exact .listen h.1 h.2
  | leaving child result => exact .leave
  | ended result => exact .stay
  | crashed child => exact .broken

end Triage.Run
