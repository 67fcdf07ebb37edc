import Triage.Proofs.Lists
import Triage.Proofs.Run.Steps
import Triage.Proofs.Trace

set_option autoImplicit true

namespace Triage

inductive Call
  | launched (child : Pid)
  | reaped (child : Pid)
  | killed (child : Pid)
  deriving DecidableEq, Repr

namespace Call

def launched? : Call → Option Pid
  | launched child => some child
  | _ => none

def reaped? : Call → Option Pid
  | reaped child => some child
  | _ => none

def killed? : Call → Option Pid
  | killed child => some child
  | _ => none

end Call

/-- A system that also notes what is asked of it. -/
def System.logged (sys : System σ) : System (σ × List Call) where
  now s := sys.now s.1
  launch c s := match sys.launch c s.1 with
    | (.ok child, t) => (.ok child, t, s.2 ++ [.launched child])
    | (.error f, t) => (.error f, t, s.2)
  ending? child s := sys.ending? child s.1
  reap child s := (sys.reap child s.1, s.2 ++ [.reaped child])
  killGroup child s := (sys.killGroup child s.1, s.2 ++ [.killed child])
  silent child s := sys.silent child s.1
  recording child s := sys.recording child s.1

/-- What a run has to do with its child. -/
inductive Hold
  | free
  | fresh (child : Pid)
  | tracked (child : Pid)
  | spent (child : Pid)
  deriving DecidableEq, Repr

def Run.Phase.hold : Run.Phase → Hold
  | .admission | .launching | .ended _ => .free
  | .registering child | .refusing child => .fresh child
  | .starting child | .waiting child _ | .overdue child | .failing child _ | .crashed child =>
    .tracked child
  | .draining child _ _ | .leaving child _ => .spent child

/-- All that a step of a run can do to the registry and to its child. -/
inductive Hold.Move : Hold → Registry → List Call → Hold → Registry → Prop
  | stay {h r} : Move h r [] h r
  | launch {r} (child : Pid) : Move .free r [.launched child] (.fresh child) r
  | register {r r'} (child : Pid) (hr : r.register? child = some r') :
      Move (.fresh child) r [] (.tracked child) r'
  | terminate {r} (child : Pid) : Move (.fresh child) r [.killed child, .reaped child] .free r
  | reap {r calls} (child : Pid)
      (hc : calls = [.reaped child] ∨ calls = [.killed child, .reaped child]) :
      Move (.tracked child) r calls (.spent child) r
  | leave {r} (child : Pid) : Move (.spent child) r [] .free (r.unregister child)

theorem Hold.Move.cancelled_eq (h : Move x r calls y r') : r'.cancelled = r.cancelled := by
  cases h with
  | register child hr =>
    unfold Registry.register? at hr
    split at hr
    · cases hr
    · split at hr <;> cases hr <;> rfl
  | leave child => rfl
  | _ => rfl

theorem Hold.Move.live_subset (h : Move x r calls y r') (hc : r.cancelled = true) :
    r'.live ⊆ r.live := by
  cases h with
  | register child hr =>
    rw [Registry.register?_eq_none.mpr hc] at hr
    cases hr
  | leave child => exact List.filter_subset_self _
  | _ => exact List.Subset.refl _

theorem Run.step_move (sys : System σ) (c : Command) (phase : Phase) (r : Registry) (s : σ)
    (h : step sys.logged c phase r (s, []) = (phase', r', s', calls)) :
    Hold.Move phase.hold r calls phase'.hold r' := by
  have hs := step_cases sys.logged c phase r (s, [])
  rw [h] at hs
  generalize sight sys.logged c phase r (s, []) = l at hs
  cases hs with
  | launch hl =>
    simp only [System.logged] at hl
    split at hl <;> cases hl
    exact .launch _
  | fail hl =>
    simp only [System.logged] at hl
    split at hl <;> cases hl
    exact .stay
  | register hr => exact .register _ hr
  | terminate => exact .terminate _
  | finish => exact .reap _ (.inl rfl)
  | kill | drop => exact .reap _ (.inr rfl)
  | leave => exact .leave _
  | _ => exact .stay

theorem Run.step_logged (sys : System σ) (c : Command) (phase : Phase) (r : Registry)
    (s : σ × List Call) :
    step sys c phase r s.1 = Prod.map id (Prod.map id Prod.fst) (step sys.logged c phase r s) := by
  cases phase with
  | admission =>
    simp only [step]
    cases r.cancelled <;> rfl
  | launching =>
    simp only [step, System.logged]
    rcases sys.launch c s.1 with ⟨f | child, t⟩ <;> rfl
  | registering child =>
    simp only [step]
    cases r.register? child <;> rfl
  | starting child =>
    simp only [step, System.logged]
    cases c.timeout with
    | none => rfl
    | some d =>
      simp only
      cases Clock.deadline? (sys.now s.1) d <;> rfl
  | waiting child deadline =>
    cases deadline with
    | none =>
      simp only [step, System.logged]
      rcases sys.ending? child s.1 with f | _ | e <;> rfl
    | some deadline =>
      simp only [step, System.logged]
      rcases sys.ending? child s.1 with f | ending
      · rfl
      · simp only
        cases Poll.of ending (sys.now s.1) deadline <;> rfl
  | draining child ending limit =>
    simp only [step]
    by_cases hs : (sys.silent child s.1 || decide (limit ≤ sys.now s.1)) = true
    · have hl : (sys.logged.silent child s || decide (limit ≤ sys.logged.now s)) = true := hs
      rw [if_pos hs, if_pos hl]
      rfl
    · have hl : ¬(sys.logged.silent child s || decide (limit ≤ sys.logged.now s)) = true := hs
      rw [if_neg hs, if_neg hl]
      rfl
  | _ => rfl

structure Crowd (σ : Type) where
  registry : Registry := {}
  system : σ
  runs : List Run := []

def Crowd.start (s : σ) : Crowd σ := { system := s }

inductive Happening
  | called (c : Command)
  | ran (i : Nat) (calls : List Call)
  | cancelled (answer : Nat) (calls : List Call)
  | elsewhere
  deriving DecidableEq, Repr

namespace Happening

def calls : Happening → List Call
  | ran _ calls | cancelled _ calls => calls
  | _ => []

def signalled : Happening → List Pid
  | cancelled _ calls => calls.filterMap Call.killed?
  | _ => []

def isCancelled : Happening → Bool
  | cancelled .. => true
  | _ => false

def isOf (i : Nat) : Happening → Bool
  | ran j _ => j = i
  | _ => false

end Happening

namespace Crowd

/-- One step.  A command may be called at any moment, and the registry cancelled any number of
times. -/
inductive Step (sys : System σ) : Crowd σ → Happening → Crowd σ → Prop
  | call {r s rs} (c : Command) :
      Step sys ⟨r, s, rs⟩ (.called c) ⟨r, s, rs ++ [{ command := c }]⟩
  | run {r s rs c phase phase' r' s' calls} (i : Nat) (hi : rs[i]? = some ⟨c, phase⟩)
      (hs : Run.step sys.logged c phase r (s, []) = (phase', r', s', calls)) :
      Step sys ⟨r, s, rs⟩ (.ran i calls) ⟨r', s', rs.set i ⟨c, phase'⟩⟩
  | cancel {r s rs n r' s' calls} (hc : sys.logged.cancel r (s, []) = (n, r', s', calls)) :
      Step sys ⟨r, s, rs⟩ (.cancelled n calls) ⟨r', s', rs⟩
  | elsewhere {r s s' rs} : Step sys ⟨r, s, rs⟩ .elsewhere ⟨r, s', rs⟩

abbrev History (sys : System σ) : Crowd σ → List Happening → Crowd σ → Prop := Trace (Step sys)

def holds (p : Crowd σ) : List Hold := p.runs.map (·.phase.hold)

end Crowd

def launched (tr : List Happening) : List Pid :=
  (tr.flatMap Happening.calls).filterMap Call.launched?

def reaped (tr : List Happening) : List Pid := (tr.flatMap Happening.calls).filterMap Call.reaped?

def signalled (tr : List Happening) : List Pid := tr.flatMap Happening.signalled

def cancelledIn (tr : List Happening) : Prop := ∃ e ∈ tr, e.isCancelled = true

def stepsOf (i : Nat) (tr : List Happening) : Nat := tr.countP (·.isOf i)

def callsOf (i : Nat) (tr : List Happening) : List Call :=
  (tr.filter (·.isOf i)).flatMap Happening.calls

theorem System.foldl_logged_killGroup (sys : System σ) (live : List Pid) (s : σ) (l : List Call) :
    live.foldl (fun s child => sys.logged.killGroup child s) (s, l) =
      (live.foldl (fun s child => sys.killGroup child s) s, l ++ live.map .killed) := by
  induction live generalizing s l with
  | nil => rw [List.map_nil, List.append_nil]; rfl
  | cons child live ih =>
    have hk : sys.logged.killGroup child (s, l) = (sys.killGroup child s, l ++ [.killed child]) :=
      rfl
    rw [List.foldl_cons, hk, ih, List.map_cons, List.append_assoc]
    rfl

theorem System.logged_cancel (sys : System σ) (r : Registry) (s : σ) :
    sys.logged.cancel r (s, []) =
      (r.live.length, r.cancel, (sys.cancel r s).2.2, r.live.map .killed) := by
  simp only [System.cancel, foldl_logged_killGroup, List.nil_append]

end Triage
