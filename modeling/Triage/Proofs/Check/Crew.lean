import Triage.Check
import Triage.Proofs.Registry.Crowd
import Triage.Proofs.Schedule.Ceiling
import Triage.Proofs.Schedule.Completion

set_option autoImplicit true

namespace Triage

theorem Run.step_cancelled (sys : System σ) (c : Command) (phase : Phase) (r : Registry) (s : σ) :
    (step sys c phase r s).2.1.cancelled = r.cancelled := by
  have hm := step_move sys c phase r s rfl
  have hl : step sys c phase r s = _ := step_logged sys c phase r (s, [])
  rw [hl]
  exact hm.cancelled_eq

namespace Check

def Stage.IsOf (path : String) : Stage → Prop
  | .primary p _ | .parse p _ _ => p = path
  | .done f => f.file = path
  | .crashed => True

theorem start_isOf (s : Settings) {here path : String} (h : Path.absolute? here path = some path) :
    (start s here path).IsOf path := by
  simp only [start, h]
  split
  · rfl
  · rfl

theorem afterPrimary_isOf (s : Settings) (path : String)
    (result : Except Command.LaunchFault Outcome) : (afterPrimary s path result).IsOf path := by
  unfold afterPrimary
  split
  · rfl
  · split <;> rfl

theorem classify_file (s : Settings) (path : String) (o : Outcome) (v : Verdict) :
    (classify s path o v).file = path := by
  unfold classify
  split <;> try split
  all_goals rfl

theorem afterParse_file (s : Settings) (path : String) (o : Outcome)
    (result : Except Command.LaunchFault Outcome) : (afterParse s path o result).file = path := by
  unfold afterParse
  split
  · rfl
  · exact classify_file s path o _

variable {σ : Type} {path : String} {stage : Stage}

theorem step_isOf (sys : System σ) (settings : Settings) (reg : Registry) (s : σ)
    (h : stage.IsOf path) : (step sys settings stage reg s).1.IsOf path := by
  cases stage with
  | primary p run =>
    cases h
    simp only [step]
    split
    · exact afterPrimary_isOf settings path _
    · trivial
    · rfl
  | parse p o run =>
    cases h
    simp only [step]
    split
    · exact afterParse_file settings path o _
    · trivial
    · rfl
  | done f => exact h
  | crashed => trivial

theorem step_cancelled (sys : System σ) (settings : Settings) (stage : Stage) (reg : Registry)
    (s : σ) : (step sys settings stage reg s).2.1.cancelled = reg.cancelled := by
  cases stage with
  | primary p run | parse p o run =>
    simp only [step]
    split
    · rfl
    · rfl
    · exact Run.step_cancelled sys run.command run.phase reg s
  | done f => rfl
  | crashed => rfl

theorem finding_file {a : Answer} (h : stage.IsOf path) (ha : stage.answer? = some a) :
    (a.finding path).file = path := by
  cases stage with
  | done f =>
    cases ha
    exact h
  | crashed =>
    cases ha
    rfl
  | primary | parse => cases ha

/-- The workers of a crew check the files as `settings` say, seen from the directory `here`, on a
registry and a system that they share.  Meanwhile others do what `elsewhere` allows. -/
def crew (sys : System σ) (settings : Settings) (here : String)
    (elsewhere : Registry × σ → Registry × σ → Prop) : Crew Stage (Registry × σ) where
  start file s := (start settings here file, s)
  moves k s k' s' := step sys settings k s.1 s.2 = (k', s')
  answer? k _ := k.answer?
  elsewhere := elsewhere
  registry s := some s.1
  cancel s := (sys.cancel s.1 s.2).2
  registry_cancel _ := rfl

variable {sys : System σ} {settings : Settings} {here : String}
  {elsewhere : Registry × σ → Registry × σ → Prop}

theorem crew_nobodyElseCancels
    (he : ∀ {s s'}, elsewhere s s' → s'.1.cancelled = s.1.cancelled) :
    (crew sys settings here elsewhere).NobodyElseCancels where
  start _ _ := rfl
  moves {k s k' s'} h := by
    have hc := step_cancelled sys settings k s.1 s.2
    rw [show step sys settings k s.1 s.2 = (k', s') from h] at hc
    exact congrArg some hc
  elsewhere h := congrArg some (he h)

theorem file_of_sent {s : Registry × σ}
    (h : (crew sys settings here elsewhere).Run (.start n files s) tr p) (hs : .sent t f ∈ tr)
    (ht : Path.absolute? here t.file = some t.file) : f.file = t.file := by
  obtain ⟨k, s, a, hk, ha, rfl⟩ := Crew.Run.answered
    (fun t k => Path.absolute? here t.file = some t.file → k.IsOf t.file)
    (fun t _ ht => start_isOf settings ht)
    (fun {t k s k' s'} hk hm ht => by
      have hi := step_isOf sys settings s.1 s.2 (hk ht)
      rwa [show step sys settings k s.1 s.2 = (k', s') from hm] at hi) h hs
  exact finding_file (hk ht) ha

end Check
end Triage
