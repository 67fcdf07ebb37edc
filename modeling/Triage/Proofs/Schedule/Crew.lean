import Triage.Proofs.Trace
import Triage.Registry
import Triage.Schedule

set_option autoImplicit true

namespace Triage

/-- How the files of a batch are checked. -/
structure Crew (κ σ : Type) where
  start : String → σ → κ × σ
  moves : κ → σ → κ → σ → Prop
  answer? : κ → σ → Option Answer
  /-- What others may do. -/
  elsewhere : σ → σ → Prop
  registry : σ → Option Registry
  cancel : σ → σ
  registry_cancel : ∀ s, registry (cancel s) = (registry s).map Registry.cancel

structure Floor (κ σ : Type) where
  schedule : Schedule κ
  shared : σ

def Floor.start (workers : Nat) (files : List String) (s : σ) : Floor κ σ :=
  ⟨.start workers files, s⟩

inductive Event
  | assigned (t : Task)
  | looked (t : Task) (abandoned : Bool)
  | began (t : Task)
  | moved (t : Task)
  | sent (t : Task) (f : Finding)
  | released
  | received (f : Finding)
  | completed
  | deserted
  | ceiling
  | abandoned
  | cancelled
  | elsewhere
  deriving DecidableEq, Repr

namespace Crew

/-- One step.  The ceiling may pass at any moment. -/
inductive Step (C : Crew κ σ) : Floor κ σ → Event → Floor κ σ → Prop
  | assign {q s t} (i w : Nat) (ht : q.queue[i]? = some t) (hw : q.workers[w]? = some .idle) :
      Step C ⟨q, s⟩ (.assigned t) ⟨q.assign i w t, s⟩
  | look {q s t} (w : Nat) (hw : q.workers[w]? = some (.starting t)) :
      Step C ⟨q, s⟩ (.looked t q.abandoned) ⟨q.look w t, s⟩
  | check {q s t} (w : Nat) (hw : q.workers[w]? = some (.cleared t)) :
      Step C ⟨q, s⟩ (.began t) ⟨q.check w t (C.start t.file s).1, (C.start t.file s).2⟩
  | move {q s t k k' s'} (w : Nat) (hw : q.workers[w]? = some (.checking t k))
      (hm : C.moves k s k' s') : Step C ⟨q, s⟩ (.moved t) ⟨q.check w t k', s'⟩
  | send {q s t k a} (w : Nat) (hw : q.workers[w]? = some (.checking t k))
      (ha : C.answer? k s = some a) :
      Step C ⟨q, s⟩ (.sent t (a.finding t.file)) ⟨q.deliver w (a.finding t.file), s⟩
  | release {q s} (w : Nat) (hw : q.workers[w]? = some .leaving) :
      Step C ⟨q, s⟩ .released ⟨q.release w, s⟩
  | receive {q s f fs} (hc : q.collector = .receiving) (hf : q.full = false)
      (hm : q.mailbox = f :: fs) : Step C ⟨q, s⟩ (.received f) ⟨q.receive, s⟩
  | complete {q s} (hc : q.collector = .receiving) (hf : q.full = true) :
      Step C ⟨q, s⟩ .completed ⟨q.stop .complete, s⟩
  | desert {q s} (hc : q.collector = .receiving) (hf : q.full = false) (hm : q.mailbox = [])
      (hh : q.held = false) : Step C ⟨q, s⟩ .deserted ⟨q.stop .deserted, s⟩
  | timeOut {q s} (hc : q.collector = .receiving) (hf : q.full = false) :
      Step C ⟨q, s⟩ .ceiling ⟨q.timeOut, s⟩
  | giveUp {q s} (hc : q.collector = .late) : Step C ⟨q, s⟩ .abandoned ⟨q.giveUp, s⟩
  | cancel {q s} (hc : q.collector = .abandoning) :
      Step C ⟨q, s⟩ .cancelled ⟨q.stop .ceiling, C.cancel s⟩
  | elsewhere {q s s'} (he : C.elsewhere s s') : Step C ⟨q, s⟩ .elsewhere ⟨q, s'⟩

abbrev Run (C : Crew κ σ) : Floor κ σ → List Event → Floor κ σ → Prop := Trace C.Step

variable {C : Crew κ σ}

def Checks (At : Task → κ → Prop) (ws : List (Worker κ)) : Prop :=
  ∀ t k, .checking t k ∈ ws → At t k

theorem Checks.set {At : Task → κ → Prop} (h : Checks At ws) (w : Nat) {x : Worker κ}
    (hx : ∀ t k, x = .checking t k → At t k) : Checks At (ws.set w x) := by
  intro t k hk
  rcases List.mem_or_eq_of_mem_set hk with hk | hk
  · exact h t k hk
  · exact hx t k hk.symm

theorem Step.checks {At : Task → κ → Prop} (h₀ : ∀ t s, At t (C.start t.file s).1)
    (hm : ∀ {t k s k' s'}, At t k → C.moves k s k' s' → At t k')
    (h : Checks At p.schedule.workers) (hs : C.Step p e r) : Checks At r.schedule.workers := by
  cases hs with
  | @assign q s t i w ht hw => exact h.set w (x := .starting t) fun _ _ => nofun
  | @look q s t w hw =>
    refine Checks.set h w ?_
    intro u k hk
    split at hk <;> cases hk
  | @check q s t w hw =>
    refine Checks.set h w ?_
    rintro u k ⟨⟩
    exact h₀ t s
  | @move q s t k k' s' w hw hk =>
    refine Checks.set h w ?_
    rintro u k ⟨⟩
    exact hm (h t _ (List.mem_of_getElem? hw)) hk
  | send w hw ha => exact h.set w (x := .leaving) fun _ _ => nofun
  | release w hw => exact h.set w (x := .idle) fun _ _ => nofun
  | receive hc hf hq =>
    rw [Schedule.receive_eq hq]
    exact h
  | _ => exact h

theorem Run.checks {At : Task → κ → Prop} (h₀ : ∀ t s, At t (C.start t.file s).1)
    (hm : ∀ {t k s k' s'}, At t k → C.moves k s k' s' → At t k')
    (h : C.Run (.start n files s) tr p) : Checks At p.schedule.workers := by
  refine h.invariant (I := fun _ p => Checks At p.schedule.workers) ?_ fun hI hs =>
    hs.checks h₀ hm hI
  intro t k hk
  cases List.eq_of_mem_replicate hk

theorem Run.answered (At : Task → κ → Prop) (h₀ : ∀ t s, At t (C.start t.file s).1)
    (hm : ∀ {t k s k' s'}, At t k → C.moves k s k' s' → At t k')
    (h : C.Run (.start n files s) tr p) (hf : .sent t f ∈ tr) :
    ∃ k s a, At t k ∧ C.answer? k s = some a ∧ f = a.finding t.file := by
  induction h with
  | refl => cases hf
  | snoc h hs ih =>
    rcases List.mem_append.mp hf with hf | hf
    · exact ih hf
    · cases List.eq_of_mem_singleton hf
      cases hs with
      | @send q s t k a w hw ha =>
        exact ⟨k, s, a, Run.checks h₀ hm h t k (List.mem_of_getElem? hw), ha, rfl⟩

end Crew
end Triage
