import Triage.Proofs.Registry.Crowd
import Triage.Proofs.Run.Course

set_option autoImplicit true

open scoped List

namespace Triage

theorem Registry.register?_of_not_mem {r r' : Registry} (h : r.register? child = some r')
    (hn : child ∉ r.live) : r' = { r with live := child :: r.live } := by
  unfold register? at h
  split at h
  · cases h
  · split at h
    next hc => exact absurd (List.contains_iff_mem.mp hc) hn
    next => exact (Option.some.inj h).symm

theorem Registry.unregister_cons {r : Registry} (hn : child ∉ r.live) :
    unregister { r with live := child :: r.live } child = r := by
  have hf : r.live.filter (· ≠ child) = r.live := by
    rw [List.filter_eq_self]
    intro pid hm
    exact decide_eq_true fun he => hn (he ▸ hm)
  rw [unregister, List.filter_cons_of_neg (by simp), hf]

structure Solo (σ : Type) where
  phase : Run.Phase
  registry : Registry
  system : σ

namespace Solo

/-- One step and its calls.  Only the system may do anything between two steps of the run. -/
inductive Step (sys : System σ) (c : Command) : Solo σ → List Call → Solo σ → Prop
  | own {phase r s phase' r' s' calls}
      (h : Run.step sys.logged c phase r (s, []) = (phase', r', s', calls)) :
      Step sys c ⟨phase, r, s⟩ calls ⟨phase', r', s'⟩
  | elsewhere {phase r s s'} : Step sys c ⟨phase, r, s⟩ [] ⟨phase, r, s'⟩

abbrev History (sys : System σ) (c : Command) : Solo σ → List (List Call) → Solo σ → Prop :=
  Trace (Step sys c)

def launched (tr : List (List Call)) : List Pid := tr.flatten.filterMap Call.launched?

def reaped (tr : List (List Call)) : List Pid := tr.flatten.filterMap Call.reaped?

theorem launched_snoc (tr : List (List Call)) (calls : List Call) :
    launched (tr ++ [calls]) = launched tr ++ calls.filterMap Call.launched? := by
  simp [launched]

theorem reaped_snoc (tr : List (List Call)) (calls : List Call) :
    reaped (tr ++ [calls]) = reaped tr ++ calls.filterMap Call.reaped? := by
  simp [reaped]

/-- What a run has done to the registry that was `r`, and which child it still has to reap. -/
def Balance (r : Registry) (launched reaped : List Pid) : Hold → Registry → Prop
  | .free, q => q = r ∧ launched ~ reaped
  | .fresh child, q => q = r ∧ child ∉ r.live ∧ launched ~ child :: reaped
  | .tracked child, q =>
    q = { r with live := child :: r.live } ∧ child ∉ r.live ∧ launched ~ child :: reaped
  | .spent child, q =>
    q = { r with live := child :: r.live } ∧ child ∉ r.live ∧ launched ~ reaped

theorem Balance.move (h : Balance r ls rs x q) (hm : Hold.Move x q calls y q')
    (hn : ∀ child ∈ calls.filterMap Call.launched?, child ∉ r.live) :
    Balance r (ls ++ calls.filterMap Call.launched?) (rs ++ calls.filterMap Call.reaped?) y q' := by
  have hreap {child : Pid} (hp : ls ~ child :: rs) : ls ++ [] ~ rs ++ [child] := by
    rw [List.append_nil]
    exact hp.trans (List.perm_append_singleton child rs).symm
  cases hm with
  | stay =>
    simp only [List.filterMap_nil, List.append_nil]
    exact h
  | launch child =>
    obtain ⟨rfl, hp⟩ := h
    refine ⟨rfl, hn child List.mem_cons_self, ?_⟩
    calc ls ++ [child]
      _ ~ rs ++ [child] := hp.append_right _
      _ ~ child :: rs := List.perm_append_singleton child rs
      _ = child :: (rs ++ []) := by rw [List.append_nil]
  | register child hr =>
    obtain ⟨rfl, hc, hp⟩ := h
    simp only [List.filterMap_nil, List.append_nil]
    exact ⟨Registry.register?_of_not_mem hr hc, hc, hp⟩
  | terminate child =>
    obtain ⟨rfl, -, hp⟩ := h
    exact ⟨rfl, hreap hp⟩
  | reap child hc =>
    obtain ⟨rfl, hl, hp⟩ := h
    rcases hc with rfl | rfl
    · exact ⟨rfl, hl, hreap hp⟩
    · exact ⟨rfl, hl, hreap hp⟩
  | leave child =>
    obtain ⟨rfl, hc, hp⟩ := h
    simp only [List.filterMap_nil, List.append_nil]
    exact ⟨Registry.unregister_cons hc, hp⟩

variable {sys : System σ} {c : Command} {r : Registry}

theorem Step.balance (h : Step sys c p calls q) (hb : Balance r ls rs p.phase.hold p.registry)
    (hn : ∀ child ∈ calls.filterMap Call.launched?, child ∉ r.live) :
    Balance r (ls ++ calls.filterMap Call.launched?) (rs ++ calls.filterMap Call.reaped?)
      q.phase.hold q.registry := by
  cases h with
  | own h => exact hb.move (Run.step_move sys c _ _ _ h) hn
  | elsewhere => exact hb.move .stay hn

theorem History.balance (h : History sys c ⟨.admission, r, s⟩ tr p)
    (hn : ∀ child ∈ launched tr, child ∉ r.live) :
    Balance r (launched tr) (reaped tr) p.phase.hold p.registry := by
  induction h with
  | refl => exact ⟨rfl, .nil⟩
  | snoc h hs ih =>
    rw [launched_snoc] at hn ⊢
    rw [reaped_snoc]
    have hb := ih fun child hm => hn child (List.mem_append_left _ hm)
    exact hs.balance hb fun child hm => hn child (List.mem_append_right _ hm)

def Overruns (sys : System σ) (c : Command) (s : σ) : Prop :=
  ∃ d, c.timeout = some d ∧ Clock.deadline? (sys.now s) d = none

theorem crashed_of_step {x : Run.Phase}
    (h : Run.step sys.logged c x q (s, []) = (.crashed child, q', s', calls)) :
    x = .crashed child ∨ x = .starting child ∧ Overruns sys c s := by
  have hs := Run.step_cases sys.logged c x q (s, [])
  rw [h] at hs
  generalize Run.sight sys.logged c x q (s, []) = l at hs
  cases hs with
  | crash ht hd => exact .inr ⟨rfl, _, ht, hd⟩
  | broken => exact .inl rfl

theorem History.overruns (h : History sys c p tr q) (hp : p.phase = .admission)
    (hq : q.phase = .crashed child) : ∃ a b m, History sys c p a m ∧ History sys c m b q ∧
      m.phase = .starting child ∧ Overruns sys c m.system := by
  induction h with
  | refl =>
    rw [hp] at hq
    cases hq
  | @snoc tr q e z h hs ih =>
    -- Once it has broken off, a run has done so for the same reason ever after.
    have hold (hx : q.phase = .crashed child) : ∃ a b m, History sys c p a m ∧
        History sys c m b z ∧ m.phase = .starting child ∧ Overruns sys c m.system := by
      obtain ⟨a, b, m, ha, hb, hm⟩ := ih hx
      exact ⟨a, b ++ [e], m, ha, hb.snoc hs, hm⟩
    cases hs with
    | own hs =>
      cases hq
      rcases crashed_of_step hs with hx | ⟨hx, ho⟩
      · exact hold hx
      · exact ⟨tr, [e], _, h, .single (.own hs), hx, ho⟩
    | elsewhere => exact hold hq

/-- A run that has a registry to itself leaves it as it found it when it ends, however that comes
about, and has reaped every child that it launched.  Only if the clock could not hold the deadline
of its child does it break off instead: that child stays live, and is not reaped.  Until then it
waits for its child or gets on. -/
theorem registry_as_found (sys : System σ) (c : Command) (r : Registry) (s : σ)
    {tr : List (List Call)} {p : Solo σ} (h : History sys c ⟨.admission, r, s⟩ tr p)
    (hn : ∀ child ∈ launched tr, child ∉ r.live) :
    (∀ x, p.phase = .ended x → p.registry = r ∧ launched tr ~ reaped tr) ∧
    (∀ child, p.phase = .crashed child → p.registry = { r with live := child :: r.live } ∧
      launched tr ~ child :: reaped tr ∧
      ∃ a b q, History sys c ⟨.admission, r, s⟩ a q ∧ History sys c q b p ∧
        q.phase = .starting child ∧ Overruns sys c q.system) ∧
    ((∀ x, p.phase ≠ .ended x) → (∀ child, p.phase ≠ .crashed child) →
      Run.Waits sys p.system p.phase ∨
        (Run.step sys c p.phase p.registry p.system).1.due < p.phase.due) := by
  have hb := h.balance hn
  refine ⟨?_, ?_, ?_⟩
  · intro x hx
    rw [hx] at hb
    exact hb
  · intro child hx
    rw [hx] at hb
    obtain ⟨hr, -, hl⟩ := hb
    exact ⟨hr, hl, h.overruns rfl hx⟩
  · intro he hc
    exact or_iff_not_imp_left.mpr fun hw => Run.step_due p.registry p.system hw he hc

def briefChild : System Unit where
  now _ := 0
  launch _ s := (.ok 1, s)
  ending? _ _ := .ok (some (.exited 0))
  reap _ s := s
  killGroup _ s := s
  silent _ _ := true
  recording _ _ := {}

theorem registry_as_found_by_briefChild : ∃ tr p x,
    History briefChild { program := "true" } ⟨.admission, { live := [7] }, ()⟩ tr p ∧
      launched tr = [1] ∧ p.phase = .ended x ∧ p.registry = { live := [7] } ∧
      launched tr ~ reaped tr := by
  have h : History briefChild { program := "true" } ⟨.admission, { live := [7] }, ()⟩ [] _ := .refl
  have h := ((h.snoc (.own rfl)).snoc (.own rfl)).snoc (.own rfl)
  have h := ((h.snoc (.own rfl)).snoc (.own rfl)).snoc (.own rfl)
  have h := h.snoc (.own rfl)
  obtain ⟨he, -, -⟩ := registry_as_found briefChild _ { live := [7] } () h (by decide)
  obtain ⟨hr, hp⟩ := he _ rfl
  exact ⟨_, _, _, h, rfl, rfl, hr, hp⟩

def longestTimeout : Duration := Clock.seconds (Nat.pow 2 64 - 1)

/-- With that timeout a child is left behind. -/
theorem child_left_behind : ∃ tr p,
    History briefChild { program := "true", timeout := some longestTimeout }
      ⟨.admission, { live := [7] }, ()⟩ tr p ∧
      p.phase = .crashed 1 ∧ p.registry = { live := [1, 7] } ∧ launched tr = [1] ∧
      reaped tr = [] := by
  have h : History briefChild { program := "true", timeout := some longestTimeout }
    ⟨.admission, { live := [7] }, ()⟩ [] _ := .refl
  have h := ((h.snoc (.own rfl)).snoc (.own rfl)).snoc (.own rfl)
  have hd : Clock.deadline? (briefChild.logged.now ((), [])) longestTimeout = none := by decide
  have hs : Run.step briefChild.logged { program := "true", timeout := some longestTimeout }
      (.starting 1) { live := [1, 7] } ((), []) =
        (.crashed 1, { live := [1, 7] }, (), []) := by
    simp only [Run.step, hd]
  exact ⟨_, _, h.snoc (.own hs), rfl, rfl, rfl, rfl⟩

end Solo
end Triage
