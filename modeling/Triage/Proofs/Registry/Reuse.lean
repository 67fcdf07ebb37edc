import Triage.Proofs.Registry.Ledger

set_option autoImplicit true

namespace Triage

theorem Hold.Move.launched_le (h : Move x r calls y r') (pid : Pid) :
    (calls.filterMap Call.launched?).count pid ≤ 1 := by
  cases h with
  | stay => exact Nat.zero_le _
  | launch child => exact List.count_le_length
  | register child hr => exact Nat.zero_le _
  | terminate child => exact Nat.zero_le _
  | reap child hc => rcases hc with rfl | rfl <;> exact Nat.zero_le _
  | leave child => exact Nat.zero_le _

theorem Held.move {hs : List Hold} (h : Held r.live hs) {i : Nat}
    (hi : hs[i]? = some x) (hm : Hold.Move x r calls y r')
    (hn : ∀ pid ∈ calls.filterMap Call.launched?, pid ∉ hs.filterMap Hold.child?) :
    Held r'.live (hs.set i y) where
  apart pid := by
    have hs := count_filterMap_set Hold.child? hi y pid
    have hc := hm.child_le pid
    have hp := h.apart pid
    by_cases hl : pid ∈ calls.filterMap Call.launched?
    · have ho := hm.launched_le pid
      have hz := List.count_eq_zero.mpr (hn pid hl)
      omega
    · have hz := List.count_eq_zero.mpr hl
      omega
  registered := h.registered_move hi hm

theorem Held.free {live : List Pid} {hs : List Hold} (h : Held live hs) :
    Held live (hs ++ [Hold.free]) where
  apart pid := by
    rw [Hold.filterMap_free rfl]
    exact h.apart pid
  registered pid := by
    rw [Hold.filterMap_free rfl]
    exact h.registered pid

namespace Crowd

/-- A step that launches no child under a number that some run has as `f` tells. -/
def StepApart (sys : System σ) (f : Hold → Option Pid) (p : Crowd σ) (e : Happening)
    (q : Crowd σ) : Prop :=
  Step sys p e q ∧ ∀ pid ∈ e.calls.filterMap Call.launched?, pid ∉ p.holds.filterMap f

variable {sys : System σ}

theorem StepApart.held (h : Held p.registry.live p.holds) (hs : StepApart sys Hold.child? p e q) :
    Held q.registry.live q.holds := by
  obtain ⟨hs, hn⟩ := hs
  cases hs with
  | @call r s rs c =>
    have hh : holds ⟨r, s, rs ++ [{ command := c }]⟩ = holds ⟨r, s, rs⟩ ++ [Hold.free] :=
      List.map_append
    rw [hh]
    exact h.free
  | @run r s rs c phase phase' r' s' calls i hi hs =>
    have hm := Run.step_move sys c phase r s hs
    have hi : (rs.map (·.phase.hold))[i]? = some phase.hold := by simp [hi]
    rw [holds, List.map_set]
    exact h.move hi hm hn
  | cancel hc =>
    rw [System.logged_cancel] at hc
    cases hc
    exact h
  | elsewhere => exact h

/-- If every child is launched under a number that no run has then each child that is registered and
not reaped is live, and cancelling the registry kills it. -/
theorem cancel_kills_registered (sys : System σ) (s : σ)
    (h : Trace (StepApart sys Hold.child?) (.start s) tr p) (hr : .tracked pid ∈ p.holds) :
    pid ∈ p.registry.live ∧
      ∀ n calls q, Step sys p (.cancelled n calls) q → .killed pid ∈ calls := by
  have hh : Held p.registry.live p.holds :=
    h.invariant (I := fun _ p => Held p.registry.live p.holds)
      ⟨fun _ => Nat.zero_le _, fun _ => rfl⟩ StepApart.held
  have hl := Hold.mem_live hh.registered hr rfl
  refine ⟨hl, fun n calls q hs => ?_⟩
  cases hs with
  | cancel hc =>
    rw [System.logged_cancel] at hc
    cases hc
    exact List.mem_map_of_mem hl

/-- It does not do if only the children that run and those that have not been reaped have different
numbers: the second child here is given the number of the first, which its run has reaped but not yet
taken off the registry.  Cancelling then kills nothing, though the second child runs. -/
theorem registered_out_of_reach :
    ∃ (sys : System Nat) (tr : List Happening) (p q : Crowd Nat),
      Trace (StepApart sys Hold.unreaped?) (.start 0) tr p ∧ .tracked 5 ∈ p.holds ∧
        5 ∉ p.registry.live ∧ Step sys p (.cancelled 0 []) q := by
  let sys : System Nat := ⟨fun n => n, fun _ n => (.ok 5, n), fun _ _ => .ok (some (.exited 0)),
    fun _ n => n, fun _ n => n, fun _ _ => true, fun _ _ => {}⟩
  let c : Command := { program := "true" }
  have h : Trace (StepApart sys Hold.unreaped?) (.start 0) [] _ := .refl
  have h := (h.snoc ⟨.call c, by simp [Happening.calls]⟩).snoc ⟨.call c, by simp [Happening.calls]⟩
  have h := ((((h.snoc ⟨.run 0 rfl rfl, by decide⟩).snoc ⟨.run 0 rfl rfl, by decide⟩).snoc
    ⟨.run 0 rfl rfl, by decide⟩).snoc ⟨.run 0 rfl rfl, by decide⟩).snoc ⟨.run 0 rfl rfl, by decide⟩
  have h := ((h.snoc ⟨.run 1 rfl rfl, by decide⟩).snoc ⟨.run 1 rfl rfl, by decide⟩).snoc
    ⟨.run 1 rfl rfl, by decide⟩
  have h := (h.snoc ⟨.run 0 rfl rfl, by decide⟩).snoc ⟨.run 0 rfl rfl, by decide⟩
  exact ⟨sys, _, _, _, h, by decide, by decide, .cancel rfl⟩

end Crowd
end Triage
