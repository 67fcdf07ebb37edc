import Triage.Proofs.Registry.Crowd

set_option autoImplicit true

open scoped List

namespace Triage

theorem launched_snoc (tr : List Happening) (e : Happening) :
    launched (tr ++ [e]) = launched tr ++ e.calls.filterMap Call.launched? := by
  simp [launched]

theorem reaped_snoc (tr : List Happening) (e : Happening) :
    reaped (tr ++ [e]) = reaped tr ++ e.calls.filterMap Call.reaped? := by
  simp [reaped]

theorem signalled_snoc (tr : List Happening) (e : Happening) :
    signalled (tr ++ [e]) = signalled tr ++ e.signalled := by
  simp [signalled]

theorem cancelledIn_snoc (tr : List Happening) (e : Happening) :
    cancelledIn (tr ++ [e]) ↔ cancelledIn tr ∨ e.isCancelled = true := by
  simp [cancelledIn, or_and_right, exists_or]

namespace Hold

def child? : Hold → Option Pid
  | free => none
  | fresh child | tracked child | spent child => some child

def unreaped? : Hold → Option Pid
  | fresh child | tracked child => some child
  | _ => none

def registered? : Hold → Option Pid
  | tracked child | spent child => some child
  | _ => none

theorem filterMap_free {f : Hold → Option Pid} (h : f free = none) (hs : List Hold) :
    (hs ++ [free]).filterMap f = hs.filterMap f := by
  rw [filterMap_snoc, h, Option.toList_none, List.append_nil]

theorem count_child (hs : List Hold) (child : Pid) :
    (hs.filterMap child?).count child =
      hs.count (.fresh child) + (hs.filterMap registered?).count child := by
  induction hs with
  | nil => rfl
  | cons h hs ih =>
    cases h <;> simp [List.filterMap_cons, child?, registered?, List.count_cons, ih] <;> omega

theorem Move.child_le (h : Move x r calls y r') (pid : Pid) :
    y.child?.toList.count pid ≤
      x.child?.toList.count pid + (calls.filterMap Call.launched?).count pid := by
  cases h with
  | stay => exact Nat.le_add_right _ _
  | launch child => exact Nat.le_add_left _ _
  | register child hr => exact Nat.le_add_right _ _
  | terminate child => exact Nat.zero_le _
  | reap child hc => exact Nat.le_add_right _ _
  | leave child => exact Nat.zero_le _

theorem Move.unreaped_eq (h : Move x r calls y r') (pid : Pid) :
    (calls.filterMap Call.launched?).count pid + x.unreaped?.toList.count pid =
      (calls.filterMap Call.reaped?).count pid + y.unreaped?.toList.count pid := by
  cases h with
  | stay => rfl
  | launch child => exact Nat.add_comm _ _
  | register child hr => rfl
  | terminate child => exact Nat.add_comm _ _
  | reap child hc => rcases hc with rfl | rfl <;> exact Nat.add_comm _ _
  | leave child => rfl

theorem Move.live_eq (h : Move x r calls y r') (hn : r.live.Nodup)
    (hf : ∀ child, x = .fresh child → child ∉ r.live)
    (hs : ∀ child, x = .spent child → child ∈ r.live) (pid : Pid) :
    r'.live.count pid + x.registered?.toList.count pid =
      r.live.count pid + y.registered?.toList.count pid := by
  cases h with
  | register child hr =>
    have hl := hf child rfl
    simp only [Registry.register?, List.contains_iff_mem, hl, if_false] at hr
    split at hr <;> cases hr
    simp [registered?, List.count_cons]
  | leave child =>
    by_cases hp : pid = child
    · subst hp
      have hc := List.count_eq_one_of_mem hn (hs pid rfl)
      simp [Registry.unregister, registered?, hc, List.count_eq_zero]
    · have hc : (r.unregister child).live.count pid = r.live.count pid :=
        List.count_filter (by simpa using hp)
      simp [registered?, hc, Ne.symm hp]
  | _ => rfl

theorem mem_live {live : List Pid} {hs : List Hold}
    (h : ∀ pid, live.count pid = (hs.filterMap registered?).count pid) (hx : x ∈ hs)
    (hr : x.registered? = some pid) : pid ∈ live := by
  rw [← List.count_pos_iff, h]
  exact List.count_pos_iff.mpr (List.mem_filterMap.mpr ⟨x, hx, hr⟩)

end Hold

/-- Each child is with at most one run, and live while that run has it registered. -/
structure Held (live : List Pid) (hs : List Hold) : Prop where
  apart : ∀ pid, (hs.filterMap Hold.child?).count pid ≤ 1
  registered : ∀ pid, live.count pid = (hs.filterMap Hold.registered?).count pid

namespace Held

variable {live : List Pid} {hs : List Hold}

theorem children_le (h : Held live hs) (pid : Pid) :
    hs.count (.fresh pid) + live.count pid ≤ 1 := by
  have hc := h.apart pid
  rwa [Hold.count_child, ← h.registered pid] at hc

theorem nodup_live (h : Held live hs) : live.Nodup :=
  List.nodup_iff_count_le_one.mpr fun pid => by
    have hl := h.children_le pid
    omega

theorem not_mem_live (h : Held live hs) (hf : .fresh pid ∈ hs) : pid ∉ live := by
  intro hm
  have hl := h.children_le pid
  have hf := List.count_pos_iff.mpr hf
  have hm := List.count_pos_iff.mpr hm
  omega

theorem registered_move (h : Held r.live hs) {i : Nat} (hi : hs[i]? = some x)
    (hm : Hold.Move x r calls y r') (pid : Pid) :
    r'.live.count pid = ((hs.set i y).filterMap Hold.registered?).count pid := by
  have hx := List.mem_of_getElem? hi
  have hs := count_filterMap_set Hold.registered? hi y pid
  have hc := hm.live_eq h.nodup_live (fun child he => h.not_mem_live (he ▸ hx))
    (fun child he => Hold.mem_live h.registered (he ▸ hx) rfl) pid
  have hp := h.registered pid
  omega

end Held

/-- What becomes of the children, if all that were launched are different: each is with at most one
run, it is reaped or some run is still to reap it, and it is live while a run has it registered. -/
structure Ledger (tr : List Happening) (live : List Pid) (hs : List Hold) : Prop where
  children : ∀ pid, (hs.filterMap Hold.child?).count pid ≤ (launched tr).count pid
  unreaped : ∀ pid, (launched tr).count pid =
    (reaped tr).count pid + (hs.filterMap Hold.unreaped?).count pid
  registered : ∀ pid, live.count pid = (hs.filterMap Hold.registered?).count pid

namespace Ledger

variable {tr : List Happening} {live : List Pid} {hs : List Hold}

theorem held (h : Ledger tr live hs) (hd : (launched tr).Nodup) : Held live hs where
  apart pid := Nat.le_trans (h.children pid) (List.nodup_iff_count_le_one.mp hd pid)
  registered := h.registered

theorem nodup_live (h : Ledger tr live hs) (hd : (launched tr).Nodup) : live.Nodup :=
  (h.held hd).nodup_live

theorem not_mem_live (h : Ledger tr live hs) (hd : (launched tr).Nodup) (hf : .fresh pid ∈ hs) :
    pid ∉ live :=
  (h.held hd).not_mem_live hf

theorem reaped_or (h : Ledger tr live hs) (hp : pid ∈ launched tr) :
    pid ∈ reaped tr ∨ .fresh pid ∈ hs ∨ pid ∈ live := by
  have hu := h.unreaped pid
  have hp := List.count_pos_iff.mpr hp
  by_cases hr : pid ∈ reaped tr
  · exact .inl hr
  · rw [List.count_eq_zero.mpr hr, Nat.zero_add] at hu
    rw [hu, List.count_pos_iff] at hp
    obtain ⟨x, hx, hp⟩ := List.mem_filterMap.mp hp
    cases x with
    | fresh child =>
      cases hp
      exact .inr (.inl hx)
    | tracked child =>
      cases hp
      exact .inr (.inr (Hold.mem_live h.registered hx rfl))
    | _ => cases hp

theorem move (h : Ledger tr r.live hs) (hd : (launched tr).Nodup) {i : Nat}
    (hi : hs[i]? = some x) (hm : Hold.Move x r calls y r') (j : Nat) :
    Ledger (tr ++ [.ran j calls]) r'.live (hs.set i y) where
  children pid := by
    have hs := count_filterMap_set Hold.child? hi y pid
    have hc := hm.child_le pid
    have hp := h.children pid
    rw [launched_snoc, List.count_append]
    simp only [Happening.calls]
    omega
  unreaped pid := by
    have hs := count_filterMap_set Hold.unreaped? hi y pid
    have hc := hm.unreaped_eq pid
    have hp := h.unreaped pid
    rw [launched_snoc, reaped_snoc, List.count_append, List.count_append]
    simp only [Happening.calls]
    omega
  registered := (h.held hd).registered_move hi hm

theorem quiet (h : Ledger tr live hs) (hl : e.calls.filterMap Call.launched? = [])
    (hr : e.calls.filterMap Call.reaped? = []) : Ledger (tr ++ [e]) live hs where
  children pid := by
    rw [launched_snoc, hl, List.append_nil]
    exact h.children pid
  unreaped pid := by
    rw [launched_snoc, reaped_snoc, hl, hr, List.append_nil, List.append_nil]
    exact h.unreaped pid
  registered := h.registered

theorem free (h : Ledger tr live hs) : Ledger tr live (hs ++ [Hold.free]) where
  children pid := by
    rw [Hold.filterMap_free rfl]
    exact h.children pid
  unreaped pid := by
    rw [Hold.filterMap_free rfl]
    exact h.unreaped pid
  registered pid := by
    rw [Hold.filterMap_free rfl]
    exact h.registered pid

end Ledger

namespace Crowd

/-- What holds of a crowd after the steps `tr`, if all children that were launched are different. -/
structure Accounts (tr : List Happening) (p : Crowd σ) : Prop where
  ledger : Ledger tr p.registry.live p.holds
  cancelled : p.registry.cancelled = true ↔ cancelledIn tr
  signalled : p.registry.cancelled = true → p.registry.live ⊆ signalled tr

variable {sys : System σ}

theorem Accounts.start (s : σ) : Accounts [] (Crowd.start s) where
  ledger := ⟨fun _ => Nat.le_refl _, fun _ => rfl, fun _ => rfl⟩
  cancelled := by simp [Crowd.start, cancelledIn]
  signalled h := by cases h

theorem Accounts.keep (h : Accounts tr p) (hl : Ledger (tr ++ [e]) q.registry.live q.holds)
    (he : e.isCancelled = false) (hc : q.registry.cancelled = p.registry.cancelled)
    (hs : p.registry.cancelled = true → q.registry.live ⊆ p.registry.live) :
    Accounts (tr ++ [e]) q where
  ledger := hl
  cancelled := by
    rw [hc, cancelledIn_snoc, he]
    exact h.cancelled.trans (or_iff_left Bool.false_ne_true).symm
  signalled hq := by
    rw [hc] at hq
    rw [signalled_snoc]
    exact List.subset_append_of_subset_left _ (List.Subset.trans (hs hq) (h.signalled hq))

theorem Accounts.step (h : Accounts tr p) (hd : (launched tr).Nodup) (hs : Step sys p e q) :
    Accounts (tr ++ [e]) q := by
  have hl := h.ledger
  cases hs with
  | @call r s rs c =>
    have hf := (hl.quiet (e := .called c) rfl rfl).free
    have hh : holds ⟨r, s, rs ++ [{ command := c }]⟩ = holds ⟨r, s, rs⟩ ++ [Hold.free] :=
      List.map_append
    exact h.keep (hh ▸ hf) rfl rfl fun _ => List.Subset.refl _
  | @run r s rs c phase phase' r' s' calls i hi hs =>
    have hm := Run.step_move sys c phase r s hs
    have hi : (rs.map (·.phase.hold))[i]? = some phase.hold := by simp [hi]
    refine h.keep ?_ rfl hm.cancelled_eq hm.live_subset
    rw [holds, List.map_set]
    exact hl.move hd hi hm i
  | @cancel r s rs n r' s' calls hc =>
    rw [System.logged_cancel] at hc
    cases hc
    refine ⟨hl.quiet ?_ ?_, ?_, ?_⟩
    · simp [Happening.calls, Call.launched?]
    · simp [Happening.calls, Call.reaped?]
    · rw [cancelledIn_snoc]
      exact iff_of_true rfl (.inr rfl)
    · intro _
      rw [signalled_snoc]
      apply List.subset_append_of_subset_right
      simp [Happening.signalled, List.filterMap_map, Function.comp_def, Call.killed?]
  | elsewhere => exact h.keep (hl.quiet rfl rfl) rfl rfl fun _ => List.Subset.refl _

theorem Accounts.of_history (h : History sys (.start s) tr p) (hd : (launched tr).Nodup) :
    Accounts tr p := by
  induction h with
  | refl => exact .start s
  | snoc h hs ih =>
    rw [launched_snoc] at hd
    have hd := (List.nodup_append.mp hd).1
    exact (ih hd).step hd hs

end Crowd
end Triage
