import Triage.Proofs.Registry.Ledger

set_option autoImplicit true

open scoped List

namespace Triage

namespace Run

/-- What a run does that has launched `child` but not registered it, once the registry is cancelled:
its phase after so many steps, and its calls until then. -/
def refusal (c : Command) (child : Pid) : Nat → Phase × List Call
  | 0 => (.registering child, [])
  | 1 => (.refusing child, [])
  | _ => (.ended (.error (.cancelled c.program)), [.killed child, .reaped child])

def rejection (c : Command) : Nat → Phase × List Call
  | 0 => (.admission, [])
  | _ => (.ended (.error (.cancelled c.program)), [])

/-- Every step of a run takes it further on its course, whatever the system is like. -/
def Follows (sys : System σ) (c : Command) (course : Nat → Phase × List Call) : Prop :=
  ∀ k r s, r.cancelled = true → ∃ r' s' calls,
    step sys.logged c (course k).1 r (s, []) = ((course (k + 1)).1, r', s', calls) ∧
      (course (k + 1)).2 = (course k).2 ++ calls

theorem follows_refusal (sys : System σ) (c : Command) (child : Pid) :
    Follows sys c (refusal c child) := by
  intro k r s hc
  match k with
  | 0 =>
    refine ⟨r, s, [], ?_, rfl⟩
    simp only [refusal, step, Registry.register?_eq_none.mpr hc]
  | 1 => exact ⟨_, _, _, rfl, rfl⟩
  | _ + 2 => exact ⟨r, s, [], rfl, rfl⟩

theorem follows_rejection (sys : System σ) (c : Command) : Follows sys c (rejection c) := by
  intro k r s hc
  match k with
  | 0 =>
    refine ⟨r, s, [], ?_, rfl⟩
    simp only [rejection, step, hc, if_true]
  | _ + 1 => exact ⟨r, s, [], rfl, rfl⟩

end Run

namespace Crowd

variable {sys : System σ}

theorem Step.cancelled (h : Step sys p e q) (hc : p.registry.cancelled = true) :
    q.registry.cancelled = true ∧ q.registry.live ⊆ p.registry.live := by
  cases h with
  | call c => exact ⟨hc, List.Subset.refl _⟩
  | run i hi hs =>
    have hm := Run.step_move sys _ _ _ _ hs
    exact ⟨hm.cancelled_eq.trans hc, hm.live_subset hc⟩
  | cancel ho =>
    rw [System.logged_cancel] at ho
    cases ho
    exact ⟨rfl, List.Subset.refl _⟩
  | elsewhere => exact ⟨hc, List.Subset.refl _⟩

theorem History.cancelled (h : History sys p tr q) (hc : p.registry.cancelled = true) :
    q.registry.cancelled = true ∧ q.registry.live ⊆ p.registry.live := by
  induction h with
  | refl => exact ⟨hc, List.Subset.refl _⟩
  | snoc h hs ih =>
    have hr := hs.cancelled ih.1
    exact ⟨hr.1, List.Subset.trans hr.2 ih.2⟩

theorem Step.runs (h : Step sys p e q) (hi : p.runs[i]? = some ⟨c, phase⟩) :
    (∃ calls phase', e = .ran i calls ∧ q.runs[i]? = some ⟨c, phase'⟩ ∧
      Run.step sys.logged c phase p.registry (p.system, []) =
        (phase', q.registry, q.system, calls)) ∨
    (e.isOf i = false ∧ q.runs[i]? = some ⟨c, phase⟩) := by
  have hl := (List.getElem?_eq_some_iff.mp hi).1
  cases h with
  | call d => exact .inr ⟨rfl, (List.getElem?_append_left hl).trans hi⟩
  | @run r s rs d ph phase' r' s' calls j hj hs =>
    by_cases he : j = i
    · subst he
      rw [hi] at hj
      cases hj
      exact .inl ⟨calls, phase', rfl, List.getElem?_set_self hl, hs⟩
    · exact .inr ⟨by simpa [Happening.isOf] using he, (List.getElem?_set_ne he).trans hi⟩
  | cancel hc => exact .inr ⟨rfl, hi⟩
  | elsewhere => exact .inr ⟨rfl, hi⟩

theorem stepsOf_snoc (i : Nat) (tr : List Happening) (e : Happening) :
    stepsOf i (tr ++ [e]) = stepsOf i tr + (if e.isOf i = true then 1 else 0) := by
  simp [stepsOf, List.countP_append, List.countP_singleton]

theorem callsOf_snoc (i : Nat) (tr : List Happening) (e : Happening) :
    callsOf i (tr ++ [e]) = callsOf i tr ++ (if e.isOf i = true then e.calls else []) := by
  simp only [callsOf, List.filter_append, List.flatMap_append, List.filter_singleton]
  cases e.isOf i <;> simp

theorem History.follows {course : Nat → Run.Phase × List Call} (h : History sys p tr q)
    (hf : Run.Follows sys c course) (hc : p.registry.cancelled = true)
    (hi : p.runs[i]? = some ⟨c, (course k).1⟩) :
    q.runs[i]? = some ⟨c, (course (k + stepsOf i tr)).1⟩ ∧
      (course (k + stepsOf i tr)).2 = (course k).2 ++ callsOf i tr := by
  induction h with
  | refl => exact ⟨hi, (List.append_nil _).symm⟩
  | @snoc tr q e r h hs ih =>
    obtain ⟨hq, ho⟩ := ih
    rw [stepsOf_snoc, callsOf_snoc]
    rcases hs.runs hq with ⟨calls, phase, rfl, hr, hs⟩ | ⟨he, hr⟩
    · obtain ⟨r', s', calls', hs', hn⟩ := hf (k + stepsOf i tr) _ q.system (History.cancelled h hc).1
      rw [hs'] at hs
      cases hs
      simp only [Happening.isOf, decide_true, if_true, Happening.calls]
      exact ⟨hr, by rw [← Nat.add_assoc, hn, ho, List.append_assoc]⟩
    · simp only [he, Bool.false_eq_true, if_false, Nat.add_zero, List.append_nil]
      exact ⟨hr, ho⟩

/-- No child outlives the cancelling of a registry unnoticed, whatever order the runs on it take
their steps in.  The registry stays cancelled.  Every child that was launched is then reaped, or was
killed because the registry was cancelled, or is with a run that only kills it and gives up; a run
that has not been admitted launches nothing; and no child is added to the registry.  Cancelling
answers how many children are live, and kills those. -/
theorem no_child_outlives_cancelling (sys : System σ) (s : σ) (h : History sys (.start s) tr p)
    (hd : (launched tr).Nodup) :
    (p.registry.cancelled = true ↔ cancelledIn tr) ∧
    (∀ tr' q, History sys p tr' q → p.registry.cancelled = true → q.registry.cancelled = true) ∧
    (cancelledIn tr → ∀ pid ∈ launched tr, pid ∈ reaped tr ∨ pid ∈ signalled tr ∨
      ∃ i c k, k < 2 ∧ p.runs[i]? = some ⟨c, (Run.refusal c pid k).1⟩ ∧
        ∀ tr' q, History sys p tr' q → pid ∉ q.registry.live ∧
          q.runs[i]? = some ⟨c, (Run.refusal c pid (k + stepsOf i tr')).1⟩ ∧
          callsOf i tr' = (Run.refusal c pid (k + stepsOf i tr')).2) ∧
    (cancelledIn tr → ∀ i c, p.runs[i]? = some ⟨c, .admission⟩ → ∀ tr' q, History sys p tr' q →
      q.runs[i]? = some ⟨c, (Run.rejection c (stepsOf i tr')).1⟩ ∧ callsOf i tr' = []) ∧
    (cancelledIn tr → ∀ tr' q, History sys p tr' q → q.registry.live ⊆ p.registry.live) ∧
    (∀ n calls q, Step sys p (.cancelled n calls) q → p.registry.live.Nodup ∧
      n = p.registry.live.length ∧ calls = p.registry.live.map .killed) := by
  have hA := Accounts.of_history h hd
  refine ⟨hA.cancelled, fun tr' q hq hc => (hq.cancelled hc).1, ?_, ?_, ?_, ?_⟩
  · intro hc pid hp
    have hc := hA.cancelled.mpr hc
    rcases hA.ledger.reaped_or hp with hr | hf | hl
    · exact .inl hr
    · have hn := hA.ledger.not_mem_live hd hf
      obtain ⟨x, hx, hh⟩ := List.mem_map.mp hf
      obtain ⟨i, hi⟩ := List.getElem?_of_mem hx
      obtain ⟨k, hk, hx⟩ : ∃ k, k < 2 ∧ x.phase = (Run.refusal x.command pid k).1 := by
        cases hx : x.phase <;> rw [hx] at hh <;> cases hh
        · exact ⟨0, Nat.two_pos, rfl⟩
        · exact ⟨1, Nat.one_lt_two, rfl⟩
      have hi : p.runs[i]? = some ⟨x.command, (Run.refusal x.command pid k).1⟩ := hx ▸ hi
      refine .inr (.inr ⟨i, x.command, k, hk, hi, fun tr' q hq => ?_⟩)
      obtain ⟨hr, ho⟩ := hq.follows (Run.follows_refusal sys x.command pid) hc hi
      refine ⟨fun hm => hn ((hq.cancelled hc).2 hm), hr, ?_⟩
      have hk : (Run.refusal x.command pid k).2 = [] := by
        match k with
        | 0 | 1 => rfl
      rw [ho, hk, List.nil_append]
    · exact .inr (.inl (hA.signalled hc hl))
  · intro hc i c hi tr' q hq
    have hf := hq.follows (Run.follows_rejection sys c) (hA.cancelled.mpr hc) (k := 0) hi
    rw [Nat.zero_add] at hf
    refine ⟨hf.1, ?_⟩
    cases hn : stepsOf i tr' <;> rw [hn] at hf <;> exact hf.2.symm
  · exact fun hc tr' q hq => (hq.cancelled (hA.cancelled.mpr hc)).2
  · intro n calls q hs
    cases hs with
    | cancel hc =>
      rw [System.logged_cancel] at hc
      cases hc
      exact ⟨hA.ledger.nodup_live hd, rfl, rfl⟩

theorem no_child_of_two_outlives_cancelling :
    ∃ (sys : System Nat) (tr : List Happening) (p : Crowd Nat), History sys (.start 0) tr p ∧
      launched tr = [1, 2] ∧ cancelledIn tr ∧ reaped tr = [] ∧ signalled tr = [1] ∧
      ∃ (i : Nat) (c : Command) (k : Nat), k < 2 ∧
        p.runs[i]? = some ⟨c, (Run.refusal c 2 k).1⟩ := by
  let sys : System Nat := ⟨fun n => n, fun _ n => (.ok (n + 1), n + 1), fun _ _ => .ok none,
    fun _ n => n, fun _ n => n, fun _ _ => true, fun _ _ => {}⟩
  let c : Command := { program := "true" }
  let tr : List Happening := [.called c, .called c, .ran 0 [], .ran 0 [.launched 1], .ran 0 [],
    .ran 1 [], .ran 1 [.launched 2], .cancelled 1 [.killed 1]]
  have h : History sys (.start 0) [] _ := .refl
  have h := (h.snoc (.call c)).snoc (.call c)
  have h := ((h.snoc (.run 0 rfl rfl)).snoc (.run 0 rfl rfl)).snoc (.run 0 rfl rfl)
  have h := (h.snoc (.run 1 rfl rfl)).snoc (.run 1 rfl rfl)
  have h : History sys (.start 0) tr _ := h.snoc (.cancel rfl)
  have hl : launched tr = [1, 2] := rfl
  have hc : cancelledIn tr := ⟨.cancelled 1 [.killed 1], by simp [tr], rfl⟩
  have hr : reaped tr = [] := rfl
  have hs : signalled tr = [1] := rfl
  obtain ⟨-, -, hp, -⟩ := no_child_outlives_cancelling sys 0 h (by rw [hl]; decide)
  rcases hp hc 2 (by rw [hl]; decide) with hp | hp | ⟨i, c, k, hk, hi, -⟩
  · rw [hr] at hp
    cases hp
  · rw [hs] at hp
    cases List.eq_of_mem_singleton hp
  · exact ⟨sys, tr, _, h, hl, hc, hr, hs, i, c, k, hk, hi⟩

end Crowd
end Triage
