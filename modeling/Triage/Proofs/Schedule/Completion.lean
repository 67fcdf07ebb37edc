import Mathlib.Logic.Relation
import Triage.Proofs.Schedule.Collection

set_option autoImplicit true

namespace Triage

/-- Steps for which the ceiling does not pass, and in which `out` is found about the files. -/
structure InTime (out : String → Finding) (tr : List Event) : Prop where
  no_ceiling : .ceiling ∉ tr
  found : ∀ t f, .sent t f ∈ tr → f = out t.file

theorem InTime.append (h : InTime out a) (h' : InTime out b) : InTime out (a ++ b) where
  no_ceiling hm := (List.mem_append.mp hm).elim h.no_ceiling h'.no_ceiling
  found t f hm := (List.mem_append.mp hm).elim (h.found t f) (h'.found t f)

namespace Crew

variable {C : Crew κ σ} {out : String → Finding}

def Move (C : Crew κ σ) (x y : κ × σ) : Prop := C.moves x.1 x.2 y.1 y.2

theorem Run.moves (out : String → Finding) {q : Schedule κ} {w : Nat} (hw : w < q.workers.length)
    (h : Relation.ReflTransGen C.Move x y) :
    ∃ tr, C.Run ⟨q.check w t x.1, x.2⟩ tr ⟨q.check w t y.1, y.2⟩ ∧ InTime out tr := by
  induction h with
  | refl => exact ⟨[], .refl, nofun, nofun⟩
  | @tail y z h hm ih =>
    obtain ⟨tr, hr, ht⟩ := ih
    have hs : C.Step ⟨q.check w t y.1, y.2⟩ (.moved t) ⟨(q.check w t y.1).check w t z.1, z.2⟩ :=
      .move w (List.getElem?_set_self hw) hm
    have he : (q.check w t y.1).check w t z.1 = q.check w t z.1 := by
      simp only [Schedule.check, Schedule.put, List.set_set]
    rw [he] at hs
    exact ⟨_, hr.snoc hs, ht.append ⟨by simp, by simp⟩⟩

theorem Run.begins {q : Schedule κ} {i w : Nat} {s : σ} (hq : q.queue[i]? = some t)
    (hw : q.workers[w]? = some .idle) (ha : q.abandoned = false) :
    C.Run ⟨q, s⟩ [.assigned t, .looked t false, .began t]
      ⟨({ q with queue := q.queue.eraseIdx i } : Schedule κ).check w t (C.start t.file s).1,
        (C.start t.file s).2⟩ := by
  have hl := (List.getElem?_eq_some_iff.mp hw).1
  let q' : Schedule κ := { q with queue := q.queue.eraseIdx i }
  have hp (x : Worker κ) : (q'.put w x).workers[w]? = some x := List.getElem?_set_self hl
  have hpp (x y : Worker κ) : (q'.put w x).put w y = q'.put w y := by
    simp only [Schedule.put, List.set_set]
  have h₁ : C.Step ⟨q, s⟩ (.assigned t) ⟨q'.put w (.starting t), s⟩ := .assign i w hq hw
  have h₂ : C.Step ⟨q'.put w (.starting t), s⟩ (.looked t false) ⟨q'.put w (.cleared t), s⟩ := by
    have hs : C.Step ⟨q'.put w (.starting t), s⟩ (.looked t q.abandoned) _ := .look w (hp _)
    rwa [ha, Schedule.look_of_not_abandoned (s := q'.put w (.starting t)) ha, hpp] at hs
  have h₃ : C.Step ⟨q'.put w (.cleared t), s⟩ (.began t)
      ⟨q'.check w t (C.start t.file s).1, (C.start t.file s).2⟩ := by
    have hs : C.Step ⟨q'.put w (.cleared t), s⟩ (.began t) _ := .check w (hp _)
    rwa [Schedule.check, hpp] at hs
  exact ((Trace.single h₁).snoc h₂).snoc h₃

theorem Run.ends {q : Schedule κ} {w : Nat} {s : σ} (hw : q.workers[w]? = some (.checking t k))
    (ha : C.answer? k s = some a) :
    C.Run ⟨q, s⟩ [.sent t (a.finding t.file), .released]
      ⟨(q.deliver w (a.finding t.file)).release w, s⟩ :=
  (Trace.single (.send w hw ha)).snoc
    (.release w (List.getElem?_set_self (List.getElem?_eq_some_iff.mp hw).1))

/-- An idle worker can go through with any task that waits, from the beginning of the check to its
end. -/
theorem Run.pass {q : Schedule κ} {i w : Nat} (hq : q.queue[i]? = some t)
    (hw : q.workers[w]? = some .idle) (ha : q.abandoned = false)
    (hm : Relation.ReflTransGen C.Move (C.start t.file s) (k, s')) (hk : C.answer? k s' = some a)
    (ho : a.finding t.file = out t.file) :
    ∃ tr, C.Run ⟨q, s⟩ tr ⟨{ q with
        queue := q.queue.eraseIdx i, mailbox := q.mailbox ++ [out t.file] }, s'⟩ ∧
      InTime out tr := by
  have hl := (List.getElem?_eq_some_iff.mp hw).1
  let q' : Schedule κ := { q with queue := q.queue.eraseIdx i }
  have h₁ : C.Run ⟨q, s⟩ _ ⟨q'.check w t _, _⟩ := Run.begins (C := C) (s := s) hq hw ha
  obtain ⟨tr, h₂, ht⟩ := Run.moves (C := C) (t := t) (q := q') out hl hm
  have h₃ : C.Run ⟨q'.check w t k, s'⟩ [.sent t (a.finding t.file), .released] _ :=
    Run.ends (List.getElem?_set_self hl) hk
  have he : ((q'.check w t k).deliver w (out t.file)).release w =
      { q' with mailbox := q.mailbox ++ [out t.file] } := by
    simp only [Schedule.release, Schedule.deliver, Schedule.check, Schedule.put, List.set_set, q',
      set_of_getElem? hw]
  rw [ho, he] at h₃
  exact ⟨_, (h₁.append h₂).append h₃, .append (.append ⟨by simp, by simp⟩ ht) ⟨by simp, by simp⟩⟩

theorem Run.pass_all (out : String → Finding) {q : Schedule κ} {s : σ}
    (hw : q.workers[0]? = some .idle)
    (ha : q.abandoned = false)
    (hk : ∀ t ∈ q.queue, ∃ k a, Relation.ReflTransGen C.Move (C.start t.file s) (k, s) ∧
      C.answer? k s = some a ∧ a.finding t.file = out t.file) :
    ∃ tr, C.Run ⟨q, s⟩ tr ⟨{ q with
        queue := [], mailbox := q.mailbox ++ q.queue.map fun t => out t.file }, s⟩ ∧
      InTime out tr := by
  obtain ⟨ts, hq⟩ : ∃ ts, q.queue = ts := ⟨_, rfl⟩
  induction ts generalizing q with
  | nil =>
    refine ⟨[], ?_, nofun, nofun⟩
    rw [hq, List.map_nil, List.append_nil, ← hq]
    exact .refl
  | cons t ts ih =>
    obtain ⟨k, a, hm, hk₀, ho⟩ := hk t (hq ▸ List.mem_cons_self)
    obtain ⟨tr, hr, ht⟩ := Run.pass (C := C) (i := 0) (by rw [hq]; rfl) hw ha hm hk₀ ho
    rw [hq, List.eraseIdx_cons_zero] at hr
    obtain ⟨tr', hr', ht'⟩ := ih (q := { q with queue := ts, mailbox := q.mailbox ++ [out t.file] })
      hw ha (fun u hu => hk u (hq ▸ List.mem_cons_of_mem _ hu)) rfl
    refine ⟨tr ++ tr', ?_, ht.append ht'⟩
    rw [hq, List.map_cons, List.append_cons]
    exact hr.append hr'

theorem Run.receive_all (out : String → Finding) {q : Schedule κ} {s : σ}
    (hc : q.collector = .receiving)
    (hl : q.collected.length + q.mailbox.length = q.expected) :
    ∃ tr, C.Run ⟨q, s⟩ tr ⟨{ q with mailbox := [], collected := q.collected ++ q.mailbox }, s⟩ ∧
      InTime out tr := by
  obtain ⟨fs, hq⟩ : ∃ fs, q.mailbox = fs := ⟨_, rfl⟩
  induction fs generalizing q with
  | nil =>
    refine ⟨[], ?_, nofun, nofun⟩
    rw [hq, List.append_nil, ← hq]
    exact .refl
  | cons f fs ih =>
    have hf : q.full = false := by
      simp only [Schedule.full, decide_eq_false_iff_not, hq, List.length_cons] at hl ⊢
      omega
    have hs : C.Step ⟨q, s⟩ (.received f) ⟨q.receive, s⟩ := .receive hc hf hq
    rw [Schedule.receive_eq hq] at hs
    obtain ⟨tr, hr, ht⟩ := ih (q := { q with mailbox := fs, collected := q.collected ++ [f] }) hc
      (by simp only [hq, List.length_append, List.length_cons, List.length_nil] at hl ⊢; omega) rfl
    refine ⟨[.received f] ++ tr, ?_, InTime.append ⟨by simp, by simp⟩ ht⟩
    rw [hq, List.append_cons]
    exact (Trace.single hs).append hr

/-- A batch whose checks all come to an end can be collected whole before the ceiling passes. -/
theorem Run.exists_returned (C : Crew κ σ) (n : Nat) (files : List String) (s : σ)
    (hk : ∀ file ∈ files, ∃ k a, Relation.ReflTransGen C.Move (C.start file s) (k, s) ∧
      C.answer? k s = some a ∧ a.finding file = out file) :
    ∃ tr p, C.Run (.start n files s) tr p ∧
      p.schedule.returned? = some ⟨files.map out, files.length⟩ ∧ InTime out tr := by
  have hw : (Schedule.start n files : Schedule κ).workers[0]? = some .idle :=
    List.getElem?_replicate_of_lt (Nat.lt_of_lt_of_le Nat.zero_lt_one (Nat.le_max_right n 1))
  have hf : ((Schedule.tasksOf files).map fun t => out t.file) = files.map out := by
    conv_rhs => rw [← Schedule.map_file_tasksOf files, List.map_map]
    rfl
  obtain ⟨a, ha, hta⟩ := Run.pass_all (C := C) (s := s) out hw rfl fun t ht =>
    hk t.file (List.mem_of_getElem? (Schedule.getElem?_place ht))
  rw [show (Schedule.start n files : Schedule κ).queue = Schedule.tasksOf files from rfl, hf] at ha
  obtain ⟨b, hb, htb⟩ := Run.receive_all (C := C) (s := s) out
    (q := { Schedule.start n files with queue := [], mailbox := files.map out })
    rfl (by simp [Schedule.start])
  have hq : ({ Schedule.start n files with
      queue := [], mailbox := [], collected := files.map out } : Schedule κ).full = true := by
    simp [Schedule.full, Schedule.start]
  refine ⟨_, _, (ha.append hb).snoc (.complete rfl hq), rfl, (hta.append htb).append ⟨?_, ?_⟩⟩ <;>
    simp

end Crew
end Triage
