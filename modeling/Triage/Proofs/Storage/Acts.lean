import Triage.Proofs.Trace
import Triage.Storage

set_option autoImplicit true

namespace Triage.Storage

inductive Act (η : Type)
  | create (path : String) (file : Option η)
  | write (file : η) (bytes : Bytes) (done : Bool)
  deriving DecidableEq, Repr

namespace Act

def done : Act η → Bool
  | create _ file => file.isSome
  | write _ _ done => done

def bytes : Act η → Bytes
  | create .. => []
  | write _ bytes _ => bytes

end Act

/-- A storage that also notes what it is asked. -/
def logged (st : Storage σ η) : Storage (σ × List (Act η)) η where
  create path s :=
    let (x, t) := st.create path s.1
    (x, t, s.2 ++ [.create path x.toOption])
  write file bytes s :=
    let (x, t) := st.write file bytes s.1
    (x, t, s.2 ++ [.write file bytes x.isOk])

theorem logged_create {st : Storage σ η} (h : st.create path s = (x, s')) (log : List (Act η)) :
    st.logged.create path (s, log) = (x, s', log ++ [.create path x.toOption]) := by
  simp only [logged, h]

theorem logged_write {st : Storage σ η} (h : st.write file bytes s = (x, s'))
    (log : List (Act η)) :
    st.logged.write file bytes (s, log) = (x, s', log ++ [.write file bytes x.isOk]) := by
  simp only [logged, h]

inductive Step (st : Storage σ η) : σ → Act η → σ → Prop
  | made (h : st.create path s = (.ok file, s')) : Step st s (.create path (some file)) s'
  | refused (h : st.create path s = (.error e, s')) : Step st s (.create path none) s'
  | wrote (h : st.write file bytes s = (.ok (), s')) : Step st s (.write file bytes true) s'
  | failed (h : st.write file bytes s = (.error e, s')) : Step st s (.write file bytes false) s'

/-- Files that can be looked at.  One that was just made is empty, what is written stands behind
what was there, and no step changes where paths lead or touches another file, whatever comes of
it. -/
structure View (st : Storage σ η) where
  fileAt? : String → σ → Option η
  content : η → σ → Bytes
  /-- Whether a file holds what is written to it, as a device does not. -/
  Holds : η → Prop
  made : st.create path s = (.ok file, s') →
    fileAt? path s' = some file ∧ (Holds file → content file s' = [])
  wrote : st.write file bytes s = (.ok (), s') → fileAt? q s = some file → Holds file →
    content file s' = content file s ++ bytes
  leads_create : st.create path s = (x, s') → fileAt? q s = some g → fileAt? q s' = some g
  leads_write : st.write file bytes s = (x, s') → fileAt? q s = some g → fileAt? q s' = some g
  apart_create : st.create path s = (x, s') → fileAt? q s = some g → fileAt? path s' ≠ some g →
    content g s' = content g s
  apart_write : st.write file bytes s = (x, s') → fileAt? q s = some g → file ≠ g →
    content g s' = content g s

variable {st : Storage σ η} {view : st.View} {s s' : σ} {acts : List (Act η)}

theorem Step.leads (h : Step st s act s') (hq : view.fileAt? q s = some g) :
    view.fileAt? q s' = some g := by
  cases h with
  | made h => exact view.leads_create h hq
  | refused h => exact view.leads_create h hq
  | wrote h => exact view.leads_write h hq
  | failed h => exact view.leads_write h hq

theorem Step.content_eq (h : Step st s act s') (hq : view.fileAt? q s = some g)
    (hc : ∀ path file, act = .create path file → view.fileAt? path s' ≠ some g)
    (hw : ∀ file bytes done, act = .write file bytes done → file ≠ g) :
    view.content g s' = view.content g s := by
  cases h with
  | made h => exact view.apart_create h hq (hc _ _ rfl)
  | refused h => exact view.apart_create h hq (hc _ _ rfl)
  | wrote h => exact view.apart_write h hq (hw _ _ _ rfl)
  | failed h => exact view.apart_write h hq (hw _ _ _ rfl)

theorem leads_of_trace (h : Trace (Step st) s acts s') (hq : view.fileAt? q s = some g) :
    view.fileAt? q s' = some g := by
  induction h with
  | refl => exact hq
  | snoc h hs ih => exact hs.leads ih

/-- A file is as it was if nothing was written to it, and no path that leads to it in the end was
made anew. -/
theorem content_of_trace (h : Trace (Step st) s acts s') (hq : view.fileAt? q s = some g)
    (hc : ∀ path file, .create path file ∈ acts → view.fileAt? path s' ≠ some g)
    (hw : ∀ file bytes done, .write file bytes done ∈ acts → file ≠ g) :
    view.content g s' = view.content g s := by
  induction h with
  | refl => rfl
  | @snoc tr m e r h hs ih =>
    have hm := hs.content_eq (leads_of_trace h hq)
      (fun path file he => hc path file (by simp [he]))
      (fun file bytes done he => hw file bytes done (by simp [he]))
    have ih := ih
      (fun path file ha hg => hc path file (List.mem_append_left _ ha) (hs.leads hg))
      (fun file bytes done ha => hw file bytes done (List.mem_append_left _ ha))
    rw [hm, ih]

theorem content_of_writes (h : Trace (Step st) s acts s') (hq : view.fileAt? q s = some file)
    (hf : view.Holds file) (ha : ∀ act ∈ acts, ∃ bytes, act = .write file bytes true) :
    view.content file s' = view.content file s ++ acts.flatMap Act.bytes := by
  induction h with
  | refl => simp
  | @snoc tr m e r h hs ih =>
    have ih := ih fun act hm => ha act (List.mem_append_left _ hm)
    obtain ⟨bytes, rfl⟩ := ha e (by simp)
    cases hs with
    | wrote hs => simp [view.wrote hs (leads_of_trace h hq) hf, ih, Act.bytes]

end Triage.Storage
