import Triage.FileTree
import Triage.Proofs.Path.Joined

set_option autoImplicit true

namespace Triage

open Triage.Path (Segment)

def Place.location : Place → Location
  | .found l _ | .vacant l => l

namespace FileTree

/-- A tree in which every location stands once and is made of names. -/
structure WellFormed (t : FileTree) : Prop where
  distinct : (t.entries.map Prod.fst).Nodup
  segments : ∀ l e, (l, e) ∈ t.entries → ∀ n ∈ l, Segment n

theorem segment_of_mem_parts (h : n ∈ parts path) (hn : n ≠ ".") : Segment n := by
  have h : ∃ part ∈ Text.splitAt '/' path.toList, part.isEmpty = false ∧ String.ofList part = n := by
    simp only [parts, List.mem_append, List.mem_map, List.mem_filter, Bool.not_eq_true'] at h
    rcases h with ⟨part, ⟨hp, he⟩, rfl⟩ | h
    · exact ⟨part, hp, he, rfl⟩
    · split at h
      · exact absurd (List.mem_singleton.mp h) hn
      · cases h
  obtain ⟨part, hp, he, rfl⟩ := h
  refine ⟨?_, ?_, hn⟩
  · rintro h
    rw [← String.toList_inj, String.toList_ofList] at h
    rw [h] at he
    cases he
  · rw [String.toList_ofList]
    exact Text.not_mem_of_mem_splitAt hp

variable {t : FileTree} {here l : Location}

structure Proper (part : String) : Prop where
  ne_here : part ≠ "."
  ne_up : part ≠ ".."
  short : part.utf8ByteSize ≤ nameLimit

/-- A part of a path leads from one directory to another, without a link. -/
inductive Enters (t : FileTree) (l : Location) : String → Location → Prop
  | here : t.Enters l "." l
  | up : t.Enters l ".." l.dropLast
  | down (hp : Proper part) (hg : t.get? (l ++ [part]) = some .dir) : t.Enters l part (l ++ [part])

/-- A part at the end of a path leads to a place that is no directory. -/
inductive Ends (t : FileTree) (follow : Bool) (l : Location) (part : String) : Place → Prop
  | vacant (hp : Proper part) (hg : t.get? (l ++ [part]) = none) :
      t.Ends follow l part (.vacant (l ++ [part]))
  | found (hp : Proper part) (hg : t.get? (l ++ [part]) = some e) (hd : e ≠ .dir)
      (hl : ∀ target, e = .link target → follow = false) :
      t.Ends follow l part (.found (l ++ [part]) e)

theorem walkParts_of_enters {onLink : Location → List String → Except OsError Place}
    (h : t.Enters l part k) (rest : List String) :
    t.walkParts follow onLink l (part :: rest) = t.walkParts follow onLink k rest := by
  cases h with
  | here => simp [walkParts]
  | up => simp [walkParts]
  | down hp hg => simp [walkParts, hp.ne_here, hp.ne_up, Nat.not_lt.mpr hp.short, hg]

theorem walkParts_of_link {onLink : Location → List String → Except OsError Place}
    (hp : Proper part) (hg : t.get? (l ++ [part]) = some (.link target))
    (hf : rest = [] → follow = true) :
    t.walkParts follow onLink l (part :: rest) =
      onLink (if Path.isAbsolute target then [] else l) (parts target ++ rest) := by
  have hr : (rest.isEmpty && !follow) = false := by
    cases rest with
    | nil => simp [hf rfl]
    | cons => rfl
  simp [walkParts, hp.ne_here, hp.ne_up, Nat.not_lt.mpr hp.short, hg, hr]

/-- A path leads on from a directory, through a link, or to its end. -/
theorem walkParts_cons {onLink : Location → List String → Except OsError Place} :
    t.walkParts follow onLink l (part :: rest) = .ok x ↔
      (∃ k, t.Enters l part k ∧ t.walkParts follow onLink k rest = .ok x) ∨
      (∃ target, Proper part ∧ t.get? (l ++ [part]) = some (.link target) ∧
        (rest = [] → follow = true) ∧
        onLink (if Path.isAbsolute target then [] else l) (parts target ++ rest) = .ok x) ∨
      rest = [] ∧ t.Ends follow l part x := by
  constructor
  · intro h
    simp only [walkParts] at h
    split at h
    next hn => exact .inl ⟨l, hn ▸ .here, h⟩
    next hn =>
    split at h
    next hu => exact .inl ⟨_, hu ▸ .up, h⟩
    next hu =>
    split at h
    · cases h
    next hs =>
    have hp : Proper part := ⟨hn, hu, Nat.not_lt.mp hs⟩
    split at h
    next hg =>
      split at h
      next hr =>
        cases h
        exact .inr (.inr ⟨List.isEmpty_iff.mp hr, .vacant hp hg⟩)
      · cases h
    next hg => exact .inl ⟨_, .down hp hg, h⟩
    next target hg =>
      split at h
      next hr =>
        cases h
        obtain ⟨hr, hf⟩ := Bool.and_eq_true_iff.mp hr
        refine .inr (.inr ⟨List.isEmpty_iff.mp hr, .found hp hg nofun fun _ _ => ?_⟩)
        simpa using hf
      next hr =>
        rw [List.dropLast_concat] at h
        refine .inr (.inl ⟨target, hp, hg, fun he => ?_, h⟩)
        simpa [he] using hr
    next e hd hl hg =>
      split at h
      next hr =>
        cases h
        exact .inr (.inr ⟨List.isEmpty_iff.mp hr, .found hp hg hd fun _ he => absurd he (hl _)⟩)
      · cases h
  · rintro (⟨k, he, h⟩ | ⟨target, hp, hg, hf, h⟩ | ⟨rfl, he⟩)
    · rwa [walkParts_of_enters he]
    · rwa [walkParts_of_link hp hg hf]
    · cases he with
      | vacant hp hg => simp [walkParts, hp.ne_here, hp.ne_up, Nat.not_lt.mpr hp.short, hg]
      | @found e hp hg hd hl =>
        simp only [walkParts, hp.ne_here, hp.ne_up, Nat.not_lt.mpr hp.short, hg, if_false]
        cases e with
        | dir => exact absurd rfl hd
        | link target => simp [hl target rfl]
        | _ => rfl

theorem segment_of_walkParts {onLink : Location → List String → Except OsError Place}
    (ho : ∀ {l ps x}, (∀ n ∈ l, Segment n) → (∀ n ∈ ps, n ≠ "." → Segment n) →
      onLink l ps = .ok x → ∀ n ∈ x.location, Segment n)
    {ps : List String} (hl : ∀ n ∈ l, Segment n) (hp : ∀ n ∈ ps, n ≠ "." → Segment n)
    (h : walkParts t follow onLink l ps = .ok x) : ∀ n ∈ x.location, Segment n := by
  induction ps generalizing l with
  | nil =>
    cases h
    exact hl
  | cons part rest ih =>
    have hr : ∀ n ∈ rest, n ≠ "." → Segment n := fun n hn => hp n (List.mem_cons_of_mem _ hn)
    have hc (hn : part ≠ ".") : ∀ n ∈ l ++ [part], Segment n := by
      intro n hm
      rcases List.mem_append.mp hm with hm | hm
      · exact hl n hm
      · obtain rfl := List.mem_singleton.mp hm
        exact hp n List.mem_cons_self hn
    rcases walkParts_cons.mp h with ⟨k, he, h⟩ | ⟨target, hn, -, -, h⟩ | ⟨-, he⟩
    · cases he with
      | here => exact ih hl hr h
      | up => exact ih (fun n hn => hl n (List.dropLast_subset l hn)) hr h
      | down hn => exact ih (hc hn.ne_here) hr h
    · refine ho ?_ ?_ h
      · split
        · exact fun _ hn => absurd hn List.not_mem_nil
        · exact hl
      · intro n hm
        rcases List.mem_append.mp hm with hm | hm
        · exact segment_of_mem_parts hm
        · exact hr n hm
    · cases he with
      | vacant hn => exact hc hn.ne_here
      | found hn => exact hc hn.ne_here

theorem segment_of_walk (hl : ∀ n ∈ l, Segment n) (hp : ∀ n ∈ ps, n ≠ "." → Segment n)
    (h : t.walk follow links l ps = .ok x) : ∀ n ∈ x.location, Segment n := by
  induction links generalizing l ps x with
  | zero => exact segment_of_walkParts (fun _ _ h => by cases h) hl hp h
  | succ links ih => exact segment_of_walkParts ih hl hp h

theorem walk_of_resolve (h : t.resolve here path follow = .ok x) :
    t.walk follow linkLimit (if Path.isAbsolute path then [] else here) (parts path) = .ok x := by
  unfold resolve at h
  split at h
  · cases h
  split at h
  · cases h
  split at h
  · cases h
  exact h

theorem segment_of_resolve (hh : ∀ n ∈ here, Segment n) (h : t.resolve here path follow = .ok x) :
    ∀ n ∈ x.location, Segment n := by
  refine segment_of_walk ?_ (fun n hn => segment_of_mem_parts hn) (walk_of_resolve h)
  split
  · exact fun _ hn => absurd hn List.not_mem_nil
  · exact hh

theorem mem_of_get? (hl : l ≠ []) (h : t.get? l = some e) : (l, e) ∈ t.entries := by
  rw [get?, if_neg hl] at h
  obtain ⟨a, b, he, -⟩ := List.lookup_eq_some_iff.mp h
  rw [he]
  exact List.mem_append_right a List.mem_cons_self

namespace WellFormed

theorem empty : WellFormed {} where
  distinct := List.nodup_nil
  segments _ _ h := absurd h List.not_mem_nil

theorem set (h : t.WellFormed) (hl : ∀ n ∈ l, Segment n) (e : Entry) : (t.set l e).WellFormed where
  distinct := by
    simp only [FileTree.set, List.map_cons, List.nodup_cons]
    refine ⟨?_, h.distinct.sublist (List.filter_sublist.map _)⟩
    intro hm
    obtain ⟨x, hx, rfl⟩ := List.mem_map.mp hm
    simpa using (List.mem_filter.mp hx).2
  segments k f hk := by
    rcases List.mem_cons.mp hk with hk | hk
    · obtain ⟨rfl, -⟩ := Prod.mk.inj hk
      exact hl
    · exact h.segments k f (List.mem_of_mem_filter hk)

theorem erase (h : t.WellFormed) (l : Location) : (t.erase l).WellFormed where
  distinct := h.distinct.sublist (List.filter_sublist.map _)
  segments k f hk := h.segments k f (List.mem_of_mem_filter hk)

theorem makeDirs (h : t.WellFormed) (hl : ∀ n ∈ l, Segment n) (ps : List String) :
    (t.makeDirs l ps).WellFormed := by
  induction ps generalizing t l with
  | nil => exact h
  | cons part rest ih =>
    rw [FileTree.makeDirs]
    split
    next k hk => exact ih h (segment_of_resolve hl hk)
    next k hk => exact ih (h.set (segment_of_resolve hl hk) .dir) (segment_of_resolve hl hk)
    · exact h

theorem put (h : t.WellFormed) (hh : ∀ n ∈ here, Segment n) (path : String) (e : Entry) :
    (t.put here path e).WellFormed := by
  have hs : ∀ n ∈ (if Path.isAbsolute path then [] else here), Segment n := by
    split
    · exact fun _ hn => absurd hn List.not_mem_nil
    · exact hh
  have hd := h.makeDirs hs (parts path).dropLast
  cases e with
  | dir => exact h.makeDirs hs (parts path)
  | file | link | device | program =>
    simp only [FileTree.put]
    split
    next l hk => exact hd.set (segment_of_resolve hh hk) _
    next l _ hk => exact hd.set (segment_of_resolve hh hk) _
    · exact hd

theorem openPlace (h : t.WellFormed) (hx : ∀ n ∈ x.location, Segment n)
    (ho : t.openPlace fresh x = .ok (target, t')) : t'.WellFormed := by
  unfold FileTree.openPlace at ho
  split at ho
  · cases ho
    exact h.set hx _
  · split at ho
    · cases ho
      exact h.set hx _
    · cases ho
      exact h
  · cases ho
    exact h
  · cases ho
  · cases ho

theorem openForWriting (h : t.WellFormed) (hh : ∀ n ∈ here, Segment n)
    (ho : t.openForWriting here path fresh = .ok (target, t')) : t'.WellFormed := by
  unfold FileTree.openForWriting at ho
  split at ho
  · dsimp only at ho
    split at ho
    · cases ho
    · split at ho <;> cases ho
  · split at ho
    · cases ho
    next x hx => exact h.openPlace (segment_of_resolve hh hx) ho

theorem segment_of_get? (h : t.WellFormed) (hg : t.get? l = some e) : ∀ n ∈ l, Segment n := by
  by_cases hl : l = []
  · rw [hl]
    exact fun _ hn => absurd hn List.not_mem_nil
  · exact h.segments l e (mem_of_get? hl hg)

theorem append (h : t.WellFormed) (target : Target) (bytes : Bytes) :
    (t.append target bytes).2.WellFormed := by
  cases target with
  | device d => cases d <;> exact h
  | file l =>
    simp only [FileTree.append]
    split
    next content hc => exact h.set (h.segment_of_get? hc) _
    · exact h

end WellFormed
end FileTree
end Triage
