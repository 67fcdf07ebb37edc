import Mathlib.Data.List.Induction
import Mathlib.Data.List.Nodup
import Mathlib.Data.List.Perm.Subperm
import Triage.Proofs.FileTree.WellFormed

set_option autoImplicit true

namespace Triage

open Triage.Path (Segment)

/-- What a directory can hold something under. -/
structure Path.FileName (n : String) : Prop extends Segment n where
  ne_up : n ≠ ".."
  no_nul : '\x00' ∉ n.toList
  short : n.utf8ByteSize ≤ FileTree.nameLimit

instance (n : String) : Decidable (Path.FileName n) :=
  decidable_of_iff ((n ≠ "" ∧ '/' ∉ n.toList ∧ n ≠ ".") ∧ n ≠ ".." ∧ '\x00' ∉ n.toList ∧
      n.utf8ByteSize ≤ FileTree.nameLimit)
    ⟨fun ⟨⟨he, hs, hh⟩, hu, hz, hl⟩ => ⟨⟨he, hs, hh⟩, hu, hz, hl⟩,
      fun h => ⟨⟨h.ne_empty, h.no_slash, h.ne_here⟩, h.ne_up, h.no_nul, h.short⟩⟩

open Triage.Path (FileName)

namespace FileTree

/-- A tree in which every location stands once, is made of names, and lies in a directory. -/
structure Rooted (t : FileTree) : Prop where
  distinct : (t.entries.map Prod.fst).Nodup
  named : ∀ x ∈ t.entries, ∀ n ∈ x.1, FileName n
  parent : ∀ x ∈ t.entries, t.get? x.1.dropLast = some .dir

instance (t : FileTree) : Decidable t.Rooted :=
  decidable_of_iff ((t.entries.map Prod.fst).Nodup ∧ (∀ x ∈ t.entries, ∀ n ∈ x.1, FileName n) ∧
      ∀ x ∈ t.entries, t.get? x.1.dropLast = some .dir)
    ⟨fun ⟨hd, hn, hp⟩ => ⟨hd, hn, hp⟩, fun h => ⟨h.distinct, h.named, h.parent⟩⟩

variable {t : FileTree} {here l dir : Location}

namespace Rooted

theorem wellFormed (h : t.Rooted) : t.WellFormed where
  distinct := h.distinct
  segments l e hm n hn := (h.named (l, e) hm n hn).toSegment

theorem fileNames (h : t.Rooted) (hg : t.get? l = some e) : ∀ n ∈ l, FileName n := by
  intro n hn
  exact h.named _ (mem_of_get? (List.ne_nil_of_mem hn) hg) n hn

theorem fileName (h : t.Rooted) (hg : t.get? (l ++ [n]) = some e) : FileName n :=
  h.fileNames hg n (by simp)

theorem get?_of_append (h : t.Rooted) {k : Location} (hk : k ≠ [])
    (hg : t.get? (l ++ k) = some e) : t.get? l = some .dir := by
  induction k using List.reverseRecOn generalizing e with
  | nil => exact absurd rfl hk
  | append_singleton k n ih =>
    have hp : t.get? (l ++ k) = some .dir := by
      have hp := h.parent _ (mem_of_get? (by simp) hg)
      rwa [← List.append_assoc, List.dropLast_concat] at hp
    cases k with
    | nil => rwa [List.append_nil] at hp
    | cons m k => exact ih (List.cons_ne_nil m k) hp

theorem get?_dropLast (h : t.Rooted) (hg : t.get? l = some .dir) :
    t.get? l.dropLast = some .dir := by
  rcases List.eq_nil_or_concat l with rfl | ⟨k, n, rfl⟩
  · exact hg
  · rw [List.concat_eq_append] at hg ⊢
    rw [List.dropLast_concat]
    exact h.get?_of_append (List.cons_ne_nil n []) hg

theorem length_le (h : t.Rooted) (hg : t.get? l = some e) : l.length ≤ t.entries.length := by
  let ways := (List.range l.length).map fun i => l.take (i + 1)
  have hd : ways.Nodup := by
    refine List.Nodup.map_on (fun i hi j hj he => ?_) List.nodup_range
    have hl := congrArg List.length he
    have hi := List.mem_range.mp hi
    have hj := List.mem_range.mp hj
    simp only [List.length_take] at hl
    omega
  have hs : ways ⊆ t.entries.map Prod.fst := by
    intro k hk
    obtain ⟨i, hi, rfl⟩ := List.mem_map.mp hk
    have hi := List.mem_range.mp hi
    have hne : l.take (i + 1) ≠ [] := by
      rw [← List.length_pos_iff, List.length_take]
      omega
    obtain ⟨d, hd⟩ : ∃ d, t.get? (l.take (i + 1)) = some d := by
      rw [← List.take_append_drop (i + 1) l] at hg
      rcases eq_or_ne (l.drop (i + 1)) [] with hr | hr
      · rw [hr, List.append_nil] at hg
        exact ⟨e, hg⟩
      · exact ⟨.dir, h.get?_of_append hr hg⟩
    exact List.mem_map.mpr ⟨_, mem_of_get? hne hd, rfl⟩
  have hle := (List.subperm_of_subset hd hs).length_le
  simpa [ways] using hle

end Rooted

theorem find_eq_ok :
    t.find here path follow = .ok (k, e) ↔ t.resolve here path follow = .ok (.found k e) := by
  unfold find
  cases t.resolve here path follow with
  | error f => simp
  | ok x => cases x <;> simp

theorem resolve_eq_walk (t : FileTree) (here : Location) (hz : '\x00' ∉ p.toList) (he : p ≠ "")
    (hl : p.utf8ByteSize < pathLimit) : t.resolve here p follow =
      t.walk follow linkLimit (if Path.isAbsolute p then [] else here) (parts p) := by
  have hz : p.toList.contains '\x00' = false := by simpa using hz
  have he : p.isEmpty = false := by simpa [← Bool.not_eq_true, String.isEmpty_iff] using he
  rw [resolve, hz, he, if_neg Bool.false_ne_true, if_neg Bool.false_ne_true,
    if_neg (Nat.not_le.mpr hl)]

theorem resolve_of_long (t : FileTree) (here : Location) (hz : '\x00' ∉ p.toList) (he : p ≠ "")
    (hl : pathLimit ≤ p.utf8ByteSize) : t.resolve here p follow = .error .nameTooLong := by
  have hz : p.toList.contains '\x00' = false := by simpa using hz
  have he : p.isEmpty = false := by simpa [← Bool.not_eq_true, String.isEmpty_iff] using he
  rw [resolve, hz, he, if_neg Bool.false_ne_true, if_neg Bool.false_ne_true, if_pos hl]

theorem no_nul_and_short_of_find (h : t.find here p follow = .ok x) :
    '\x00' ∉ p.toList ∧ p.utf8ByteSize < pathLimit := by
  obtain ⟨k, e⟩ := x
  have hr := find_eq_ok.mp h
  unfold resolve at hr
  split at hr
  · cases hr
  next hz =>
    split at hr
    · cases hr
    split at hr
    · cases hr
    next hl => exact ⟨by simpa using hz, Nat.not_le.mp hl⟩

theorem Rooted.get?_of_enters (h : t.Rooted) (hl : t.get? l = some .dir)
    (he : t.Enters l part k) : t.get? k = some .dir := by
  cases he with
  | here => exact hl
  | up => exact h.get?_dropLast hl
  | down _ hg => exact hg

theorem Rooted.get?_of_walkParts (h : t.Rooted)
    {onLink : Location → List String → Except OsError Place}
    (ho : ∀ {l ps}, t.get? l = some .dir → onLink l ps = .ok (.found k e) → t.get? k = some e)
    {ps : List String} (hl : t.get? l = some .dir)
    (hw : t.walkParts follow onLink l ps = .ok (.found k e)) : t.get? k = some e := by
  induction ps generalizing l with
  | nil =>
    cases hw
    exact hl
  | cons part rest ih =>
    rcases walkParts_cons.mp hw with ⟨d, he, hw⟩ | ⟨target, -, -, -, hw⟩ | ⟨-, he⟩
    · exact ih (h.get?_of_enters hl he) hw
    · refine ho ?_ hw
      split
      · rfl
      · exact hl
    · cases he with
      | found _ hg => exact hg

theorem Rooted.get?_of_walk (h : t.Rooted) (hl : t.get? l = some .dir)
    (hw : t.walk follow links l ps = .ok (.found k e)) : t.get? k = some e := by
  induction links generalizing l ps with
  | zero => exact h.get?_of_walkParts (fun _ ho => by cases ho) hl hw
  | succ links ih => exact h.get?_of_walkParts ih hl hw

theorem Rooted.get?_of_find (h : t.Rooted) (hh : t.get? here = some .dir)
    (hf : t.find here path follow = .ok (k, e)) : t.get? k = some e := by
  refine h.get?_of_walk ?_ (walk_of_resolve (find_eq_ok.mp hf))
  split
  · rfl
  · exact hh

theorem find_of_dirAt? (h : t.dirAt? here path = some dir) : t.find here path = .ok (dir, .dir) := by
  unfold dirAt? at h
  split at h
  next hf =>
    cases h
    exact hf
  · cases h

theorem ne_empty_of_find (h : t.find here path = .ok x) : path ≠ "" := by
  rintro rfl
  cases h

theorem parts_fileName (hn : FileName n) : parts n = [n] := by
  have he : n.toList.isEmpty = false := by
    rw [List.isEmpty_eq_false_iff]
    exact fun h => hn.ne_empty (String.toList_inj.mp h)
  have hl : n.toList.getLast? ≠ some '/' := fun h => hn.no_slash (List.mem_of_getLast? h)
  simp [parts, Text.splitAt_of_not_mem hn.no_slash, he, hl]

theorem resolve_fileName (t : FileTree) (dir : Location) (hn : FileName n) :
    t.resolve dir n = t.walk true linkLimit dir [n] := by
  have hl : n.utf8ByteSize < pathLimit := Nat.lt_of_le_of_lt hn.short (by decide)
  have ha : Path.isAbsolute n = false := by
    rw [Path.isAbsolute, decide_eq_false_iff_not]
    exact fun h => hn.no_slash (List.mem_of_head? h)
  rw [resolve_eq_walk t dir hn.no_nul hn.ne_empty hl, ha, parts_fileName hn,
    if_neg Bool.false_ne_true]

theorem proper_fileName (hn : FileName n) : Proper n := ⟨hn.ne_here, hn.ne_up, hn.short⟩

theorem walk_eq (t : FileTree) (follow : Bool) (links : Nat) :
    ∃ onLink, t.walk follow links = t.walkParts follow onLink := by
  cases links with
  | zero => exact ⟨_, rfl⟩
  | succ links => exact ⟨_, rfl⟩

theorem walk_singleton (t : FileTree) (links : Nat) (dir : Location) (hn : FileName n)
    (hg : t.get? (dir ++ [n]) = some e) (hl : ∀ target, e ≠ .link target) :
    t.walk true links dir [n] = .ok (.found (dir ++ [n]) e) := by
  obtain ⟨onLink, hw⟩ := walk_eq t true links
  rw [hw, walkParts_cons]
  by_cases hd : e = .dir
  · exact .inl ⟨_, .down (proper_fileName hn) (hd ▸ hg), hd ▸ rfl⟩
  · exact .inr (.inr ⟨rfl, .found (proper_fileName hn) hg hd fun target he => absurd he (hl target)⟩)

theorem find_fileName (t : FileTree) (dir : Location) (hn : FileName n)
    (hg : t.get? (dir ++ [n]) = some e) (hl : ∀ target, e ≠ .link target) :
    t.find dir n = .ok (dir ++ [n], e) := by
  rw [find, resolve_fileName t dir hn, walk_singleton t linkLimit dir hn hg hl]

end FileTree
end Triage
