import Mathlib.Data.List.Nodup
import Triage.Discovery
import Triage.Proofs.FileTree.WellFormed

set_option autoImplicit true

open scoped List

namespace Triage

def FileTree.nameIn? (l k : Location) : Option String :=
  match k.getLast? with
  | some name => if k.dropLast = l then some name else none
  | none => none

theorem FileTree.eq_concat_of_nameIn? (h : nameIn? l k = some n) : k = l ++ [n] := by
  unfold nameIn? at h
  split at h
  · next name hk =>
    split at h
    · next hl =>
      cases h
      rw [← hl, List.dropLast_append_getLast? _ hk]
    · cases h
  · cases h

theorem FileTree.names_eq (t : FileTree) (l : Location) :
    t.names l = (t.entries.map Prod.fst).filterMap (nameIn? l) := by
  rw [List.filterMap_map]
  rfl

theorem FileTree.nameIn?_concat (l : Location) (n : String) : nameIn? l (l ++ [n]) = some n := by
  simp [nameIn?]

theorem FileTree.mem_names {t : FileTree} :
    n ∈ t.names l ↔ ∃ e, t.get? (l ++ [n]) = some e := by
  have hk : (∃ e, t.get? (l ++ [n]) = some e) ↔ l ++ [n] ∈ t.entries.map Prod.fst := by
    rw [get?, if_neg (List.concat_ne_nil n l), ← Option.isSome_iff_exists, List.lookup_isSome_iff,
      List.mem_map]
    exact exists_congr fun x => and_congr_right fun _ => beq_iff_eq.trans eq_comm
  rw [names_eq, List.mem_filterMap, hk]
  constructor
  · rintro ⟨k, hm, hn⟩
    rwa [← eq_concat_of_nameIn? hn]
  · exact fun hm => ⟨_, hm, nameIn?_concat l n⟩

theorem FileTree.WellFormed.nodup_names (h : WellFormed t) (l : Location) : (t.names l).Nodup := by
  rw [names_eq]
  refine List.Nodup.filterMap (fun k k' n hk hk' => ?_) h.distinct
  rw [eq_concat_of_nameIn? hk, eq_concat_of_nameIn? hk']

theorem FileTree.WellFormed.segment (h : WellFormed t) (hn : n ∈ t.names l) : Path.Segment n := by
  rw [names_eq] at hn
  obtain ⟨k, hk, hn⟩ := List.mem_filterMap.mp hn
  obtain ⟨⟨k, e⟩, he, rfl⟩ := List.mem_map.mp hk
  apply h.segments k e he
  rw [show k = l ++ [n] from eq_concat_of_nameIn? hn]
  exact List.mem_append_right _ (List.mem_singleton_self n)

namespace Discovery

variable {t : FileTree} {s : Settings} {here : Location} {fuel : Nat} {way : List Location}
  {dir : Location} {path : String}

def scriptsAt (t : FileTree) (s : Settings) (here : Location) (fuel : Nat) (way : List Location)
    (dir : Location) (path name : String) : List String :=
  match kind t s here (dir :: way) dir path name with
  | .script => [Path.join path name]
  | .dir => scripts t s here fuel (dir :: way) (Path.join path name)
  | .other => []

theorem scripts_succ (h : t.dirAt? here path = some dir) : scripts t s here (fuel + 1) way path =
    (t.names dir).flatMap (scriptsAt t s here fuel way dir path) := by
  rw [scripts, h]
  rfl

theorem scripts_of_no_dir (h : t.dirAt? here path = none) : scripts t s here fuel way path = [] := by
  cases fuel with
  | zero => rfl
  | succ fuel => rw [scripts, h]

/-- The paths that start with `path` and then have one name or more. -/
def Below (path p : String) : Prop :=
  ∃ ns : List String, ns ≠ [] ∧ (∀ n ∈ ns, Path.Segment n) ∧ p = ns.foldl Path.join path

theorem exists_of_mem_scriptsAt (hn : Path.Segment name)
    (hb : ∀ {way path p}, p ∈ scripts t s here fuel way path → Below path p)
    (h : p ∈ scriptsAt t s here fuel way dir path name) :
    ∃ ns : List String, (∀ n ∈ name :: ns, Path.Segment n) ∧
      p = (name :: ns).foldl Path.join path := by
  unfold scriptsAt at h
  split at h
  · cases List.eq_of_mem_singleton h
    exact ⟨[], by simpa using hn, rfl⟩
  · obtain ⟨ns, -, hs, rfl⟩ := hb h
    exact ⟨ns, fun n hm => (List.mem_cons.mp hm).elim (fun he => he ▸ hn) (hs n), rfl⟩
  · cases h

theorem below_of_mem_scripts (ht : t.WellFormed) (h : p ∈ scripts t s here fuel way path) :
    Below path p := by
  induction fuel generalizing way path p with
  | zero => cases h
  | succ fuel ih =>
    cases hd : t.dirAt? here path with
    | none =>
      rw [scripts_of_no_dir hd] at h
      cases h
    | some dir =>
      rw [scripts_succ hd] at h
      obtain ⟨name, hn, hp⟩ := List.mem_flatMap.mp h
      obtain ⟨ns, hs, rfl⟩ := exists_of_mem_scriptsAt (ht.segment hn) ih hp
      exact ⟨name :: ns, List.cons_ne_nil _ _, hs, rfl⟩

theorem nodup_scripts (ht : t.WellFormed) : (scripts t s here fuel way path).Nodup := by
  induction fuel generalizing way path with
  | zero => exact List.nodup_nil
  | succ fuel ih =>
    cases hd : t.dirAt? here path with
    | none =>
      rw [scripts_of_no_dir hd]
      exact List.nodup_nil
    | some dir =>
      rw [scripts_succ hd, List.nodup_flatMap]
      constructor
      · intro name _
        unfold scriptsAt
        split
        · exact List.nodup_singleton _
        · exact ih
        · exact List.nodup_nil
      · refine (ht.nodup_names dir).imp_of_mem fun {n m} hn hm hne => ?_
        intro p hp hp'
        obtain ⟨ns, hs, rfl⟩ :=
          exists_of_mem_scriptsAt (ht.segment hn) (below_of_mem_scripts ht) hp
        obtain ⟨ms, hs', he⟩ :=
          exists_of_mem_scriptsAt (ht.segment hm) (below_of_mem_scripts ht) hp'
        exact hne (List.cons.inj (Path.foldl_join_inj hs hs' he)).1

theorem nodup_collect (ht : t.WellFormed) (here : Location) : (collect t here s).Nodup :=
  (List.mergeSort_perm _ _).nodup_iff.mpr (nodup_scripts ht)

theorem absolute?_of_mem_collect (ht : t.WellFormed) (hr : Path.Resolved s.root)
    (h : p ∈ collect t here s) (dir : String) : Path.absolute? dir p = some p := by
  obtain ⟨ns, hne, hs, rfl⟩ := below_of_mem_scripts ht (List.mem_mergeSort.mp h)
  exact hr.absolute? hs hne dir

end Discovery
end Triage
