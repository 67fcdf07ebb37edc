import Triage.Machine.Launch
import Triage.Proofs.Check.Surroundings
import Triage.Proofs.Discovery.Complete
import Triage.Proofs.FileTree.Absolute

set_option autoImplicit true

namespace Triage.Check

variable {settings checked : Settings} {c : Command}

theorem find_of_workingDir {m : Machine} (h : m.workingDir here c = .ok wd)
    (hc : c.workingDir = some path) : m.tree.find here path = .ok (wd, .dir) := by
  simp only [Machine.workingDir, hc] at h
  split at h
  next hf =>
    cases h
    exact hf
  · cases h
  · cases h

/-- The child of a primary check of a script works at the root in import mode, and where the script
lies in the others. -/
def WorksAt (t : FileTree) (settings : Settings) (root : Location) (file : String)
    (wd : Location) : Prop :=
  if settings.mode = .import then wd = root
  else ∃ names last passed l e, file = (names ++ [last]).foldl Path.join settings.root ∧
    t.Through root names passed wd ∧ t.find wd last = .ok (l, e) ∧ e.isFile = true

theorem worksAt_of_find {t : FileTree} (ht : t.Rooted) (hh : t.get? here = some .dir)
    (ha : Path.isAbsolute settings.root = true) (hr : t.dirAt? here settings.root = some root)
    (hf : file ∈ Discovery.collect t here settings)
    (hd : t.find here (if settings.mode = .import then settings.root else dirOf file) =
      .ok (wd, .dir)) : WorksAt t settings root file wd := by
  unfold WorksAt
  split
  next hm =>
    rw [if_pos hm, FileTree.find_of_dirAt? hr] at hd
    cases hd
    rfl
  next hm =>
    rw [if_neg hm] at hd
    obtain ⟨names, last, rfl, h, hx⟩ := (Discovery.mem_collect ht hh hr).mp hf
    obtain ⟨passed, k, l, e, hk, hl, hf, he⟩ := h.reached
    have hf := hx.find_last hr hk hl hf
    have hn : ∀ n ∈ names ++ [last], Path.Segment n := fun n hm => (h.fileName n hm).toSegment
    rw [dirOf, Path.parent?_foldl_join ha hn, Option.getD_some] at hd
    obtain ⟨passed', ht'⟩ := FileTree.exists_through_of_path ha hr hk.fileName hd
    cases hk.unique ht'
    exact ⟨names, last, passed, l, e, rfl, hk, hf, he⟩

/-- The child of the primary check of a script finds the root where it was when the settings were
checked, and so it does the search path if that is absolute, or if it works where they were checked.
It looks a relative one up from the root or from where the script lies. -/
theorem searchDirs_at_workingDir {m : Machine} {here wd : Location} {settings checked : Settings}
    {file : String} {c : Command} (ht : m.tree.Rooted) (hh : m.tree.get? here = some .dir)
    (hv : settings.validate m.tree here = .ok checked)
    (hf : file ∈ Discovery.collect m.tree here checked)
    (hc : primaryCommand? checked file = some c) (hw : m.workingDir here c = .ok wd) :
    c.searchPath = (if searchDirs checked = [] then none
      else some (checked.searchPathVar, searchDirs checked)) ∧
    ∃ root, m.tree.dirAt? here settings.root = some root ∧
      WorksAt m.tree checked root file wd ∧
      (settings.mode = .import → m.tree.dirAt? wd checked.root = some root) ∧
      ∀ dir, settings.searchPath = some dir → ∃ l, m.tree.dirAt? here dir = some l ∧
        (Path.isAbsolute dir = true ∨ wd = here → m.tree.dirAt? wd dir = some l) := by
  obtain ⟨-, hr, hp, full, hfull, rfl⟩ := Settings.validate_eq_ok.mp hv
  obtain ⟨root, hr⟩ := FileTree.exists_dirAt? hr
  obtain ⟨-, hs, hcw⟩ := primaryCommand?_surroundings hc
  have ha := ht.isAbsolute_of_absolute? hh hfull
  have hroot : m.tree.dirAt? here full = some root := by
    obtain ⟨root', hr'⟩ := Discovery.exists_dirAt?_of_mem_collect hf
    cases ht.find_absolute? hh hr hfull (FileTree.find_of_dirAt? hr')
    exact hr'
  refine ⟨hs, root, hr, ?_, ?_, ?_⟩
  · exact worksAt_of_find ht hh ha hroot hf (find_of_workingDir hw hcw)
  · intro _
    rwa [FileTree.dirAt?_of_isAbsolute _ ha wd here]
  · intro dir hdir
    obtain ⟨l, hl⟩ := FileTree.exists_dirAt? (hp dir hdir)
    refine ⟨l, hl, ?_⟩
    rintro (ha | rfl)
    · rwa [FileTree.dirAt?_of_isAbsolute _ ha wd here]
    · exact hl

def twoDeps : FileTree where
  entries := [(["proj"], .dir), (["proj", "a.py"], .file []), (["proj", "deps"], .dir),
    (["deps"], .dir)]

def withDeps (root dir : String) : Settings := { root, searchPath := some dir }

theorem mem_collect_twoDeps (dir : String) :
    "/proj/a.py" ∈ Discovery.collect twoDeps [] (withDeps "/proj" dir) := by
  have hs : Discovery.scripts twoDeps (withDeps "/proj" dir) [] (Discovery.depthLimit twoDeps) []
      "/proj" = ["/proj/a.py"] := rfl
  rw [Discovery.collect, List.mem_mergeSort]
  exact hs ▸ List.mem_singleton_self _

theorem searchDirs_of_twoDeps : ∃ c,
    primaryCommand? (withDeps "/proj" "/deps") "/proj/a.py" = some c ∧
      c.searchPath = some ("PYTHONPATH", ["/deps"]) ∧
      (Machine.boot twoDeps).workingDir [] c = .ok ["proj"] ∧
      twoDeps.dirAt? [] "/deps" = twoDeps.dirAt? ["proj"] "/deps" := by
  have hv : (withDeps "proj" "/deps").validate twoDeps [] = .ok (withDeps "/proj" "/deps") := by
    decide
  obtain ⟨c, hc⟩ : ∃ c, primaryCommand? (withDeps "/proj" "/deps") "/proj/a.py" = some c :=
    ⟨_, rfl⟩
  have hw : (Machine.boot twoDeps).workingDir [] c = .ok ["proj"] := by
    cases hc
    decide
  obtain ⟨hs, -, -, -, -, hd⟩ := searchDirs_at_workingDir (m := Machine.boot twoDeps) (by decide)
    rfl hv (mem_collect_twoDeps "/deps") hc hw
  obtain ⟨l, hl, hd⟩ := hd "/deps" rfl
  exact ⟨c, hc, hs, hw, hl.trans (hd (.inl (by decide))).symm⟩

/-- A relative search path that was checked in one place and is searched in another. -/
theorem relative_search_path_elsewhere :
    (withDeps "proj" "deps").validate twoDeps [] = .ok (withDeps "/proj" "deps") ∧
      "/proj/a.py" ∈ Discovery.collect twoDeps [] (withDeps "/proj" "deps") ∧
      ∃ c, primaryCommand? (withDeps "/proj" "deps") "/proj/a.py" = some c ∧
        c.searchPath = some ("PYTHONPATH", ["deps"]) ∧
        (Machine.boot twoDeps).workingDir [] c = .ok ["proj"] ∧
        twoDeps.dirAt? [] "deps" = some ["deps"] ∧
        twoDeps.dirAt? ["proj"] "deps" = some ["proj", "deps"] := by
  refine ⟨by decide, mem_collect_twoDeps "deps", _, rfl, rfl, ?_, ?_, ?_⟩
  · decide
  · decide
  · decide

end Triage.Check
