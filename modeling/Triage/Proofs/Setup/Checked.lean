import Triage.Proofs.Path.Written
import Triage.Proofs.Text.Lines

set_option autoImplicit true

namespace Triage

namespace FileTree

variable {t : FileTree} {here base l : Location}

theorem Rooted.no_nul_path (h : t.Rooted) (hg : t.get? l = some e) :
    '\x00' ∉ (Location.path l).toList := by
  rw [Location.path, Path.joinNames, String.toList_append, String.toList_intercalate]
  intro hm
  rcases List.mem_append.mp hm with hm | hm
  · exact absurd hm (by decide)
  · rcases Text.mem_intercalate hm with hm | ⟨cs, hc, hm⟩
    · exact absurd hm (by decide)
    · obtain ⟨n, hn, rfl⟩ := List.mem_map.mp hc
      exact (h.fileNames hg n hn).no_nul hm

theorem Rooted.find_absolute?_eq (h : t.Rooted) (hh : t.get? here = some .dir)
    (hp : t.dirAt? here p = some l) (hq : Path.absolute? here.path p = some q) (base : Location) :
    t.find base q =
      if q.utf8ByteSize < pathLimit then .ok (l, .dir) else .error .nameTooLong := by
  have ha := h.isAbsolute_of_absolute? hh hq
  apply find_eq_of_walk_names
  · apply Path.not_mem_absolute? (by decide) (h.no_nul_path hh) ?_ hq
    exact (no_nul_and_short_of_find (find_of_dirAt? hp)).1
  · exact Path.ne_empty_of_isAbsolute ha
  · rw [if_pos ha]
    exact h.walk_names_absolute? hh hp hq

theorem dirAt?_eq_some : t.dirAt? here p = some l ↔ t.find here p = .ok (l, .dir) := by
  refine ⟨find_of_dirAt?, fun h => ?_⟩
  rw [dirAt?, h]

theorem isDir_of_find (h : t.find here p = .ok (l, .dir)) : t.isDir here p = true :=
  Option.isSome_iff_exists.mpr ⟨l, dirAt?_eq_some.mpr h⟩

theorem pathExists_of_isDir (h : t.isDir here p = true) : t.pathExists here p = true := by
  obtain ⟨l, hl⟩ := exists_dirAt? h
  rw [pathExists, find_of_dirAt? hl]
  rfl

theorem ne_empty_of_pathExists (h : t.pathExists here p = true) : p ≠ "" := by
  rintro rfl
  cases h

end FileTree

namespace Settings

open FileTree

variable {settings checked : Settings} {t : FileTree} {here : Location}

/-- What is wrong with settings, by what is looked at first. -/
inductive Fault (settings : Settings) (t : FileTree) (here : Location) : SetupFault → Prop
  | rootMissing (he : t.pathExists here settings.root = false) :
    Fault settings t here (.rootMissing settings.root)
  | rootNotDirectory (he : t.pathExists here settings.root = true)
    (hd : t.isDir here settings.root = false) :
    Fault settings t here (.rootNotDirectory settings.root)
  | searchPathMissing (hd : t.isDir here settings.root = true)
    (hp : settings.searchPath = some dir) (hs : t.isDir here dir = false) :
    Fault settings t here (.searchPathMissing dir)

structure Sound (settings : Settings) (t : FileTree) (here : Location) : Prop where
  root : t.isDir here settings.root = true
  searchPath : ∀ dir, settings.searchPath = some dir → t.isDir here dir = true

theorem Fault.validate (h : Fault settings t here f) : settings.validate t here = .error f := by
  cases h with
  | rootMissing he =>
    rw [Settings.validate, he]
    rfl
  | rootNotDirectory he hd =>
    rw [Settings.validate, he, hd]
    rfl
  | searchPathMissing hd hp hs =>
    have he := pathExists_of_isDir hd
    obtain ⟨root, hr⟩ := Path.exists_absolute? (ne_empty_of_pathExists he) here.path
    simp only [Settings.validate, he, hd, hr, hp, hs]
    rfl

theorem validate_eq_ok_iff : settings.validate t here = .ok checked ↔ settings.Sound t here ∧
    ∃ root, Path.absolute? here.path settings.root = some root ∧
      checked = { settings with root } := by
  rw [validate_eq_ok]
  constructor
  · intro ⟨_, hd, hp, hr⟩
    exact ⟨⟨hd, hp⟩, hr⟩
  · intro ⟨hs, hr⟩
    exact ⟨pathExists_of_isDir hs.root, hs.root, hs.searchPath, hr⟩

theorem Sound.exists_validate (h : settings.Sound t here) :
    ∃ checked, settings.validate t here = .ok checked := by
  have he := ne_empty_of_pathExists (pathExists_of_isDir h.root)
  obtain ⟨root, hr⟩ := Path.exists_absolute? he here.path
  exact ⟨_, validate_eq_ok_iff.mpr ⟨h, root, hr, rfl⟩⟩

theorem sound_or_fault (settings : Settings) (t : FileTree) (here : Location) :
    settings.Sound t here ∨ ∃ f, Fault settings t here f := by
  cases he : t.pathExists here settings.root with
  | false => exact .inr ⟨_, .rootMissing he⟩
  | true =>
    cases hd : t.isDir here settings.root with
    | false => exact .inr ⟨_, .rootNotDirectory he hd⟩
    | true =>
      cases hp : settings.searchPath with
      | none => exact .inl ⟨hd, fun dir h => by cases hp.symm.trans h⟩
      | some dir =>
        cases hs : t.isDir here dir with
        | false => exact .inr ⟨_, .searchPathMissing hd hp hs⟩
        | true =>
          refine .inl ⟨hd, fun d h => ?_⟩
          cases hp.symm.trans h
          exact hs

theorem validate_eq_error : settings.validate t here = .error f ↔ Fault settings t here f := by
  refine ⟨fun h => ?_, Fault.validate⟩
  rcases sound_or_fault settings t here with hs | ⟨g, hg⟩
  · obtain ⟨checked, hc⟩ := hs.exists_validate
    cases hc.symm.trans h
  · cases hg.validate.symm.trans h
    exact hg

/-- What settings become that are checked in the directory `here`. -/
structure Checked (settings : Settings) (t : FileTree) (here : Location) (checked : Settings) :
    Prop where
  rest : checked = { settings with root := checked.root }
  absolute : Path.isAbsolute checked.root = true
  written : Path.Written (Path.names checked.root) checked.root
  names : Path.names checked.root =
    (if Path.isAbsolute settings.root then [] else here) ++ Path.names settings.root
  same : ∃ l, t.dirAt? here settings.root = some l ∧ ∀ base, t.find base checked.root =
    if checked.root.utf8ByteSize < pathLimit then .ok (l, .dir) else .error .nameTooLong
  again : checked.validate t here =
    if checked.root.utf8ByteSize < pathLimit then .ok checked
    else .error (.rootMissing checked.root)
  fits : Path.isAbsolute settings.root = true → checked.root.utf8ByteSize < pathLimit

theorem Sound.validate_self (h : settings.Sound t here) (hr : Path.Resolved checked.root)
    (hc : checked = { settings with root := checked.root })
    (hd : t.isDir here checked.root = true) : checked.validate t here = .ok checked := by
  refine validate_eq_ok_iff.mpr ⟨⟨hd, ?_⟩, checked.root, hr.absolute?_self here.path, rfl⟩
  intro dir hp
  rw [hc] at hp
  exact h.searchPath dir hp

theorem checked_of_validate (ht : t.Rooted) (hh : t.get? here = some .dir)
    (hv : settings.validate t here = .ok checked) : Checked settings t here checked := by
  obtain ⟨hs, root, hr, rfl⟩ := validate_eq_ok_iff.mp hv
  obtain ⟨l, hl⟩ := exists_dirAt? hs.root
  have hn := ht.wellFormed.segment_of_get? hh
  have hres := Path.resolved_of_absolute? hn hr
  have hf := ht.find_absolute?_eq hh hl hr
  refine ⟨rfl, hres.isAbsolute, hres.written, Path.names_absolute? hn hr, ⟨l, hl, hf⟩, ?_, ?_⟩
  · have hf := hf here
    split at hf
    next hlt =>
      rw [if_pos hlt]
      apply hs.validate_self hres rfl
      exact isDir_of_find hf
    next hlt =>
      rw [if_neg hlt]
      apply Fault.validate
      apply Fault.rootMissing
      rw [pathExists, hf]
      rfl
  · intro ha
    have hle := Path.utf8ByteSize_absolute?_le ha hr
    have hlt := (no_nul_and_short_of_find (find_of_dirAt? hl)).2
    exact hle.trans_lt hlt

/-- Settings are taken if they are sound.  Otherwise they are refused for the first fault that is
looked for: the root that does not exist or is no directory, then the search path. -/
theorem validate_settles (ht : t.Rooted) (hh : t.get? here = some .dir) (settings : Settings) :
    (∀ checked, settings.validate t here = .ok checked → Checked settings t here checked) ∧
    (∀ f, settings.validate t here = .error f ↔ Fault settings t here f) ∧
    ((∃ checked, settings.validate t here = .ok checked) ↔ settings.Sound t here) := by
  refine ⟨fun checked hv => checked_of_validate ht hh hv, fun f => validate_eq_error, ?_⟩
  constructor
  · intro ⟨checked, hv⟩
    exact (validate_eq_ok_iff.mp hv).1
  · exact Sound.exists_validate

def scriptsIn (root : String) : Settings := { root }

def oneProject : FileTree := ⟨[(["home"], .dir), (["home", "proj"], .dir)]⟩

theorem validate_settles_with_dots : oneProject.Rooted ∧ oneProject.get? ["home"] = some .dir ∧
    (scriptsIn "./proj//.//").validate oneProject ["home"] = .ok (scriptsIn "/home/proj/") ∧
    (scriptsIn "/home/proj/").validate oneProject ["home"] = .ok (scriptsIn "/home/proj/") := by
  have ht : oneProject.Rooted := by decide
  have hh : oneProject.get? ["home"] = some .dir := by decide
  have hv : (scriptsIn "./proj//.//").validate oneProject ["home"] =
      .ok (scriptsIn "/home/proj/") := by decide
  obtain ⟨hc, -, -⟩ := validate_settles ht hh (scriptsIn "./proj//.//")
  exact ⟨ht, hh, hv, (hc _ hv).again.trans (if_pos (by decide))⟩

def detour : Nat → List String
  | 0 => []
  | n + 1 => ".." :: "proj" :: detour n

def detourText : Nat → String
  | 0 => ""
  | n + 1 => "/../proj" ++ detourText n

theorem segment_up : Path.Segment ".." := ⟨by decide, by decide, by decide⟩

theorem segment_proj : Path.Segment "proj" := ⟨by decide, by decide, by decide⟩

theorem segment_of_mem_detour (h : s ∈ detour n) : Path.Segment s := by
  induction n with
  | zero => cases h
  | succ n ih =>
    rcases List.mem_cons.mp h with rfl | h
    · exact segment_up
    · rcases List.mem_cons.mp h with rfl | h
      · exact segment_proj
      · exact ih h

theorem foldl_join_detour (hp : Path.isOpen p = false) (n : Nat) :
    (detour n).foldl Path.join p = p ++ detourText n := by
  induction n generalizing p with
  | zero => exact String.append_empty.symm
  | succ n ih =>
    have hu := Path.not_isOpen_append (p ++ "/") segment_up
    rw [detour, List.foldl_cons, List.foldl_cons, Path.join_of_not_isOpen hp,
      Path.join_of_not_isOpen hu, ih (Path.not_isOpen_append _ segment_proj), detourText]
    simp only [String.append_assoc]
    rfl

theorem utf8ByteSize_detourText (n : Nat) : (detourText n).utf8ByteSize = 8 * n := by
  induction n with
  | zero => rfl
  | succ n ih =>
    rw [detourText, String.utf8ByteSize_append, ih]
    exact Nat.add_comm 8 (8 * n)

theorem no_nul_detourText (n : Nat) : '\x00' ∉ (detourText n).toList := by
  induction n with
  | zero => decide
  | succ n ih =>
    rw [detourText, String.toList_append, List.mem_append, not_or]
    exact ⟨by decide, ih⟩

theorem walk_detour (n : Nat) : oneProject.walk true linkLimit ["home", "proj"] (detour n) =
    .ok (.found ["home", "proj"] .dir) := by
  obtain ⟨onLink, hw⟩ := walk_eq oneProject true linkLimit
  rw [hw]
  induction n with
  | zero => rfl
  | succ n ih => exact ih

def longWay (n : Nat) : String := "proj" ++ detourText n

theorem longWay_eq (n : Nat) : longWay n = ("proj" :: detour n).foldl Path.join "" :=
  (foldl_join_detour (by decide) n).symm

theorem segment_of_mem_cons_detour : ∀ s ∈ "proj" :: detour n, Path.Segment s := by
  intro s hs
  rcases List.mem_cons.mp hs with rfl | hs
  · exact segment_proj
  · exact segment_of_mem_detour hs

theorem names_longWay (n : Nat) : Path.names (longWay n) = "proj" :: detour n := by
  rw [longWay_eq]
  exact Path.names_foldl_join segment_of_mem_cons_detour ""

theorem not_isOpen_longWay (n : Nat) : Path.isOpen (longWay n) = false := by
  rw [longWay_eq]
  exact Path.not_isOpen_foldl_join segment_of_mem_cons_detour (List.cons_ne_nil _ _) ""

theorem isAbsolute_longWay (n : Nat) : Path.isAbsolute (longWay n) = false := by
  rw [longWay_eq]
  have hp : "proj" ≠ "" := by decide
  exact Path.isAbsolute_foldl_join hp (detour n)

theorem utf8ByteSize_longWay (n : Nat) : (longWay n).utf8ByteSize = 4 + 8 * n := by
  rw [longWay, String.utf8ByteSize_append, utf8ByteSize_detourText]
  rfl

theorem dirAt?_longWay (hn : 4 + 8 * n < pathLimit) :
    oneProject.dirAt? ["home"] (longWay n) = some ["home", "proj"] := by
  have hz : '\x00' ∉ (longWay n).toList := by
    rw [longWay, String.toList_append, List.mem_append, not_or]
    exact ⟨by decide, no_nul_detourText n⟩
  have hne := Path.ne_empty_of_not_isOpen (not_isOpen_longWay n)
  rw [← utf8ByteSize_longWay] at hn
  apply dirAt?_eq_some.mpr
  rw [find_eq_of_walk_names hz hne, if_pos hn]
  rw [isAbsolute_longWay, names_longWay]
  exact walk_detour n

theorem absolute?_longWay (n : Nat) :
    Path.absolute? (Location.path ["home"]) (longWay n) = some ("/home/proj" ++ detourText n) := by
  have ho := not_isOpen_longWay n
  have hp : Path.join (Location.path ["home"]) "proj" = "/home/proj" := by decide
  refine Path.absolute?_eq_some.mpr ⟨Path.ne_empty_of_not_isOpen ho, ?_⟩
  rw [Path.endedNames_of_not_isOpen ho, names_longWay, isAbsolute_longWay,
    if_neg Bool.false_ne_true, List.foldl_cons, hp]
  exact foldl_join_detour (by decide) n

/-- Settings can be checked whose root is not found any more when they are checked again. -/
theorem validate_longWay (hn : 4 + 8 * n < pathLimit) (hm : pathLimit ≤ 10 + 8 * n) :
    ∃ checked, (scriptsIn (longWay n)).validate oneProject ["home"] = .ok checked ∧
      oneProject.dirAt? ["home"] checked.root = none ∧
      checked.validate oneProject ["home"] = .error (.rootMissing checked.root) := by
  have hl := dirAt?_longWay hn
  have hs : (scriptsIn (longWay n)).Sound oneProject ["home"] := by
    refine ⟨isDir_of_find (find_of_dirAt? hl), ?_⟩
    intro dir hp
    cases hp
  have hlt : ¬("/home/proj" ++ detourText n).utf8ByteSize < pathLimit := by
    rw [String.utf8ByteSize_append, utf8ByteSize_detourText]
    exact Nat.not_lt.mpr hm
  have hf := Rooted.find_absolute?_eq (by decide) (by decide) hl (absolute?_longWay n) ["home"]
  rw [if_neg hlt] at hf
  refine ⟨_, validate_eq_ok_iff.mpr ⟨hs, _, absolute?_longWay n, rfl⟩, ?_, ?_⟩
  · rw [dirAt?, hf]
  · apply Fault.validate
    apply Fault.rootMissing
    rw [pathExists, hf]
    rfl

theorem validate_longWay_twice : oneProject.Rooted ∧ oneProject.get? ["home"] = some .dir ∧
    oneProject.dirAt? ["home"] (longWay 511) = some ["home", "proj"] ∧
    ∃ checked, (scriptsIn (longWay 511)).validate oneProject ["home"] = .ok checked ∧
      oneProject.dirAt? ["home"] checked.root = none ∧
      checked.validate oneProject ["home"] = .error (.rootMissing checked.root) := by
  have hn : 4 + 8 * 511 < pathLimit := by decide
  exact ⟨by decide, by decide, dirAt?_longWay hn, validate_longWay hn (by decide)⟩

end Settings
end Triage
