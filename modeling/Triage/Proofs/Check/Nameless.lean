import Triage.Proofs.Check.Decision
import Triage.Proofs.Discovery.Complete
import Triage.Proofs.FileTree.Absolute
import Triage.Proofs.ModuleName.Parts

set_option autoImplicit true

namespace Triage

open Triage.Path (FileName)

theorem Component.ofPart?_fileName (hn : FileName n) : ofPart? n.toList = some (.name n) := by
  have he : n.toList ≠ [] := fun h => hn.ne_empty (String.toList_inj.mp h)
  have hh : n.toList ≠ ['.'] := fun h => hn.ne_here (String.toList_inj.mp h)
  have hu : n.toList ≠ ['.', '.'] := fun h => hn.ne_up (String.toList_inj.mp h)
  rw [ofPart?, if_neg (not_or.mpr ⟨he, hh⟩), if_neg hu, String.ofList_toList]

theorem Path.components_of_fileNames (ha : isAbsolute root = true) {ns : List String}
    (hn : ∀ n ∈ ns, FileName n) (hne : ns ≠ []) :
    components (ns.foldl join root) = components root ++ ns.map .name := by
  have hr : root ≠ "" := by
    rintro rfl
    cases ha
  have hp : (ns.map String.toList).filterMap Component.ofPart? = ns.map .name := by
    rw [List.filterMap_map, ← List.filterMap_eq_map]
    exact List.filterMap_congr fun n hm => Component.ofPart?_fileName (hn n hm)
  rw [components_foldl_join hr (fun n hm => (hn n hm).toSegment) hne, hp, trunk_of_isAbsolute ha]

theorem Discovery.exists_stem_of_hasExtension (h : HasExtension last extension) :
    ∃ stem, last = stem ++ "." ++ extension := by
  obtain ⟨stem, -, -, hl⟩ := h
  refine ⟨String.ofList stem, ?_⟩
  rw [← String.toList_inj, hl, String.toList_append, String.toList_append, String.toList_ofList,
    List.append_assoc]
  rfl

namespace Check

open ModuleName

variable {settings checked : Settings} {t : FileTree} {here : Location} {file path : String}

theorem exists_components_of_mem_collect (ht : t.Rooted) (hh : t.get? here = some .dir)
    (hv : settings.validate t here = .ok checked) (hf : file ∈ Discovery.collect t here checked) :
    (∀ dir, Path.absolute? dir file = some file) ∧ ∃ (names : List String) (stem : String),
      Path.components file = Path.components checked.root ++ names.map .name ++
        [.name (stem ++ "." ++ checked.extension)] := by
  obtain ⟨-, hr, -, root, hroot, rfl⟩ := Settings.validate_eq_ok.mp hv
  have hs := ht.wellFormed.segment_of_get? hh
  have hp := Path.resolved_of_absolute? hs hroot
  refine ⟨Discovery.absolute?_of_mem_collect ht.wellFormed hp hf, ?_⟩
  obtain ⟨l, hl⟩ := Discovery.exists_dirAt?_of_mem_collect hf
  obtain ⟨names, last, rfl, h, -⟩ := (Discovery.mem_collect ht hh hl).mp hf
  obtain ⟨stem, rfl⟩ := Discovery.exists_stem_of_hasExtension h.extension
  refine ⟨names, stem, ?_⟩
  rw [Path.components_of_fileNames (ht.isAbsolute_of_absolute? hh hroot) h.fileName
    (List.concat_ne_nil _ _), List.map_append, List.append_assoc]
  rfl

theorem head?_toList_append {a b : String} (h : a.toList.head? = some c) :
    (a ++ b).toList.head? = some c := by
  rw [String.toList_append, List.head?_append, h]
  rfl

theorem classifyValid_ne_processError (settings : Settings) (o : Outcome) :
    (classifyValid settings o).1 ≠ .processError := by
  unfold classifyValid
  cases settings.policy with
  | pass | warn => simp
  | classify => cases hm : missingModuleLine? o.combined.toList <;> simp [hm]

theorem head?_message_classify (h : (classify settings path o v).status = .processError) :
    (classify settings path o v).message.toList.head? = some 'p' := by
  cases v with
  | defect description => cases h
  | unreadable reason => exact head?_toList_append rfl
  | inconclusive doubt => exact head?_toList_append rfl
  | valid =>
    cases ht : o.timedOut with
    | true => cases (classify_status_of_timedOut settings path ht).symm.trans h
    | false =>
      rw [classify_status_of_not_timedOut settings path ht] at h
      exact absurd h (classifyValid_ne_processError settings o)

theorem Concludes.head?_message (h : Concludes settings path a b f)
    (hc : primaryCommand? settings path ≠ none) (hs : f.status = .processError) :
    f.message.toList.head? = some 'p' := by
  cases h with
  | unnamed h => exact absurd h hc
  | unlaunched => exact head?_toList_append rfl
  | passed => cases hs
  | undecided => exact head?_toList_append rfl
  | decided => exact head?_message_classify hs

theorem Concludes.eq_noModuleName_iff (h : Concludes settings path a b f) :
    f = noModuleName path ↔ primaryCommand? settings path = none := by
  constructor
  · rintro rfl
    by_contra hc
    -- The message of a file with a name may hold any output, but not where it starts.
    have hp := h.head?_message hc rfl
    rw [noModuleName, head?_toList_append (c := 'c') rfl] at hp
    cases hp
  · intro hc
    cases h with
    | unnamed => rfl
    | unlaunched h | passed h | undecided h | decided h => cases h.symm.trans hc

theorem start_eq_noModuleName {dir full : String} (h : Path.absolute? dir path = some full) :
    start settings dir path = .done (noModuleName full) ↔ primaryCommand? settings full = none := by
  simp only [start, h]
  cases primaryCommand? settings full <;> simp

/-- A script that was found below a checked root, whatever path that was told by, leads from the
root through names to a file with the extension.  Its check in import mode says that it has no
module name, at once or at all, if and only if one of these names, the last one without the
extension, is no identifier, or it is the package file of the root. -/
theorem nameless_iff {t : FileTree} {here : Location} {settings checked : Settings} {file : String}
    (ht : t.Rooted) (hh : t.get? here = some .dir) (hv : settings.validate t here = .ok checked)
    (hm : settings.mode = .import) (hf : file ∈ Discovery.collect t here checked) :
    ∃ names stem, Path.components file = Path.components checked.root ++ names.map .name ++
        [.name (stem ++ "." ++ checked.extension)] ∧
      ∀ dir, Path.absolute? dir file = some file ∧
        (start checked dir file = .done (noModuleName file) ↔ Unimportable names stem) ∧
        ∀ {σ : Type} (sys : System σ) (r : Registry) (s : σ) (tr : List Notice) (p : Moment σ)
          (f : Finding), History sys checked ⟨start checked dir file, r, s⟩ tr p →
            p.stage.answer? = some (.ok f) → (f = noModuleName file ↔ Unimportable names stem) := by
  obtain ⟨ha, names, stem, hc⟩ := exists_components_of_mem_collect ht hh hv hf
  have hn : primaryCommand? checked file = none ↔ Unimportable names stem := by
    obtain ⟨-, -, -, root, -, rfl⟩ := Settings.validate_eq_ok.mp hv
    rw [primaryCommand?_eq_none, ofPath?_eq_none hc, and_iff_right hm]
  refine ⟨names, stem, hc, fun dir => ⟨ha dir, ?_, fun sys r s tr p f h hx => ?_⟩⟩
  · rw [← hn, start_eq_noModuleName (ha dir)]
  · have hq := h.past (ha dir)
    rw [← hn]
    cases hs : p.stage with
    | done g =>
      rw [hs] at hx hq
      cases hx
      exact hq.eq_noModuleName_iff
    | crashed | primary | parse =>
      rw [hs] at hx
      cases hx

def packageProject : FileTree where
  entries := [(["p"], .dir), (["p", "__init__.py"], .file []), (["p", "a.py"], .file [])]

def importing (root : String) : Settings := { root, mode := .import }

theorem nameless_iff_packageProject :
    (importing "./p//").validate packageProject [] = .ok (importing "/p/") ∧
      start (importing "/p/") "/" "/p/__init__.py" = .done (noModuleName "/p/__init__.py") := by
  have hv : (importing "./p//").validate packageProject [] = .ok (importing "/p/") := by decide
  have hs : Discovery.scripts packageProject (importing "/p/") []
      (Discovery.depthLimit packageProject) [] "/p/" = ["/p/__init__.py", "/p/a.py"] := rfl
  have hf : "/p/__init__.py" ∈ Discovery.collect packageProject [] (importing "/p/") := by
    rw [Discovery.collect, List.mem_mergeSort]
    exact hs ▸ List.mem_cons_self
  obtain ⟨names, stem, hc, h⟩ := nameless_iff (by decide) rfl hv rfl hf
  refine ⟨hv, (h "/").2.1.mpr (.inl ?_)⟩
  have hp : Path.components "/p/__init__.py" =
      Path.components (importing "/p/").root ++ [] ++ [.name "__init__.py"] := by decide
  rw [hp, List.append_assoc, List.append_assoc, List.append_cancel_left_eq] at hc
  obtain ⟨hn, he⟩ := List.append_inj' hc rfl
  refine ⟨List.map_eq_nil_iff.mp hn.symm, ?_⟩
  have hs := stem?_eq_some.mpr (Component.name.inj (List.cons.inj he).1)
  exact Option.some.inj (hs.symm.trans (by decide))

end Check
end Triage
