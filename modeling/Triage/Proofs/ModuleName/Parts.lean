import Mathlib.Data.List.Basic
import Triage.ModuleName
import Triage.Proofs.Text.Lines

set_option autoImplicit true

namespace Triage

open Text

theorem Path.below?_eq_some : below? root p = some cs ↔ components p = components root ++ cs := by
  rw [below?]
  constructor
  · intro h
    split at h
    next hp =>
      obtain ⟨ds, hd⟩ := List.isPrefixOf_iff_prefix.mp hp
      rw [← hd, List.drop_left, Option.some.injEq] at h
      rw [← hd, h]
    · cases h
  · intro h
    rw [h, if_pos (List.isPrefixOf_iff_prefix.mpr (List.prefix_append _ _)), List.drop_left]

namespace ModuleName

def Identifier (s : String) : Prop :=
  ∃ c cs, s.toList = c :: cs ∧ (isAlphabetic c = true ∨ c = '_') ∧
    ∀ d ∈ cs, isAlphanumeric d = true ∨ d = '_'

theorem isIdentifier_iff : isIdentifier s = true ↔ Identifier s := by
  unfold isIdentifier Identifier
  cases s.toList with
  | nil => simp
  | cons c cs => simp

theorem identifier_packageFile : Identifier packageFile :=
  isIdentifier_iff.mp (by decide +kernel)

theorem Identifier.of_mem (h : Identifier s) (hc : c ∈ s.toList) :
    isAlphanumeric c = true ∨ c = '_' := by
  obtain ⟨d, ds, hs, hd, hds⟩ := h
  rw [hs] at hc
  rcases List.mem_cons.mp hc with rfl | hc
  · exact hd.imp_left fun ha => by rw [isAlphanumeric, ha, Bool.true_or]
  · exact hds c hc

theorem Identifier.not_mem (h : Identifier s) (ha : isAlphanumeric c = false) (hu : c ≠ '_') :
    c ∉ s.toList := by
  intro hc
  rcases h.of_mem hc with hc | hc
  · cases ha.symm.trans hc
  · exact hu hc

theorem Identifier.no_dot (h : Identifier s) : '.' ∉ s.toList :=
  h.not_mem (by decide +kernel) (by decide)

theorem Identifier.no_slash (h : Identifier s) : '/' ∉ s.toList :=
  h.not_mem (by decide +kernel) (by decide)

theorem Identifier.eq_name {c : Component} (h : Identifier s) (hc : c.text = s ++ t) :
    c = .name (s ++ t) := by
  have hd : s.toList ≠ [] := by
    obtain ⟨d, ds, hs, -⟩ := h
    exact hs ▸ List.cons_ne_nil d ds
  obtain ⟨d, ds, hs⟩ := List.exists_cons_of_ne_nil hd
  have ht := congrArg String.toList hc
  rw [String.toList_append, hs, List.cons_append] at ht
  have hm : d ∈ s.toList := hs ▸ List.mem_cons_self
  cases c with
  | name n => exact congrArg Component.name hc
  | root =>
    cases (List.cons.inj ht).1
    exact absurd hm h.no_slash
  | here | up =>
    cases (List.cons.inj ht).1
    exact absurd hm h.no_dot

theorem eq_map_name {dirs : List Component} (h : ∀ c ∈ dirs, Identifier c.text) :
    dirs = (dirs.map Component.text).map .name := by
  rw [List.map_map]
  refine (List.map_id dirs).symm.trans (List.map_congr_left fun c hc => ?_)
  have hn : c.text = c.text ++ "" := String.append_empty.symm
  simpa using (h c hc).eq_name hn

theorem stem?_eq_some : stem? extension file = some stem ↔ file = stem ++ "." ++ extension := by
  have hf : file = stem ++ "." ++ extension ↔
      file.toList = stem.toList ++ '.' :: extension.toList := by
    rw [← String.toList_inj, String.toList_append, String.toList_append, List.append_assoc]
    rfl
  rw [stem?, Option.map_eq_some_iff, hf]
  constructor
  · rintro ⟨t, ht, rfl⟩
    rw [String.toList_ofList]
    exact stripSuffix?_eq_some.mp ht
  · exact fun h => ⟨stem.toList, stripSuffix?_eq_some.mpr h, String.ofList_toList⟩

def partsOf (dirs : List Component) (stem : String) : List String :=
  dirs.map Component.text ++ if stem = packageFile then [] else [stem]

theorem parts?_eq_some : parts? below extension = some parts ↔
    ∃ dirs last stem, below = dirs ++ [last] ∧ last.text = stem ++ "." ++ extension ∧
      parts = partsOf dirs stem := by
  rcases List.eq_nil_or_concat below with rfl | ⟨ds, c, rfl⟩
  · simp [parts?]
  · simp only [parts?, List.concat_eq_append, List.map_append, List.map_singleton,
      List.getLast?_concat, List.dropLast_concat, Option.bind_eq_bind, Option.bind_some,
      Option.bind_eq_some_iff, stem?_eq_some]
    constructor
    · rintro ⟨stem, hc, hp⟩
      refine ⟨ds, c, stem, rfl, hc, ?_⟩
      cases hp
      unfold partsOf
      split <;> simp
    · rintro ⟨dirs, last, stem, he, hl, rfl⟩
      obtain ⟨rfl, rfl⟩ := List.append_inj' he rfl |>.imp_right (List.cons.inj · |>.1)
      refine ⟨stem, hl, ?_⟩
      unfold partsOf
      split <;> simp

/-- A path leads from a root through directories to a file with the extension, and all parts of
their names are identifiers. -/
structure NamedBy (root path extension m : String) (dirs : List Component) (stem : String) :
    Prop where
  below : ∃ last, Path.components path = Path.components root ++ dirs ++ [last] ∧
    last.text = stem ++ "." ++ extension
  ne_nil : partsOf dirs stem ≠ []
  identifiers : ∀ s ∈ partsOf dirs stem, Identifier s
  joined : m = ".".intercalate (partsOf dirs stem)

theorem ofPath?_eq_some : ofPath? root path extension = some m ↔
    ∃ dirs stem, NamedBy root path extension m dirs stem := by
  simp only [ofPath?, Option.bind_eq_bind, Option.bind_eq_some_iff, Path.below?_eq_some,
    parts?_eq_some, Option.ite_none_left_eq_some, Bool.not_eq_true, Bool.or_eq_false_iff,
    Bool.not_eq_false', List.isEmpty_eq_false_iff, List.all_eq_true, isIdentifier_iff,
    Option.some.injEq]
  constructor
  · rintro ⟨_, hc, _, ⟨dirs, last, stem, rfl, hl, rfl⟩, ⟨hne, hi⟩, hm⟩
    exact ⟨dirs, stem, ⟨last, by rw [hc, List.append_assoc], hl⟩, hne, hi, hm.symm⟩
  · rintro ⟨dirs, stem, ⟨last, hc, hl⟩, hne, hi, hm⟩
    exact ⟨_, by rw [hc, List.append_assoc], _, ⟨dirs, last, stem, rfl, hl, rfl⟩, ⟨hne, hi⟩,
      hm.symm⟩

theorem mem_partsOf : s ∈ partsOf dirs stem ↔
    s ∈ dirs.map Component.text ∨ stem ≠ packageFile ∧ s = stem := by
  rw [partsOf, List.mem_append]
  split <;> simp_all

namespace NamedBy

variable {root path extension m stem : String} {dirs : List Component}

theorem stem_identifier (h : NamedBy root path extension m dirs stem) : Identifier stem := by
  by_cases hs : stem = packageFile
  · exact hs ▸ identifier_packageFile
  · exact h.identifiers stem (mem_partsOf.mpr (.inr ⟨hs, rfl⟩))

theorem dirs_eq (h : NamedBy root path extension m dirs stem) :
    dirs = (dirs.map Component.text).map .name :=
  eq_map_name fun _ hc =>
    h.identifiers _ (mem_partsOf.mpr (.inl (List.mem_map_of_mem hc)))

theorem components_eq (h : NamedBy root path extension m dirs stem) : Path.components path =
    Path.components root ++ dirs ++ [.name (stem ++ "." ++ extension)] := by
  obtain ⟨last, hc, hl⟩ := h.below
  rw [String.append_assoc] at hl ⊢
  rw [hc, h.stem_identifier.eq_name hl]

theorem map_ofList_splitAt (h : NamedBy root path extension m dirs stem) :
    (splitAt '.' m.toList).map String.ofList = partsOf dirs stem := by
  rw [h.joined]
  exact map_ofList_splitAt_intercalate rfl (fun s hs => (h.identifiers s hs).no_dot) h.ne_nil

theorem of_mem (h : NamedBy root path extension m dirs stem) (hc : c ∈ m.toList) :
    isAlphanumeric c = true ∨ c = '_' ∨ c = '.' := by
  rw [h.joined, String.toList_intercalate] at hc
  rcases mem_intercalate hc with hc | ⟨p, hp, hc⟩
  · exact .inr (.inr (List.eq_of_mem_singleton hc))
  · obtain ⟨s, hs, rfl⟩ := List.mem_map.mp hp
    exact ((h.identifiers s hs).of_mem hc).imp_right .inl

end NamedBy

/-- One file lies beside a directory that has its name without the extension, and the other is the
package file of that directory. -/
def Twins (extension p q : String) : Prop :=
  ∃ (dir : List Component) (x : String), x ≠ packageFile ∧
    Path.components p = dir ++ [.name (x ++ "." ++ extension)] ∧
    Path.components q = dir ++ [.name x, .name (packageFile ++ "." ++ extension)]

section Shared

variable {root extension p q m n stem stem' : String} {dirs dirs' : List Component}

theorem NamedBy.partsOf_eq (h : NamedBy root p extension m dirs stem)
    (h' : NamedBy root q extension m dirs' stem') : partsOf dirs stem = partsOf dirs' stem' :=
  h.map_ofList_splitAt.symm.trans h'.map_ofList_splitAt

theorem NamedBy.components_congr (h : NamedBy root p extension m dirs stem)
    (h' : NamedBy root q extension n dirs' stem')
    (hd : dirs.map Component.text = dirs'.map Component.text) (hs : stem = stem') :
    Path.components p = Path.components q := by
  rw [h.components_eq, h'.components_eq, h.dirs_eq, h'.dirs_eq, hd, hs]

theorem NamedBy.twins (h : NamedBy root p extension m dirs stem)
    (h' : NamedBy root q extension m dirs' stem') (hs : stem ≠ packageFile)
    (hs' : stem' = packageFile) : Twins extension p q := by
  have hp := h.partsOf_eq h'
  rw [partsOf, if_neg hs, partsOf, if_pos hs', List.append_nil] at hp
  have hd : dirs' = dirs ++ [.name stem] := by
    rw [h'.dirs_eq, ← hp, List.map_append, ← h.dirs_eq, List.map_singleton]
  refine ⟨Path.components root ++ dirs, stem, hs, h.components_eq, ?_⟩
  rw [h'.components_eq, hd, hs']
  simp only [List.append_assoc, List.cons_append, List.nil_append]

theorem NamedBy.eq_or_twins (h : NamedBy root p extension m dirs stem)
    (h' : NamedBy root q extension m dirs' stem') :
    Path.components p = Path.components q ∨ Twins extension p q ∨ Twins extension q p := by
  have hp := h.partsOf_eq h'
  -- The last part is a directory of one path and the file of the other if only one is a package.
  by_cases hs : stem = packageFile <;> by_cases hs' : stem' = packageFile
  · rw [partsOf, if_pos hs, partsOf, if_pos hs', List.append_nil, List.append_nil] at hp
    exact .inl (h.components_congr h' hp (hs.trans hs'.symm))
  · exact .inr (.inr (h'.twins h hs' hs))
  · exact .inr (.inl (h.twins h' hs hs'))
  · rw [partsOf, if_neg hs, partsOf, if_neg hs'] at hp
    obtain ⟨hd, he⟩ := List.append_inj' hp rfl
    exact .inl (h.components_congr h' hd (List.cons.inj he).1)

theorem NamedBy.unique (h : NamedBy root p extension m dirs stem)
    (hc : Path.components p = Path.components root ++ ds ++ [.name (s ++ "." ++ extension)]) :
    dirs = ds ∧ stem = s := by
  rw [h.components_eq, List.append_assoc, List.append_assoc, List.append_cancel_left_eq] at hc
  obtain ⟨hd, he⟩ := List.append_inj' hc rfl
  refine ⟨hd, ?_⟩
  have he := Component.name.inj (List.cons.inj he).1
  rwa [String.append_assoc, String.append_assoc, String.append_left_inj] at he

theorem NamedBy.eq_of_twins (h : NamedBy root p extension m dirs stem)
    (h' : NamedBy root q extension n dirs' stem') (ht : Twins extension p q) : m = n := by
  obtain ⟨dir, x, hx, hp, hq⟩ := ht
  have hd : dir = Path.components root ++ dirs := by
    rw [h.components_eq] at hp
    exact (List.append_inj' hp rfl).1.symm
  subst hd
  obtain ⟨-, rfl⟩ := h.unique hp
  have hq : Path.components q = Path.components root ++ (dirs ++ [.name stem]) ++
      [.name (packageFile ++ "." ++ extension)] := by simp [hq]
  obtain ⟨rfl, rfl⟩ := h'.unique hq
  rw [h.joined, h'.joined, partsOf, if_neg hx, partsOf, if_pos rfl]
  simp [Component.text]

/-- What keeps a file from having a module name: it is the package file of the root, or one of the
names that its module name would be made of is no identifier. -/
def Unimportable (names : List String) (stem : String) : Prop :=
  names = [] ∧ stem = packageFile ∨ ∃ s ∈ names ++ [stem], ¬Identifier s

theorem ofPath?_eq_none {names : List String} (hc : Path.components p =
      Path.components root ++ names.map .name ++ [.name (stem ++ "." ++ extension)]) :
    ofPath? root p extension = none ↔ Unimportable names stem := by
  have ht : (names.map Component.name).map Component.text = names := by
    rw [List.map_map]
    exact List.map_id names
  constructor
  · intro h
    by_contra hu
    obtain ⟨hp, hi⟩ := not_or.mp hu
    have hi : ∀ s ∈ names ++ [stem], Identifier s := fun s hs => by_contra fun h => hi ⟨s, hs, h⟩
    refine Option.eq_none_iff_forall_ne_some.mp h _
      (ofPath?_eq_some.mpr ⟨names.map .name, stem, ⟨_, hc, rfl⟩, ?_, ?_, rfl⟩)
    · rw [partsOf, ht]
      split
      next hs => exact fun hn => hp ⟨(List.append_eq_nil_iff.mp hn).1, hs⟩
      · exact List.concat_ne_nil stem names
    · intro s hs
      rw [mem_partsOf, ht] at hs
      exact hi s (by simpa using hs.imp_right And.right)
  · intro hu
    rw [Option.eq_none_iff_forall_ne_some]
    intro m hm
    obtain ⟨dirs, stem', h⟩ := ofPath?_eq_some.mp hm
    obtain ⟨rfl, rfl⟩ := h.unique hc
    rcases hu with ⟨rfl, hs⟩ | ⟨s, hs, hi⟩
    · exact h.ne_nil (by rw [partsOf, if_pos hs]; rfl)
    · rcases List.mem_append.mp hs with hs | hs
      · exact hi (h.identifiers s (mem_partsOf.mpr (.inl (ht.symm ▸ hs))))
      · exact hi (List.eq_of_mem_singleton hs ▸ h.stem_identifier)

end Shared

/-- A path has a module name if it leads from the root through directories to a file with the
extension, and the names of the directories and of the file without the extension, which does not
count for a package file, are identifiers and not none at all; the module name is made of them, with
dots between.  Two files share a name if and only if their paths have the same components, or one
lies beside a directory called like it and the other is the package file of that directory. -/
theorem named_by_parts (root extension : String) :
    (∀ path m, ofPath? root path extension = some m ↔
      ∃ dirs stem, NamedBy root path extension m dirs stem) ∧
    (∀ path m, ofPath? root path extension = some m →
      ∀ c ∈ m.toList, isAlphanumeric c = true ∨ c = '_' ∨ c = '.') ∧
    ∀ p q m n, ofPath? root p extension = some m → ofPath? root q extension = some n →
      (m = n ↔
        Path.components p = Path.components q ∨ Twins extension p q ∨ Twins extension q p) := by
  refine ⟨fun path m => ofPath?_eq_some, fun path m h c hc => ?_, fun p q m n hp hq => ?_⟩
  · obtain ⟨dirs, stem, h⟩ := ofPath?_eq_some.mp h
    exact h.of_mem hc
  · obtain ⟨dirs, stem, h⟩ := ofPath?_eq_some.mp hp
    obtain ⟨dirs', stem', h'⟩ := ofPath?_eq_some.mp hq
    constructor
    · rintro rfl
      exact h.eq_or_twins h'
    · rintro (hc | ht | ht)
      · rw [ofPath?, Path.below?, hc] at hp
        exact Option.some.inj (hp.symm.trans hq)
      · exact h.eq_of_twins h' ht
      · exact (h'.eq_of_twins h ht).symm

theorem named_by_parts_of_package :
    ofPath? "/p" "/p/a/x.py" "py" = some "a.x" ∧
      ofPath? "/p" "/p//a/./x/__init__.py" "py" = some "a.x" ∧
      (Twins "py" "/p/a/x.py" "/p//a/./x/__init__.py" ∨
        Twins "py" "/p//a/./x/__init__.py" "/p/a/x.py") := by
  have hp : ofPath? "/p" "/p/a/x.py" "py" = some "a.x" := by decide +kernel
  have hq : ofPath? "/p" "/p//a/./x/__init__.py" "py" = some "a.x" := by decide +kernel
  have h := ((named_by_parts "/p" "py").2.2 _ _ _ _ hp hq).mp rfl
  exact ⟨hp, hq, h.resolve_left (by decide)⟩

end ModuleName
end Triage
