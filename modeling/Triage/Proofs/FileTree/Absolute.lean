import Triage.Proofs.FileTree.Stepwise

set_option autoImplicit true

namespace Triage

namespace Path

open Text

def names (p : String) : List String := (components p).filterMap Component.kept?

/-- The names that the pieces of a path between slashes stand for. -/
def namesOf (pieces : List (List Char)) : List String :=
  (pieces.filterMap Component.ofPart?).filterMap Component.kept?

theorem namesOf_append (a b : List (List Char)) : namesOf (a ++ b) = namesOf a ++ namesOf b := by
  simp only [namesOf, List.filterMap_append]

theorem kept?_ofPart?_eq (piece : List Char) :
    (Component.ofPart? piece).bind Component.kept? =
      if piece = [] ∨ piece = ['.'] then none else some (String.ofList piece) := by
  unfold Component.ofPart?
  split
  · rfl
  · split
    next h => rw [h]; rfl
    · rfl

theorem names_eq (p : String) : names p = namesOf (splitAt '/' p.toList) := by
  simp only [names, namesOf, components, List.filterMap_append]
  split
  · rfl
  · split <;> rfl

theorem names_eq_stem (p : String) : names p = namesOf (stem p) := by
  cases h : isOpen p with
  | false => rw [names_eq, stem_of_not_isOpen h]
  | true =>
    rw [names_eq, splitAt_of_isOpen h, namesOf_append]
    exact List.append_nil _

theorem names_foldl_join {ns : List String} (hn : ∀ n ∈ ns, Segment n) (p : String) :
    names (ns.foldl join p) = names p ++ ns := by
  rw [names_eq_stem, stem_foldl_join hn, namesOf_append, ← names_eq_stem]
  exact congrArg _ (kept_of_names hn)

theorem names_join_empty (p : String) : names (join p "") = names p := by
  rw [names_eq, splitAt_join p (by decide), namesOf_append, ← names_eq_stem]
  exact List.append_nil _

theorem IsStart.names (h : IsStart start) : names start = [] := by
  rw [names_eq_stem]
  exact h.kept

theorem isAbsolute_path (l : Location) : Path.isAbsolute l.path = true := by
  rw [Path.isAbsolute, Location.path, String.toList_append]
  rfl

theorem names_path {l : Location} (hl : ∀ n ∈ l, Segment n) : names l.path = l := by
  rw [path_eq_foldl_join hl, names_foldl_join hl, IsStart.names (.inl rfl), List.nil_append]

theorem names_absolute? {here : Location} (hh : ∀ n ∈ here, Segment n)
    (h : absolute? here.path p = some q) :
    names q = (if isAbsolute p then [] else here) ++ names p := by
  have hn : ∀ n ∈ names p, Segment n := fun n => segment_of_mem_components
  have hs : names (if isAbsolute p then startOf p.toList else here.path) =
      if isAbsolute p then [] else here := by
    split
    · exact (startOf_isStart p.toList).names
    · exact names_path hh
  unfold absolute? at h
  split at h
  · cases h
  · rw [← hs, ← names_foldl_join hn, ← Option.some.inj h]
    split
    · exact names_join_empty _
    · rfl

theorem Resolved.isAbsolute (h : Resolved p) : isAbsolute p = true := by
  obtain ⟨start, ns, hs, -, hp⟩ := h
  have ha : Path.isAbsolute (ns.foldl join start) = true := by
    rcases hs with rfl | rfl <;> rw [isAbsolute_foldl_join (by decide)] <;> rfl
  rcases hp with rfl | rfl
  · exact ha
  · rwa [show join (ns.foldl join start) "" = [""].foldl join (ns.foldl join start) from rfl,
      isAbsolute_foldl_join]
    intro he
    rw [he] at ha
    cases ha

theorem kept?_of_mem {pieces : List (List Char)} (h : c ∈ pieces.filterMap Component.ofPart?) :
    c.kept? = some c.text := by
  obtain ⟨piece, -, hp⟩ := List.mem_filterMap.mp h
  unfold Component.ofPart? at hp
  split at hp
  · cases hp
  · split at hp <;> cases hp <;> rfl

theorem map_text (pieces : List (List Char)) :
    (pieces.filterMap Component.ofPart?).map Component.text = namesOf pieces := by
  rw [namesOf, ← List.filterMap_eq_map]
  exact List.filterMap_congr fun c hc => (kept?_of_mem hc).symm

theorem parent?_of_isAbsolute (ha : isAbsolute p = true) (hn : names p ≠ []) :
    parent? p = some (Location.path (names p).dropLast) := by
  have hc : components p = .root :: (splitAt '/' p.toList).filterMap Component.ofPart? := by
    simp only [components, ha, if_true, List.singleton_append]
  rw [names_eq, ← map_text] at hn ⊢
  have hne : (splitAt '/' p.toList).filterMap Component.ofPart? ≠ [] :=
    fun h => hn (congrArg _ h)
  obtain ⟨cs, c, he⟩ := (List.eq_nil_or_concat _).resolve_left hne
  rw [List.concat_eq_append] at he
  have hr : c ≠ .root := by
    rintro rfl
    cases kept?_of_mem (c := .root) (he ▸ List.mem_append_right cs List.mem_cons_self)
  rw [parent?, hc, he, ← List.cons_append, List.getLast?_concat, List.dropLast_concat,
    List.map_append, List.map_singleton, List.dropLast_concat]
  cases c with
  | root => exact absurd rfl hr
  | _ => rfl

theorem parent?_foldl_join (ha : isAbsolute root = true) {ns : List String}
    (hn : ∀ n ∈ ns ++ [last], Segment n) :
    parent? ((ns ++ [last]).foldl join root) = some (Location.path (names root ++ ns)) := by
  have hr : root ≠ "" := by
    rintro rfl
    cases ha
  have he := names_foldl_join hn root
  rw [← List.append_assoc] at he
  rw [parent?_of_isAbsolute, he, List.dropLast_concat]
  · rwa [isAbsolute_foldl_join hr]
  · exact he ▸ List.concat_ne_nil last _

end Path

open Triage.Path (FileName Segment)

namespace FileTree

variable {t : FileTree} {here base l k : Location}

theorem filter_parts (p : String) : (parts p).filter (· ≠ ".") = Path.names p := by
  have hp (pieces : List (List Char)) :
      ((pieces.filter (!·.isEmpty)).map String.ofList).filter (· ≠ ".") = Path.namesOf pieces := by
    rw [Path.namesOf, List.filterMap_filterMap]
    induction pieces with
    | nil => rfl
    | cons piece pieces ih =>
      have hd : String.ofList piece = "." ↔ piece = ['.'] := by
        rw [← String.toList_inj, String.toList_ofList]
        rfl
      rw [List.filterMap_cons, Path.kept?_ofPart?_eq, ← ih]
      by_cases he : piece = [] <;> by_cases hs : piece = ['.'] <;> simp_all
  rw [parts, List.filter_append, hp, ← Path.names_eq]
  split <;> simp

theorem walkParts_filter {onLink : Location → List String → Except OsError Place}
    (ho : ∀ {l ps}, onLink l (ps.filter (· ≠ ".")) = .ok (.found k .dir) ↔
      onLink l ps = .ok (.found k .dir)) {ps : List String} :
    t.walkParts true onLink l (ps.filter (· ≠ ".")) = .ok (.found k .dir) ↔
      t.walkParts true onLink l ps = .ok (.found k .dir) := by
  induction ps generalizing l with
  | nil => rfl
  | cons part rest ih =>
    by_cases hp : part = "."
    · subst hp
      simpa [walkParts] using ih
    · have hf : (part :: rest).filter (· ≠ ".") = part :: rest.filter (· ≠ ".") := by simp [hp]
      -- The target of a link keeps its dots, so both sides are cleared of dots once more.
      have hl (base : Location) (target : String) :
          onLink base (parts target ++ rest.filter (· ≠ ".")) = .ok (.found k .dir) ↔
            onLink base (parts target ++ rest) = .ok (.found k .dir) := by
        rw [← ho, List.filter_append, List.filter_filter, ← @ho base (parts target ++ rest),
          List.filter_append]
        simp
      have he {x : Location} : ¬t.Ends true l part (.found x .dir) := by
        intro h
        cases h with
        | found _ _ hd => exact hd rfl
      rw [hf, walkParts_cons, walkParts_cons]
      simp only [ih, hl, he, and_false, or_false, implies_true, true_and]

theorem walk_filter {ps : List String} :
    t.walk true links l (ps.filter (· ≠ ".")) = .ok (.found k .dir) ↔
      t.walk true links l ps = .ok (.found k .dir) := by
  induction links generalizing l ps with
  | zero => exact walkParts_filter (by simp)
  | succ links ih => exact walkParts_filter ih

theorem Rooted.walk_append (h : t.Rooted) (hg : t.get? (l ++ k) = some .dir) (ps : List String) :
    t.walk follow links l (k ++ ps) = t.walk follow links (l ++ k) ps := by
  obtain ⟨onLink, hw⟩ := walk_eq t follow links
  rw [hw]
  clear hw
  induction k generalizing l with
  | nil => rw [List.nil_append, List.append_nil]
  | cons n k ih =>
    rw [List.append_cons] at hg ⊢
    have hd : t.get? (l ++ [n]) = some .dir := by
      rcases eq_or_ne k [] with rfl | hk
      · rwa [List.append_nil] at hg
      · exact h.get?_of_append hk hg
    have hp := proper_fileName (h.fileName hd)
    rw [← ih hg]
    simp [walkParts, hp.ne_here, hp.ne_up, Nat.not_lt.mpr hp.short, hd]

theorem walk_names_of_find (h : t.find here p = .ok (l, .dir)) :
    t.walk true linkLimit (if Path.isAbsolute p then [] else here) (Path.names p) =
      .ok (.found l .dir) := by
  rw [← filter_parts, walk_filter]
  exact walk_of_resolve (find_eq_ok.mp h)

theorem find_of_walk_names
    (hw : t.walk true linkLimit (if Path.isAbsolute p then [] else here) (Path.names p) =
      .ok (.found l .dir)) (h : t.find here p = .ok x) : x = (l, .dir) := by
  rw [← filter_parts, walk_filter] at hw
  obtain ⟨k, e⟩ := x
  cases hw.symm.trans (walk_of_resolve (find_eq_ok.mp h))
  rfl

theorem Rooted.isAbsolute_of_absolute? (h : t.Rooted) (hh : t.get? here = some .dir)
    (hq : Path.absolute? here.path p = some q) : Path.isAbsolute q = true := by
  have hs := h.wellFormed.segment_of_get? hh
  exact (Path.resolved_of_absolute? hs hq).isAbsolute

theorem Rooted.walk_names_absolute? (h : t.Rooted) (hh : t.get? here = some .dir)
    (hp : t.dirAt? here p = some l) (hq : Path.absolute? here.path p = some q) :
    t.walk true linkLimit [] (Path.names q) = .ok (.found l .dir) := by
  rw [Path.names_absolute? (h.wellFormed.segment_of_get? hh) hq]
  have hw := walk_names_of_find (find_of_dirAt? hp)
  split at hw
  next ha => rwa [if_pos ha, List.nil_append]
  next ha =>
    rw [if_neg ha, h.walk_append (l := []) hh]
    exact hw

theorem Rooted.find_absolute? (h : t.Rooted) (hh : t.get? here = some .dir)
    (hp : t.dirAt? here p = some l) (hq : Path.absolute? here.path p = some q)
    (hf : t.find base q = .ok x) : x = (l, .dir) := by
  refine find_of_walk_names ?_ hf
  rw [if_pos (h.isAbsolute_of_absolute? hh hq)]
  exact h.walk_names_absolute? hh hp hq

/-- A path by whose names there is a way to a directory leads there, unless it is too long. -/
theorem find_eq_of_walk_names (hz : '\x00' ∉ p.toList) (hne : p ≠ "")
    (hw : t.walk true linkLimit (if Path.isAbsolute p then [] else here) (Path.names p) =
      .ok (.found l .dir)) :
    t.find here p = if p.utf8ByteSize < pathLimit then .ok (l, .dir) else .error .nameTooLong := by
  rw [← filter_parts, walk_filter] at hw
  split
  next hl => rw [find, resolve_eq_walk t here hz hne hl, hw]
  next hl => rw [find, resolve_of_long t here hz hne (Nat.not_lt.mp hl)]

theorem exists_dirAt? (h : t.isDir here p = true) : ∃ l, t.dirAt? here p = some l :=
  Option.isSome_iff_exists.mp h

theorem dirAt?_of_isAbsolute (t : FileTree) (h : Path.isAbsolute p = true) (here base : Location) :
    t.dirAt? here p = t.dirAt? base p := by
  simp only [dirAt?, find, resolve, h, if_true]

theorem Through.snoc (h : t.Through l ns passed k) (hn : FileName n)
    (hl : t.Leads k n d .dir) : t.Through l (ns ++ [n]) (passed ++ [d]) d := by
  induction h with
  | nil => exact .cons hn hl (.nil d)
  | cons hn' hl' _ ih => exact .cons hn' hl' (ih hl)

theorem exists_through_of_walk_dir {ns : List String} (hn : ∀ n ∈ ns, FileName n)
    (h : t.walk true linkLimit l ns = .ok (.found k .dir)) : ∃ passed, t.Through l ns passed k := by
  rcases List.eq_nil_or_concat ns with rfl | ⟨ms, last, rfl⟩
  · cases h
    exact ⟨[l], .nil l⟩
  · rw [List.concat_eq_append] at hn h ⊢
    obtain ⟨passed, d, ht, hf⟩ := exists_through_of_walk hn h
    have hl := hn last (by simp)
    exact ⟨passed ++ [k], ht.snoc hl (leads_of_find hl hf)⟩

theorem exists_through_of_path {root : String} {ns : List String}
    (ha : Path.isAbsolute root = true) (hr : t.dirAt? base root = some l)
    (hn : ∀ n ∈ ns, FileName n)
    (hf : t.find base (Location.path (Path.names root ++ ns)) = .ok (k, .dir)) :
    ∃ passed, t.Through l ns passed k := by
  have hs : ∀ n ∈ Path.names root ++ ns, Segment n := by
    intro n hm
    rcases List.mem_append.mp hm with hm | hm
    · exact Path.segment_of_mem_components hm
    · exact (hn n hm).toSegment
  have hw := walk_names_of_find hf
  rw [if_pos (Path.isAbsolute_path _), Path.names_path hs] at hw
  have hl := walk_names_of_find (find_of_dirAt? hr)
  rw [if_pos ha] at hl
  apply exists_through_of_walk_dir hn
  rcases eq_or_ne ns [] with rfl | hne
  · rw [List.append_nil, hl] at hw
    cases hw
    rfl
  · obtain ⟨d, hd, hw⟩ := walk_append hne hw
    cases hl.symm.trans hd
    exact hw

end FileTree
end Triage
