import Triage.Proofs.FileTree.Rooted

set_option autoImplicit true

namespace Triage.FileTree

open Triage.Path (Segment FileName)

/-- A name in a directory leads there, through however many links. -/
def Leads (t : FileTree) (dir : Location) (n : String) (l : Location) (e : Entry) : Prop :=
  ∃ links, t.walk true links dir [n] = .ok (.found l e)

/-- Names lead from a directory to another one, through these directories; links are followed. -/
inductive Through (t : FileTree) : Location → List String → List Location → Location → Prop
  | nil (dir : Location) : t.Through dir [] [dir] dir
  | cons (hn : FileName n) (hl : t.Leads dir n k .dir) (h : t.Through k ns passed l) :
      t.Through dir (n :: ns) (dir :: passed) l

/-- The system does not take a path that is too long or leads through too many links. -/
def Refused (t : FileTree) (here : Location) (p : String) : Prop :=
  4096 ≤ p.utf8ByteSize ∨
    t.walk true 40 (if Path.isAbsolute p then [] else here) (parts p) = .error .tooManyLinks

variable {t : FileTree} {here l dir : Location}

theorem Through.fileName (h : t.Through l ns passed k) : ∀ n ∈ ns, FileName n := by
  induction h with
  | nil => exact fun _ hm => absurd hm List.not_mem_nil
  | cons hn _ _ ih =>
    intro m hm
    rcases List.mem_cons.mp hm with rfl | hm
    · exact hn
    · exact ih m hm

theorem walkParts_mono {onLink onLink' : Location → List String → Except OsError Place}
    (ho : ∀ {l ps}, onLink l ps = .ok x → onLink' l ps = .ok x) {ps : List String}
    (h : t.walkParts follow onLink l ps = .ok x) : t.walkParts follow onLink' l ps = .ok x := by
  induction ps generalizing l with
  | nil => exact h
  | cons part rest ih =>
    rw [walkParts_cons] at h ⊢
    rcases h with ⟨k, he, h⟩ | ⟨target, hp, hg, hf, h⟩ | h
    · exact .inl ⟨k, he, ih h⟩
    · exact .inr (.inl ⟨target, hp, hg, hf, ho h⟩)
    · exact .inr (.inr h)

theorem walk_succ (h : t.walk follow links l ps = .ok x) :
    t.walk follow (links + 1) l ps = .ok x := by
  induction links generalizing l ps with
  | zero => exact walkParts_mono (fun ho => by cases ho) h
  | succ links ih => exact walkParts_mono ih h

theorem walk_mono (hl : links ≤ links') (h : t.walk follow links l ps = .ok x) :
    t.walk follow links' l ps = .ok x := by
  induction hl with
  | refl => exact h
  | step _ ih => exact walk_succ ih

theorem walk_unique (h : t.walk follow links l ps = .ok x) (h' : t.walk follow links' l ps = .ok y) :
    x = y := by
  rcases Nat.le_total links links' with hl | hl
  · exact Except.ok.inj ((walk_mono hl h).symm.trans h')
  · exact Except.ok.inj (h.symm.trans (walk_mono hl h'))

theorem walkParts_fewer {onLink onLink' : Location → List String → Except OsError Place}
    (ho : ∀ {l ps}, onLink l ps = .ok x → onLink' l ps = .ok x ∨ onLink' l ps = .error f)
    {ps : List String} (h : t.walkParts follow onLink l ps = .ok x) :
    t.walkParts follow onLink' l ps = .ok x ∨ t.walkParts follow onLink' l ps = .error f := by
  induction ps generalizing l with
  | nil => exact .inl h
  | cons part rest ih =>
    rcases walkParts_cons.mp h with ⟨k, he, h⟩ | ⟨target, hp, hg, hf, h⟩ | he
    · rw [walkParts_of_enters he]
      exact ih h
    · rw [walkParts_of_link hp hg hf]
      exact ho h
    · exact .inl (walkParts_cons.mpr (.inr (.inr he)))

theorem walk_fewer (hl : links' ≤ links) (h : t.walk follow links l ps = .ok x) :
    t.walk follow links' l ps = .ok x ∨ t.walk follow links' l ps = .error .tooManyLinks := by
  induction links' generalizing links l ps with
  | zero =>
    cases links with
    | zero => exact .inl h
    | succ links => exact walkParts_fewer (fun _ => .inr rfl) h
  | succ links' ih =>
    obtain ⟨links, rfl⟩ := Nat.exists_eq_add_one_of_ne_zero (Nat.ne_zero_of_lt hl)
    exact walkParts_fewer (fun h => ih (Nat.le_of_succ_le_succ hl) h) h

/-- With any other number of links, the same way ends or is given up. -/
theorem walk_of_walk (links' : Nat) (h : t.walk follow links l ps = .ok x) :
    t.walk follow links' l ps = .ok x ∨ t.walk follow links' l ps = .error .tooManyLinks := by
  rcases Nat.le_total links links' with hl | hl
  · exact .inl (walk_mono hl h)
  · exact walk_fewer hl h

theorem walkParts_append {onLink : Location → List String → Except OsError Place}
    (hq : qs ≠ [])
    (ho : ∀ {l ps}, onLink l (ps ++ qs) = .ok x →
      ∃ k, onLink l ps = .ok (.found k .dir) ∧ t.walkParts true onLink k qs = .ok x)
    {ps : List String} (h : t.walkParts true onLink l (ps ++ qs) = .ok x) :
    ∃ k, t.walkParts true onLink l ps = .ok (.found k .dir) ∧
      t.walkParts true onLink k qs = .ok x := by
  induction ps generalizing l with
  | nil => exact ⟨l, rfl, h⟩
  | cons part rest ih =>
    rw [List.cons_append, walkParts_cons] at h
    rcases h with ⟨d, he, h⟩ | ⟨target, hp, hg, -, h⟩ | ⟨hn, -⟩
    · obtain ⟨k, hk, hx⟩ := ih h
      exact ⟨k, walkParts_cons.mpr (.inl ⟨d, he, hk⟩), hx⟩
    · rw [← List.append_assoc] at h
      obtain ⟨k, hk, hx⟩ := ho h
      exact ⟨k, walkParts_cons.mpr (.inr (.inl ⟨target, hp, hg, fun _ => rfl, hk⟩)), hx⟩
    · exact absurd (List.append_eq_nil_iff.mp hn).2 hq

theorem walk_append (hq : qs ≠ []) {ps : List String}
    (h : t.walk true links l (ps ++ qs) = .ok x) :
    ∃ k, t.walk true links l ps = .ok (.found k .dir) ∧ t.walk true links k qs = .ok x := by
  -- The target of a link comes in front of what is left of `ps`, so `ps` need not get shorter.
  induction links generalizing l ps with
  | zero => exact walkParts_append hq (fun ho => by cases ho) h
  | succ links ih =>
    refine walkParts_append hq (fun ho => ?_) h
    obtain ⟨k, hk, hx⟩ := ih ho
    exact ⟨k, hk, walk_succ hx⟩

theorem walkParts_append_of {onLink onLink' : Location → List String → Except OsError Place}
    (hw : t.walkParts true onLink' k qs = .ok x)
    (ho : ∀ {l ps}, onLink l ps = .ok (.found k .dir) → onLink' l (ps ++ qs) = .ok x)
    {ps : List String} (h : t.walkParts true onLink l ps = .ok (.found k .dir)) :
    t.walkParts true onLink' l (ps ++ qs) = .ok x := by
  induction ps generalizing l with
  | nil =>
    cases h
    exact hw
  | cons part rest ih =>
    rcases walkParts_cons.mp h with ⟨d, he, h⟩ | ⟨target, hp, hg, -, h⟩ | ⟨-, he⟩
    · rw [List.cons_append, walkParts_of_enters he]
      exact ih h
    · rw [List.cons_append, walkParts_of_link hp hg fun _ => rfl, ← List.append_assoc]
      exact ho h
    · cases he with
      | found _ _ hd => exact absurd rfl hd

/-- A way on from where another one ends needs no more links than the two together. -/
theorem walk_append_of (h : t.walk true links l ps = .ok (.found k .dir))
    (hw : t.walk true links' k qs = .ok x) : t.walk true (links' + links) l (ps ++ qs) = .ok x := by
  induction links generalizing l ps with
  | zero =>
    obtain ⟨onLink, ho⟩ := walk_eq t true (links' + 0)
    rw [ho]
    exact walkParts_append_of (ho ▸ hw) (fun ho => by cases ho) h
  | succ links ih =>
    exact walkParts_append_of (walk_mono (Nat.le_add_right links' (links + 1)) hw) ih h

theorem Leads.unique (h : t.Leads dir n l e) (h' : t.Leads dir n l' e') : l = l' ∧ e = e' := by
  obtain ⟨links, h⟩ := h
  obtain ⟨links', h'⟩ := h'
  exact Place.found.inj (walk_unique h h')

theorem Through.unique (h : t.Through l ns passed k) (h' : t.Through l ns passed' k') :
    k = k' := by
  induction h generalizing passed' with
  | nil =>
    cases h'
    rfl
  | cons hn hl h ih =>
    cases h' with
    | cons hn' hl' h' =>
      obtain ⟨rfl, -⟩ := hl.unique hl'
      exact ih h'

theorem find_of_walk (hn : FileName n) (h : t.walk true linkLimit dir [n] = .ok (.found k e)) :
    t.find dir n = .ok (k, e) := by
  rw [find_eq_ok, resolve_fileName t dir hn]
  exact h

theorem leads_of_find (hn : FileName n) (h : t.find dir n = .ok (l, e)) : t.Leads dir n l e := by
  refine ⟨linkLimit, ?_⟩
  rw [← resolve_fileName t dir hn]
  exact find_eq_ok.mp h

theorem Leads.exists_get? (hn : FileName n) (h : t.Leads dir n l e) :
    ∃ d, t.get? (dir ++ [n]) = some d ∧
      ((∀ target, d ≠ .link target) → l = dir ++ [n] ∧ e = d) := by
  obtain ⟨links, h⟩ := h
  obtain ⟨onLink, hw⟩ := walk_eq t true links
  have hx := h
  rw [hw, walkParts_cons] at hx
  obtain ⟨d, hd⟩ : ∃ d, t.get? (dir ++ [n]) = some d := by
    rcases hx with ⟨k, he, -⟩ | ⟨target, -, hg, -⟩ | ⟨-, he⟩
    · cases he with
      | here => exact absurd rfl hn.ne_here
      | up => exact absurd rfl hn.ne_up
      | down _ hg => exact ⟨_, hg⟩
    · exact ⟨_, hg⟩
    · cases he with
      | found _ hg => exact ⟨_, hg⟩
  refine ⟨d, hd, fun hl => ?_⟩
  rw [walk_singleton t links dir hn hd hl] at h
  cases h
  exact ⟨rfl, rfl⟩

theorem leads_of_get? (hn : FileName n) (hg : t.get? (dir ++ [n]) = some e)
    (hl : ∀ target, e ≠ .link target) : t.Leads dir n (dir ++ [n]) e :=
  ⟨0, walk_singleton t 0 dir hn hg hl⟩

theorem Rooted.get?_of_leads (h : t.Rooted) (hd : t.get? dir = some .dir)
    (hl : t.Leads dir n l e) : t.get? l = some e := by
  obtain ⟨links, hl⟩ := hl
  exact h.get?_of_walk hd hl

theorem exists_through_of_walk {ns : List String} (hn : ∀ n ∈ ns ++ [last], FileName n)
    (h : t.walk true linkLimit dir (ns ++ [last]) = .ok (.found l e)) :
    ∃ passed k, t.Through dir ns passed k ∧ t.find k last = .ok (l, e) := by
  induction ns generalizing dir with
  | nil => exact ⟨[dir], dir, .nil dir, find_of_walk (hn last (by simp)) h⟩
  | cons n ns ih =>
    have hc : (n :: ns) ++ [last] = [n] ++ (ns ++ [last]) := rfl
    rw [hc] at h
    obtain ⟨d, hd, h⟩ := walk_append (List.concat_ne_nil last ns) h
    obtain ⟨passed, k, hk, hl⟩ := ih (fun m hm => hn m (List.mem_cons_of_mem _ hm)) h
    exact ⟨dir :: passed, k, .cons (hn n List.mem_cons_self) ⟨linkLimit, hd⟩ hk, hl⟩

theorem Through.exists_walk (h : t.Through dir ns passed k) :
    ∃ links, t.walk true links dir ns = .ok (.found k .dir) := by
  induction h with
  | nil => exact ⟨0, rfl⟩
  | cons _ hl _ ih =>
    obtain ⟨links, hl⟩ := hl
    obtain ⟨links', ih⟩ := ih
    exact ⟨links' + links, walk_append_of hl ih⟩

theorem no_nul_foldl_join {root : String} (hr : '\x00' ∉ root.toList) {ns : List String}
    (hn : ∀ n ∈ ns, '\x00' ∉ n.toList) : '\x00' ∉ (ns.foldl Path.join root).toList := by
  induction ns generalizing root with
  | nil => exact hr
  | cons n ns ih =>
    refine ih ?_ fun m hm => hn m (List.mem_cons_of_mem _ hm)
    rw [Path.mem_toList_join (by decide), not_or]
    exact ⟨hr, hn n List.mem_cons_self⟩

theorem map_ofList_names {ns : List String} (hn : ∀ n ∈ ns, Segment n) :
    ((ns.map String.toList).filter (!·.isEmpty)).map String.ofList = ns := by
  have he : ∀ n ∈ ns.map String.toList, (!n.isEmpty) = true := by
    intro p hp
    obtain ⟨n, hm, rfl⟩ := List.mem_map.mp hp
    rw [Bool.not_eq_true', List.isEmpty_eq_false_iff]
    exact fun h => (hn n hm).ne_empty (String.toList_inj.mp h)
  rw [List.filter_eq_self.mpr he, List.map_map]
  exact (List.map_congr_left fun n _ => String.ofList_toList).trans (List.map_id ns)

theorem parts_foldl_join (root : String) {ns : List String} (hn : ∀ n ∈ ns, Segment n)
    (hne : ns ≠ []) : ∃ ps, parts (ns.foldl Path.join root) = ps ++ ns ∧
      (parts root = ps ∨ parts root = ps ++ ["."]) := by
  refine ⟨((Path.stem root).filter (!·.isEmpty)).map String.ofList, ?_, ?_⟩
  · have ho := Path.not_isOpen_foldl_join hn hne root
    have hl : (ns.foldl Path.join root).toList.getLast? ≠ some '/' := by
      simp only [Path.isOpen, Bool.or_eq_false_iff, decide_eq_false_iff_not] at ho
      exact ho.2
    rw [parts, if_neg hl, List.append_nil, ← Path.stem_of_not_isOpen ho, Path.stem_foldl_join hn,
      List.filter_append, List.map_append, map_ofList_names hn]
  · by_cases hl : root.toList.getLast? = some '/'
    · obtain ⟨p, hp⟩ := List.getLast?_eq_some_iff.mp hl
      have ho : Path.isOpen root = true := by simp [Path.isOpen, hl]
      refine .inr ?_
      rw [parts, if_pos hl, Path.stem, if_pos ho, hp, Text.splitAt_append, Text.splitAt_nil,
        List.dropLast_concat, List.filter_append]
      simp
    · refine .inl ?_
      rw [parts, if_neg hl, List.append_nil, Path.stem]
      split
      next ho =>
        have he : root = "" := by simpa [Path.isOpen, hl] using ho
        rw [he]
        decide
      · rfl

theorem exists_parts_of_dirAt? {root : String} (hr : t.dirAt? here root = some dir)
    {ns : List String} (hn : ∀ n ∈ ns, Segment n) (hne : ns ≠ []) :
    ∃ ps, parts (ns.foldl Path.join root) = ps ++ ns ∧
      t.walk true linkLimit (if Path.isAbsolute root then [] else here) ps =
        .ok (.found dir .dir) := by
  obtain ⟨ps, hp, hq⟩ := parts_foldl_join root hn hne
  refine ⟨ps, hp, ?_⟩
  have hd := walk_of_resolve (find_eq_ok.mp (find_of_dirAt? hr))
  rcases hq with hq | hq
  · rwa [hq] at hd
  · rw [hq] at hd
    obtain ⟨k, hk, hd⟩ := walk_append (List.cons_ne_nil "." []) hd
    obtain ⟨onLink, ho⟩ := walk_eq t true linkLimit
    rw [ho, walkParts, if_pos rfl, walkParts] at hd
    cases hd
    exact hk

theorem exists_through_of_find {root : String} (hr : t.dirAt? here root = some dir)
    {ns : List String} (hn : ∀ n ∈ ns ++ [last], FileName n)
    (h : t.find here ((ns ++ [last]).foldl Path.join root) = .ok (l, e)) :
    ∃ passed k, t.Through dir ns passed k ∧ t.find k last = .ok (l, e) := by
  have hs : ∀ n ∈ ns ++ [last], Segment n := fun n hm => (hn n hm).toSegment
  have hne : ns ++ [last] ≠ [] := List.concat_ne_nil last ns
  obtain ⟨ps, hp, hd⟩ := exists_parts_of_dirAt? hr hs hne
  have hw := walk_of_resolve (find_eq_ok.mp h)
  rw [hp, Path.isAbsolute_foldl_join (ne_empty_of_find (find_of_dirAt? hr))] at hw
  obtain ⟨k, hk, hw⟩ := walk_append hne hw
  rw [hd] at hk
  cases hk
  exact exists_through_of_walk hn hw

theorem not_refused_of_find (h : t.find here p = .ok x) : ¬t.Refused here p := by
  obtain ⟨l, e⟩ := x
  rintro (hl | hw)
  · exact Nat.not_le.mpr (no_nul_and_short_of_find h).2 hl
  · cases hw.symm.trans (walk_of_resolve (find_eq_ok.mp h))

/-- The system finds what names behind the path of a directory lead to one by one, if it takes the
path. -/
theorem find_iff {root : String} (hr : t.dirAt? here root = some dir) {ns : List String}
    (hn : ∀ n ∈ ns ++ [last], FileName n) :
    t.find here ((ns ++ [last]).foldl Path.join root) = .ok (l, e) ↔
      (∃ passed k, t.Through dir ns passed k ∧ t.Leads k last l e) ∧
        ¬t.Refused here ((ns ++ [last]).foldl Path.join root) := by
  constructor
  · intro h
    obtain ⟨passed, k, hk, hl⟩ := exists_through_of_find hr hn h
    exact ⟨⟨passed, k, hk, leads_of_find (hn last (by simp)) hl⟩, not_refused_of_find h⟩
  · rintro ⟨⟨passed, k, hk, ⟨links, hl⟩⟩, ht⟩
    have hs : ∀ n ∈ ns ++ [last], Segment n := fun n hm => (hn n hm).toSegment
    have hne : ns ++ [last] ≠ [] := List.concat_ne_nil last ns
    obtain ⟨ps, hp, hd⟩ := exists_parts_of_dirAt? hr hs hne
    obtain ⟨hs, ht⟩ := not_or.mp ht
    have hf := find_of_dirAt? hr
    rw [hp, Path.isAbsolute_foldl_join (ne_empty_of_find hf)] at ht
    obtain ⟨links', hk⟩ := hk.exists_walk
    have hw := walk_append_of hd (walk_append_of hk hl)
    have hw := (walk_of_walk 40 hw).resolve_right ht
    rw [find_eq_ok, resolve_eq_walk t here _ _ (Nat.not_le.mp hs), hp,
      Path.isAbsolute_foldl_join (ne_empty_of_find hf)]
    · exact hw
    · exact no_nul_foldl_join (no_nul_and_short_of_find hf).1 fun n hm => (hn n hm).no_nul
    · apply Path.ne_empty_of_not_isOpen
      exact Path.not_isOpen_foldl_join (fun n hm => (hn n hm).toSegment) hne root

theorem find_join_iff (hr : t.dirAt? here path = some dir) (hn : FileName n) :
    t.find here (Path.join path n) = .ok (l, e) ↔
      t.Leads dir n l e ∧ ¬t.Refused here (Path.join path n) := by
  have hn : ∀ m ∈ [] ++ [n], FileName m := fun m hm => List.eq_of_mem_singleton hm ▸ hn
  rw [show Path.join path n = ([] ++ [n]).foldl Path.join path from rfl, find_iff hr hn]
  refine and_congr_left fun _ => ?_
  constructor
  · rintro ⟨passed, k, hk, hl⟩
    cases hk
    exact hl
  · exact fun hl => ⟨[dir], dir, .nil dir, hl⟩

theorem dirAt?_of_find (h : t.find here path = .ok (l, .dir)) : t.dirAt? here path = some l := by
  rw [dirAt?, h]

theorem dirAt?_join_iff (hr : t.dirAt? here path = some dir) (hn : FileName n) :
    t.dirAt? here (Path.join path n) = some l ↔
      t.Leads dir n l .dir ∧ ¬t.Refused here (Path.join path n) := by
  rw [← find_join_iff hr hn]
  exact ⟨find_of_dirAt?, dirAt?_of_find⟩

end Triage.FileTree
