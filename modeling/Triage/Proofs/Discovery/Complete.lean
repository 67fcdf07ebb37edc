import Triage.Proofs.Discovery.Distinct
import Triage.Proofs.FileTree.Stepwise
import Triage.Proofs.Path.Ordered

set_option autoImplicit true

namespace Triage.Discovery

open FileTree (Rooted Through Leads leads_of_get? find_join_iff dirAt?_join_iff)
open Triage.Path (FileName Segment)

/-- What follows the last dot of a name is this, and that dot does not stand first. -/
def HasExtension (name extension : String) : Prop :=
  ∃ stem : List Char, stem ≠ [] ∧ '.' ∉ extension.toList ∧
    name.toList = stem ++ '.' :: extension.toList

/-- The script `last` is to be found under these names from the directory at `dir`, to which a way
leads through other directories. -/
structure Listed (t : FileTree) (s : Settings) (way : List Location) (dir : Location)
    (names : List String) (last : String) : Prop where
  reached : ∃ passed k l e, t.Through dir names passed k ∧ FileName last ∧
    t.Leads k last l e ∧ e.isFile = true
  extension : HasExtension last s.extension
  included : ∀ n ∈ names, ∀ x ∈ s.excludedDirs,
    n.toList.map Char.toLower ≠ x.toList.map Char.toLower
  fresh : ∀ {a n b passed k target l}, names = a ++ n :: b → t.Through dir a passed k →
    t.get? (k ++ [n]) = some (.link target) → t.Leads k n l .dir → l ∉ way ∧ l ∉ passed

/-- The system takes the path of every directory on the way that the names lead, and the path of the
script if that is a link. -/
structure Taken (t : FileTree) (here : Location) (path : String) (dir : Location)
    (names : List String) (last : String) : Prop where
  dirs : ∀ ns, ns <+: names → ¬t.Refused here (ns.foldl Path.join path)
  link : ∀ {passed k target}, t.Through dir names passed k →
    t.get? (k ++ [last]) = some (.link target) →
      ¬t.Refused here ((names ++ [last]).foldl Path.join path)

variable {t : FileTree} {s : Settings} {way : List Location} {here dir : Location} {path : String}

theorem fileName_append (hk : t.Through dir names passed k) (hl : FileName last) :
    ∀ n ∈ names ++ [last], FileName n := by
  intro n hn
  rcases List.mem_append.mp hn with hn | hn
  · exact hk.fileName n hn
  · exact List.eq_of_mem_singleton hn ▸ hl

theorem Listed.fileName (h : Listed t s way dir names last) : ∀ n ∈ names ++ [last], FileName n := by
  obtain ⟨passed, k, l, e, hk, hl, -⟩ := h.reached
  exact fileName_append hk hl

theorem extensionOfName?_eq_some {name extension : String} :
    Path.extensionOfName? name = some extension ↔ HasExtension name extension := by
  have he (e : List Char) : String.ofList e = extension ↔ e = extension.toList := by
    rw [← String.toList_inj, String.toList_ofList]
  unfold Path.extensionOfName? HasExtension
  constructor
  · intro h
    split at h
    next c stem e hs =>
      obtain ⟨hd, hn⟩ := Text.splitLast?_singleton.mp hs
      have h := (he e).mp (Option.some.inj h)
      exact ⟨c :: stem, List.cons_ne_nil _ _, h ▸ hd, h ▸ hn⟩
    · cases h
  · rintro ⟨stem, hne, hd, hn⟩
    obtain ⟨c, stem, rfl⟩ := List.exists_cons_of_ne_nil hne
    rw [Text.splitLast?_singleton.mpr ⟨hd, hn⟩]
    exact congrArg some ((he _).mpr rfl)

theorem isExcludedDir_eq_false {name : String} : s.isExcludedDir name = false ↔
    ∀ x ∈ s.excludedDirs, name.toList.map Char.toLower ≠ x.toList.map Char.toLower := by
  simp only [Settings.isExcludedDir, sameIgnoringCase, List.any_eq_false, beq_iff_eq, ne_eq]
  exact forall₂_congr fun x _ => not_congr eq_comm

theorem plain_eq_script {name : String} {e : Entry} : kind.plain s name e = .script ↔
    e.isFile = true ∧ HasExtension name s.extension := by
  rw [← extensionOfName?_eq_some, kind.plain]
  split <;> simp_all

theorem plain_ne_dir {name : String} {e : Entry} : kind.plain s name e ≠ .dir := by
  unfold kind.plain
  split <;> exact nofun

/-- A directory may be entered under a name that is not excluded and no link back. -/
def Admitted (t : FileTree) (s : Settings) (way : List Location) (dir : Location) (name : String)
    (l : Location) : Prop :=
  s.isExcludedDir name = false ∧ ∀ target, t.get? (dir ++ [name]) = some (.link target) → l ∉ way

def Followed (t : FileTree) (here dir : Location) (path name : String) : Prop :=
  ∀ target, t.get? (dir ++ [name]) = some (.link target) → ¬t.Refused here (Path.join path name)

theorem kind_of_leads_dir (s : Settings) (way : List Location)
    (hr : t.dirAt? here path = some dir) (hn : FileName name) (hl : t.Leads dir name l .dir)
    (hf : Followed t here dir path name) :
    Admitted t s way dir name l ∧ kind t s here way dir path name = .dir ∨
      ¬Admitted t s way dir name l ∧ kind t s here way dir path name = .other := by
  obtain ⟨d, hg, hd⟩ := hl.exists_get? hn
  cases d with
  | link target =>
    have hx := (find_join_iff hr hn).mpr ⟨hl, hf target hg⟩
    simp only [kind, hg, hx, kind.enter, Admitted]
    cases s.isExcludedDir name <;> by_cases hw : l ∈ way <;> simp [hw]
  | dir =>
    simp only [kind, hg, kind.enter, Admitted]
    cases s.isExcludedDir name <;> simp
  | _ => cases (hd nofun).2

theorem kind_of_leads (s : Settings) (way : List Location) (hr : t.dirAt? here path = some dir)
    (hn : FileName name) (hl : t.Leads dir name l e) (hf : Followed t here dir path name)
    (he : e ≠ .dir) : kind t s here way dir path name = kind.plain s name e := by
  obtain ⟨d, hg, hd⟩ := hl.exists_get? hn
  cases d with
  | link target =>
    have hx := (find_join_iff hr hn).mpr ⟨hl, hf target hg⟩
    simp only [kind, hg, hx]
  | dir => exact absurd (hd nofun).2 he
  | _ =>
    cases (hd nofun).2
    simp only [kind, hg]

theorem kind_of_not_leads (s : Settings) (way : List Location) (hr : t.dirAt? here path = some dir)
    (hn : FileName name) (h : ∀ l e, t.Leads dir name l e → ¬Followed t here dir path name) :
    kind t s here way dir path name = .other := by
  cases hg : t.get? (dir ++ [name]) with
  | none => simp only [kind, hg]
  | some d =>
    have hl (hd : ∀ target, d ≠ .link target) : False := by
      refine h _ _ (leads_of_get? hn hg hd) fun target ht => ?_
      exact absurd (Option.some.inj (hg.symm.trans ht)) (hd target)
    cases d with
    | link target =>
      rcases hx : t.find here (Path.join path name) with f | ⟨l, e⟩
      · simp only [kind, hg, hx]
      · obtain ⟨hl, ht⟩ := (find_join_iff hr hn).mp hx
        exact absurd (fun _ _ => ht) (h l e hl)
    | _ => exact (hl nofun).elim

theorem kind_eq_script (hr : t.dirAt? here path = some dir) (hn : FileName name) :
    kind t s here way dir path name = .script ↔
      (∃ l e, t.Leads dir name l e ∧ e.isFile = true) ∧ HasExtension name s.extension ∧
        Followed t here dir path name := by
  by_cases h : ∃ l e, t.Leads dir name l e ∧ Followed t here dir path name
  · obtain ⟨l, e, hl, hf⟩ := h
    have hu : (∃ l e, t.Leads dir name l e ∧ e.isFile = true) ↔ e.isFile = true := by
      constructor
      · rintro ⟨l', e', hl', he'⟩
        rwa [(hl.unique hl').2]
      · exact fun he => ⟨l, e, hl, he⟩
    rw [hu, and_iff_left hf]
    by_cases hd : e = .dir
    · subst hd
      rcases kind_of_leads_dir s way hr hn hl hf with ⟨-, hk⟩ | ⟨-, hk⟩ <;> simp [hk, Entry.isFile]
    · rw [kind_of_leads s way hr hn hl hf hd, plain_eq_script]
  · have h : ∀ l e, t.Leads dir name l e → ¬Followed t here dir path name :=
      fun l e hl hf => h ⟨l, e, hl, hf⟩
    rw [kind_of_not_leads s way hr hn h]
    refine iff_of_false Kind.noConfusion ?_
    rintro ⟨⟨l, e, hl, -⟩, -, hf⟩
    exact h l e hl hf

theorem kind_eq_dir (hr : t.dirAt? here path = some dir) (hn : FileName name) :
    kind t s here way dir path name = .dir ↔
      ∃ k, t.Leads dir name k .dir ∧ Admitted t s way dir name k ∧
        Followed t here dir path name := by
  constructor
  · intro hk
    by_cases h : ∃ l e, t.Leads dir name l e ∧ Followed t here dir path name
    · obtain ⟨l, e, hl, hf⟩ := h
      by_cases hd : e = .dir
      · subst hd
        rcases kind_of_leads_dir s way hr hn hl hf with ⟨ha, -⟩ | ⟨-, ho⟩
        · exact ⟨l, hl, ha, hf⟩
        · cases hk.symm.trans ho
      · rw [kind_of_leads s way hr hn hl hf hd] at hk
        exact absurd hk plain_ne_dir
    · have h : ∀ l e, t.Leads dir name l e → ¬Followed t here dir path name :=
        fun l e hl hf => h ⟨l, e, hl, hf⟩
      cases hk.symm.trans (kind_of_not_leads s way hr hn h)
  · rintro ⟨k, hl, ha, hf⟩
    exact ((kind_of_leads_dir s way hr hn hl hf).resolve_right fun h => h.1 ha).2

theorem listed_nil : Listed t s way dir [] last ↔ FileName last ∧
    (∃ l e, t.Leads dir last l e ∧ e.isFile = true) ∧ HasExtension last s.extension := by
  constructor
  · rintro ⟨⟨passed, k, l, e, ht, hn, hl, he⟩, hx, -, -⟩
    cases ht
    exact ⟨hn, ⟨l, e, hl, he⟩, hx⟩
  · rintro ⟨hn, ⟨l, e, hl, he⟩, hx⟩
    exact ⟨⟨[dir], dir, l, e, .nil dir, hn, hl, he⟩, hx, nofun, fun h => by simp at h⟩

theorem listed_cons : Listed t s way dir (n :: ns) last ↔
    ∃ k, FileName n ∧ t.Leads dir n k .dir ∧ Admitted t s (dir :: way) dir n k ∧
      Listed t s (dir :: way) k ns last := by
  constructor
  · rintro ⟨⟨passed, k, l, e, ht, hl, hf, he⟩, hx, hi, hw⟩
    cases ht with
    | @cons _ _ d _ passed _ hn hd ht =>
    refine ⟨d, hn, hd, ⟨?_, fun target hg => ?_⟩, ⟨passed, k, l, e, ht, hl, hf, he⟩, hx, ?_, ?_⟩
    · exact isExcludedDir_eq_false.mpr (hi n List.mem_cons_self)
    · obtain ⟨hw, hp⟩ := hw (a := []) rfl (.nil dir) hg hd
      simpa using ⟨List.ne_of_not_mem_cons hp, hw⟩
    · exact fun m hm => hi m (List.mem_cons_of_mem _ hm)
    · intro a m b passed k target l hs ht hg hf
      obtain ⟨hw, hp⟩ := hw (congrArg (n :: ·) hs) (.cons hn hd ht) hg hf
      rw [List.mem_cons, not_or] at hp ⊢
      exact ⟨⟨hp.1, hw⟩, hp.2⟩
  · rintro ⟨d, hn, hd, ha, ⟨passed, k, l, e, ht, hl, hf, he⟩, hx, hi, hw⟩
    refine ⟨⟨dir :: passed, k, l, e, .cons hn hd ht, hl, hf, he⟩, hx, ?_, ?_⟩
    · intro m hm
      rcases List.mem_cons.mp hm with rfl | hm
      · exact isExcludedDir_eq_false.mp ha.1
      · exact hi m hm
    · intro a m b passed k target l hs ht hg hf
      -- The link is the first name, or one of those that follow it.
      cases ht with
      | nil =>
        cases hs
        obtain ⟨rfl, -⟩ := hd.unique hf
        have hk := ha.2 target hg
        rw [List.mem_cons, not_or] at hk
        simpa using ⟨hk.2, hk.1⟩
      | @cons _ _ d' _ passed _ hn' hd' ht =>
        cases hs
        obtain ⟨rfl, -⟩ := hd.unique hd'
        obtain ⟨hk, hp⟩ := hw rfl ht hg hf
        rw [List.mem_cons, not_or] at hk ⊢
        exact ⟨hk.2, hk.1, hp⟩

theorem taken_nil : Taken t here path dir [] last ↔
    ¬t.Refused here path ∧ Followed t here dir path last := by
  constructor
  · exact fun h => ⟨h.dirs [] List.prefix_rfl, fun target hg => h.link (.nil dir) hg⟩
  · rintro ⟨hp, hf⟩
    constructor
    · intro ns hs
      rwa [List.prefix_nil.mp hs]
    · intro passed k target hk hg
      cases hk
      exact hf target hg

theorem taken_cons (hn : FileName n) (hl : t.Leads dir n k .dir) :
    Taken t here path dir (n :: ns) last ↔
      ¬t.Refused here path ∧ Taken t here (Path.join path n) k ns last := by
  constructor
  · intro h
    refine ⟨h.dirs [] List.nil_prefix, fun ms hs => ?_, fun hk hg => h.link (.cons hn hl hk) hg⟩
    exact h.dirs (n :: ms) ((List.prefix_cons_inj n).mpr hs)
  · rintro ⟨hp, hd, hf⟩
    constructor
    · intro ms hs
      rcases List.prefix_cons_iff.mp hs with rfl | ⟨ms, rfl, hs'⟩
      · exact hp
      · exact hd ms hs'
    · intro passed l target hk hg
      cases hk with
      | cons _ hl' hk =>
        obtain ⟨rfl, -⟩ := hl.unique hl'
        exact hf hk hg

def locations (t : FileTree) : List Location := [] :: t.entries.map Prod.fst

/-- A bound for how far a way may go on. -/
def slack (t : FileTree) (way : List Location) (dir : Location) : Nat :=
  ((locations t).filter (· ∉ dir :: way)).length * (t.entries.length + 1) +
    (t.entries.length - dir.length)

theorem mem_locations (h : t.get? l = some e) : l ∈ locations t := by
  rcases eq_or_ne l [] with rfl | hl
  · exact List.mem_cons_self
  · exact List.mem_cons_of_mem _ (List.mem_map.mpr ⟨_, FileTree.mem_of_get? hl h, rfl⟩)

theorem filter_locations (t : FileTree) (way : List Location) (k : Location) :
    (locations t).filter (· ∉ k :: way) =
      ((locations t).filter (· ∉ way)).filter (· ≠ k) := by
  rw [List.filter_filter]
  exact List.filter_congr fun l _ => by simp

theorem slack_lt (ht : t.Rooted) (hd : t.get? dir = some .dir) (hn : FileName n)
    (hl : t.Leads dir n k .dir) (ha : Admitted t s (dir :: way) dir n k) :
    slack t (dir :: way) k < slack t way dir := by
  have hk := ht.length_le (ht.get?_of_leads hd hl)
  simp only [slack, filter_locations t (dir :: way) k]
  -- A link takes a location off those that the way has not passed, at the price of any depth.
  generalize hm : (locations t).filter (· ∉ dir :: way) = m
  obtain ⟨e, hg, he⟩ := hl.exists_get? hn
  by_cases hx : ∃ target, e = .link target
  · obtain ⟨target, rfl⟩ := hx
    have hkm : k ∈ m := by
      rw [← hm, List.mem_filter]
      exact ⟨mem_locations (ht.get?_of_leads hd hl), decide_eq_true (ha.2 target hg)⟩
    have hlt : (m.filter (· ≠ k)).length < m.length :=
      List.length_filter_lt_length_iff_exists.mpr ⟨k, hkm, by simp⟩
    calc (m.filter (· ≠ k)).length * (t.entries.length + 1) + (t.entries.length - k.length)
      _ < (m.filter (· ≠ k)).length * (t.entries.length + 1) + (t.entries.length + 1) := by omega
      _ = ((m.filter (· ≠ k)).length + 1) * (t.entries.length + 1) := (Nat.succ_mul _ _).symm
      _ ≤ m.length * (t.entries.length + 1) := Nat.mul_le_mul_right _ hlt
      _ ≤ _ := Nat.le_add_right _ _
  · have hk' : k = dir ++ [n] := (he fun target h => hx ⟨target, h⟩).1
    have hle : (m.filter (· ≠ k)).length * (t.entries.length + 1) ≤
        m.length * (t.entries.length + 1) :=
      Nat.mul_le_mul_right _ (List.length_filter_le _ _)
    have hc : k.length = dir.length + 1 := by rw [hk', List.length_append, List.length_singleton]
    omega

theorem slack_lt_depthLimit (hd : t.get? dir = some .dir) :
    slack t [] dir < depthLimit t := by
  have hlt : ((locations t).filter (· ∉ [dir])).length < (locations t).length :=
    List.length_filter_lt_length_iff_exists.mpr ⟨dir, mem_locations hd, by simp⟩
  have hn : (locations t).length = t.entries.length + 1 := by simp [locations]
  rw [hn] at hlt
  have hle := Nat.mul_le_mul_right (t.entries.length + 1) (Nat.le_of_lt_succ hlt)
  simp only [slack, depthLimit]
  calc ((locations t).filter (· ∉ [dir])).length * (t.entries.length + 1) +
        (t.entries.length - dir.length)
    _ ≤ t.entries.length * (t.entries.length + 1) + (t.entries.length + 1) := by omega
    _ = (t.entries.length + 1) * (t.entries.length + 1) := (Nat.succ_mul _ _).symm
    _ < (t.entries.length + 2) * (t.entries.length + 2) :=
      Nat.mul_lt_mul'' (Nat.lt_succ_self _) (Nat.lt_succ_self _)

theorem mem_scripts_succ (ht : t.Rooted) (hr : t.dirAt? here path = some dir) :
    p ∈ scripts t s here (fuel + 1) way path ↔
      (∃ n, p = Path.join path n ∧ Listed t s way dir [] n ∧ Followed t here dir path n) ∨
      ∃ n k, FileName n ∧ t.Leads dir n k .dir ∧ Admitted t s (dir :: way) dir n k ∧
        Followed t here dir path n ∧ p ∈ scripts t s here fuel (dir :: way) (Path.join path n) := by
  have hm {n : String} {k : Location} {e : Entry} (hn : FileName n) (hl : t.Leads dir n k e) :
      n ∈ t.names dir := by
    obtain ⟨d, hg, -⟩ := hl.exists_get? hn
    exact FileTree.mem_names.mpr ⟨d, hg⟩
  rw [scripts_succ hr, List.mem_flatMap]
  constructor
  · rintro ⟨n, hn, hp⟩
    obtain ⟨e, hg⟩ := FileTree.mem_names.mp hn
    have hn := ht.fileName hg
    unfold scriptsAt at hp
    split at hp
    next hs =>
      obtain ⟨hl, hx, hf⟩ := (kind_eq_script hr hn).mp hs
      exact .inl ⟨n, List.eq_of_mem_singleton hp, listed_nil.mpr ⟨hn, hl, hx⟩, hf⟩
    next hs =>
      obtain ⟨k, hl, ha, hf⟩ := (kind_eq_dir hr hn).mp hs
      exact .inr ⟨n, k, hn, hl, ha, hf, hp⟩
    · cases hp
  · rintro (⟨n, rfl, hl, hf⟩ | ⟨n, k, hn, hl, ha, hf, hp⟩)
    · obtain ⟨hn, hl, hx⟩ := listed_nil.mp hl
      obtain ⟨l, e, hl', -⟩ := id hl
      have hs : kind t s here (dir :: way) dir path n = .script :=
        (kind_eq_script hr hn).mpr ⟨hl, hx, hf⟩
      refine ⟨n, hm hn hl', ?_⟩
      simp only [scriptsAt, hs, List.mem_singleton]
    · have hs : kind t s here (dir :: way) dir path n = .dir :=
        (kind_eq_dir hr hn).mpr ⟨k, hl, ha, hf⟩
      refine ⟨n, hm hn hl, ?_⟩
      simpa only [scriptsAt, hs] using hp

theorem exists_dirAt?_of_mem_scripts (h : p ∈ scripts t s here fuel way path) :
    ∃ dir, t.dirAt? here path = some dir := by
  cases hr : t.dirAt? here path with
  | none =>
    rw [scripts_of_no_dir hr] at h
    cases h
  | some dir => exact ⟨dir, rfl⟩

theorem mem_scripts (ht : t.Rooted) (hh : t.get? here = some .dir)
    (hr : t.dirAt? here path = some dir) (hs : slack t way dir < fuel) :
    p ∈ scripts t s here fuel way path ↔
      ∃ ns last, p = (ns ++ [last]).foldl Path.join path ∧ Listed t s way dir ns last ∧
        Taken t here path dir ns last := by
  induction fuel generalizing way dir path with
  | zero => exact absurd hs (Nat.not_lt_zero _)
  | succ fuel ih =>
    have hd := ht.get?_of_find hh (FileTree.find_of_dirAt? hr)
    have hp := FileTree.not_refused_of_find (FileTree.find_of_dirAt? hr)
    have hb {n : String} {k : Location} (hn : FileName n) (hl : t.Leads dir n k .dir)
        (ha : Admitted t s (dir :: way) dir n k) : slack t (dir :: way) k < fuel :=
      Nat.lt_of_lt_of_le (slack_lt ht hd hn hl ha) (Nat.le_of_lt_succ hs)
    rw [mem_scripts_succ ht hr]
    constructor
    · rintro (⟨n, rfl, hl, hf⟩ | ⟨n, k, hn, hl, ha, -, hm⟩)
      · exact ⟨[], n, rfl, hl, taken_nil.mpr ⟨hp, hf⟩⟩
      · obtain ⟨k', hr'⟩ := exists_dirAt?_of_mem_scripts hm
        obtain ⟨rfl, -⟩ := hl.unique ((dirAt?_join_iff hr hn).mp hr').1
        obtain ⟨ns, last, rfl, hx, hk⟩ := (ih hr' (hb hn hl ha)).mp hm
        exact ⟨n :: ns, last, rfl, listed_cons.mpr ⟨k, hn, hl, ha, hx⟩,
          (taken_cons hn hl).mpr ⟨hp, hk⟩⟩
    · rintro ⟨ns, last, rfl, hl, hk⟩
      cases ns with
      | nil => exact .inl ⟨last, rfl, hl, (taken_nil.mp hk).2⟩
      | cons n ns =>
        obtain ⟨k, hn, hl, ha, hx⟩ := listed_cons.mp hl
        obtain ⟨-, hk⟩ := (taken_cons hn hl).mp hk
        have hn' : ¬t.Refused here (Path.join path n) := hk.dirs [] List.nil_prefix
        have hr' := (dirAt?_join_iff hr hn).mpr ⟨hl, hn'⟩
        exact .inr ⟨n, k, hn, hl, ha, fun _ _ => hn',
          (ih hr' (hb hn hl ha)).mpr ⟨ns, last, rfl, hx, hk⟩⟩

theorem exists_dirAt?_of_mem_collect (h : p ∈ collect t here s) :
    ∃ dir, t.dirAt? here s.root = some dir :=
  exists_dirAt?_of_mem_scripts (List.mem_mergeSort.mp h)

theorem nodup_components (ht : t.Rooted) (hr : path ≠ "") :
    ((scripts t s here fuel way path).map Path.components).Nodup := by
  refine List.Nodup.map_on (fun p hp q hq he => ?_) (nodup_scripts ht.wellFormed)
  obtain ⟨ns, hne, hns, rfl⟩ := below_of_mem_scripts ht.wellFormed hp
  obtain ⟨ms, hme, hms, rfl⟩ := below_of_mem_scripts ht.wellFormed hq
  rw [Path.components_foldl_join_inj hr hns hne hms hme he]

theorem mem_collect (ht : t.Rooted) (hh : t.get? here = some .dir)
    (hr : t.dirAt? here s.root = some dir) : p ∈ collect t here s ↔ ∃ names last,
      p = (names ++ [last]).foldl Path.join s.root ∧ Listed t s [] dir names last ∧
        Taken t here s.root dir names last := by
  have hd := ht.get?_of_find hh (FileTree.find_of_dirAt? hr)
  exact List.mem_mergeSort.trans (mem_scripts ht hh hr (slack_lt_depthLimit hd))

theorem Taken.find_last (hr : t.dirAt? here path = some dir) (hk : t.Through dir names passed k)
    (hn : FileName last) (hl : t.Leads k last l e) (h : Taken t here path dir names last) :
    t.find k last = .ok (l, e) := by
  obtain ⟨d, hg, hd⟩ := hl.exists_get? hn
  by_cases hx : ∃ target, d = .link target
  · obtain ⟨target, rfl⟩ := hx
    have hns := fileName_append hk hn
    have hf := (FileTree.find_iff hr hns).mpr ⟨⟨passed, k, hk, hl⟩, h.link hk hg⟩
    obtain ⟨passed', k', hk', hf⟩ := FileTree.exists_through_of_find hr hns hf
    rwa [hk.unique hk']
  · have hx : ∀ target, d ≠ .link target := fun target h => hx ⟨target, h⟩
    obtain ⟨rfl, rfl⟩ := hd hx
    exact FileTree.find_fileName t k hn hg hx

/-- Below a root, every script is found that is to be found there and whose path the system takes,
and nothing else; the paths ascend by component.  What the system finds under names below the root
is what they lead to, one after the other, unless it does not take the path. -/
theorem collect_listed {t : FileTree} {s : Settings} {here dir : Location} (ht : t.Rooted)
    (hh : t.get? here = some .dir) (hr : t.dirAt? here s.root = some dir) :
    ((collect t here s).Pairwise fun p q =>
      compare (Path.components p) (Path.components q) = .lt) ∧
    (∀ p, p ∈ collect t here s ↔ ∃ names last,
      p = (names ++ [last]).foldl Path.join s.root ∧ Listed t s [] dir names last ∧
        Taken t here s.root dir names last) ∧
    ∀ names last l e, (∀ n ∈ names ++ [last], FileName n) →
      (t.find here ((names ++ [last]).foldl Path.join s.root) = .ok (l, e) ↔
        (∃ passed k, t.Through dir names passed k ∧ t.Leads k last l e) ∧
          ¬t.Refused here ((names ++ [last]).foldl Path.join s.root)) := by
  refine ⟨?_, fun p => mem_collect ht hh hr, fun names last l e hn => FileTree.find_iff hr hn⟩
  have hf := FileTree.find_of_dirAt? hr
  exact Path.pairwise_mergeSort (nodup_components ht (FileTree.ne_empty_of_find hf))

/-- A project with a second way into one of its directories, from which a link leads back, and a
directory of that name that is left out. -/
def loopedProject : FileTree where
  entries := [(["p"], .dir), (["p", "d"], .dir), (["p", "d", "a.py"], .file []),
    (["p", "d", "back"], .link ".."), (["p", "d", "Venv"], .dir),
    (["p", "d", "Venv", "b.py"], .file []), (["p", "way"], .link "d")]

theorem collect_listed_loopedProject :
    ((collect loopedProject [] { root := "/p" }).Pairwise fun p q =>
      compare (Path.components p) (Path.components q) = .lt) ∧
    "/p/way/a.py" ∈ collect loopedProject [] { root := "/p" } := by
  have ht : loopedProject.Rooted := by decide
  have hr : loopedProject.dirAt? [] ({ root := "/p" } : Settings).root = some ["p"] := by decide
  have hway : loopedProject.Leads ["p"] "way" ["p", "d"] .dir := ⟨1, by decide⟩
  have hfile : loopedProject.Leads ["p", "d"] "a.py" ["p", "d", "a.py"] (.file []) := ⟨0, by decide⟩
  have hdirs : loopedProject.Through ["p"] ["way"] [["p"], ["p", "d"]] ["p", "d"] :=
    .cons (by decide) hway (.nil _)
  obtain ⟨hs, hc, -⟩ := collect_listed ht rfl hr
  refine ⟨hs, (hc "/p/way/a.py").mpr ⟨["way"], "a.py", by decide, ?_, ?_⟩⟩
  · refine ⟨⟨_, _, _, _, hdirs, by decide, hfile, rfl⟩, ⟨['a'], by decide, by decide, by decide⟩,
      by decide, ?_⟩
    intro a n b passed k target l hn hp hg hl
    obtain ⟨rfl, rfl⟩ : a = [] ∧ n = "way" := by
      cases a with
      | nil => exact ⟨rfl, (List.cons.inj hn).1.symm⟩
      | cons m a => exact absurd (List.cons.inj hn).2 (by simp)
    cases hp
    obtain ⟨rfl, -⟩ := hway.unique hl
    decide
  · constructor
    · intro ns hs
      rcases List.prefix_cons_iff.mp hs with rfl | ⟨ms, rfl, hs'⟩
      · exact FileTree.not_refused_of_find (FileTree.find_of_dirAt? hr)
      · have hx : loopedProject.find [] "/p/way" = .ok (["p", "d"], .dir) := by decide
        rw [List.prefix_nil.mp hs']
        exact FileTree.not_refused_of_find hx
    · intro passed k target hk hg
      obtain rfl := hk.unique hdirs
      cases hg

/-- A script that is a link, which leads through another link once and then `links` times more. -/
def windingProject (links : Nat) : FileTree where
  entries := [(["p"], .dir), (["p", "file"], .file []), (["p", "here"], .link "."),
    (["p", "a.py"], .link ((List.replicate links "here" ++ ["file"]).foldl Path.join "here"))]

theorem walk_here (n m links : Nat) :
    (windingProject m).walk true links ["p"] (List.replicate n "here" ++ ["file"]) =
      if n ≤ links then .ok (.found ["p", "file"] (.file [])) else .error .tooManyLinks := by
  have hg : (windingProject m).get? ["p", "here"] = some (.link ".") := by
    rfl
  have hf : (windingProject m).get? ["p", "file"] = some (.file []) := by
    rfl
  induction n generalizing links with
  | zero => exact FileTree.walk_singleton _ links ["p"] (by decide) hf nofun
  | succ n ih =>
    have hp : FileTree.Proper "here" := FileTree.proper_fileName (by decide)
    rw [List.replicate_succ, List.cons_append]
    cases links with
    | zero => exact FileTree.walkParts_of_link (l := ["p"]) hp hg fun _ => rfl
    | succ links =>
      have ha : Path.isAbsolute "." = false := by decide
      have hd : FileTree.parts "." = ["."] := by decide
      calc (windingProject m).walk true (links + 1) ["p"]
            ("here" :: (List.replicate n "here" ++ ["file"]))
        _ = (windingProject m).walk true links ["p"]
              ("." :: (List.replicate n "here" ++ ["file"])) := by
          rw [FileTree.walk, FileTree.walkParts_of_link hp hg fun _ => rfl, ha, hd]
          rfl
        _ = (windingProject m).walk true links ["p"] (List.replicate n "here" ++ ["file"]) := by
          obtain ⟨onLink, hw⟩ := FileTree.walk_eq (windingProject m) true links
          rw [hw, FileTree.walkParts_of_enters .here]
        _ = _ := by
          rw [ih]
          simp only [Nat.succ_le_succ_iff]

theorem parts_winding (n : Nat) :
    FileTree.parts ((List.replicate n "here" ++ ["file"]).foldl Path.join "here") =
      List.replicate (n + 1) "here" ++ ["file"] := by
  have hs : ∀ m ∈ List.replicate n "here" ++ ["file"], Segment m := by
    intro m hm
    rcases List.mem_append.mp hm with hm | hm
    · rw [List.eq_of_mem_replicate hm]
      exact (by decide : FileName "here").toSegment
    · rw [List.eq_of_mem_singleton hm]
      exact (by decide : FileName "file").toSegment
  obtain ⟨ps, hp, hq⟩ := FileTree.parts_foldl_join "here" hs (by simp)
  have hh : FileTree.parts "here" = ["here"] := by decide
  rw [hh] at hq
  have hq : ps = ["here"] := by
    rcases hq with hq | hq
    · exact hq.symm
    · have hq : [] ++ ["here"] = ps ++ ["."] := hq
      exact absurd (List.append_inj' hq rfl).2 (by decide)
  rw [hp, hq, List.replicate_succ, List.singleton_append, List.cons_append]

theorem walk_winding (n links : Nat) :
    (windingProject n).walk true (links + 1) ["p"] ["a.py"] =
      if n + 1 ≤ links then .ok (.found ["p", "file"] (.file [])) else .error .tooManyLinks := by
  have hp : FileTree.Proper "a.py" := FileTree.proper_fileName (by decide)
  have ha : Path.isAbsolute ((List.replicate n "here" ++ ["file"]).foldl Path.join "here") =
      false := by
    rw [Path.isAbsolute_foldl_join (by decide)]
    decide
  have hg : (windingProject n).get? ["p", "a.py"] =
      some (.link ((List.replicate n "here" ++ ["file"]).foldl Path.join "here")) := by
    rfl
  rw [FileTree.walk, FileTree.walkParts_of_link (l := ["p"]) hp hg fun _ => rfl, ha, parts_winding,
    List.append_nil]
  exact walk_here (n + 1) n links

/-- A script is not found although names lead to it, where they lead through too many links. -/
theorem listed_not_collected : (windingProject 39).Rooted ∧
    (windingProject 39).dirAt? [] "/p" = some ["p"] ∧
    Listed (windingProject 39) { root := "/p" } [] ["p"] [] "a.py" ∧
    "/p/a.py" ∉ collect (windingProject 39) [] { root := "/p" } := by
  have hl : (windingProject 39).Leads ["p"] "a.py" ["p", "file"] (.file []) :=
    ⟨41, walk_winding 39 40⟩
  have hr : (windingProject 39).dirAt? [] "/p" = some ["p"] := by decide
  have hu : (windingProject 39).Refused [] "/p/a.py" := by
    have hp : FileTree.parts "/p/a.py" = ["p", "a.py"] := by decide
    have he : (windingProject 39).Enters [] "p" ["p"] :=
      .down (FileTree.proper_fileName (by decide)) (by decide)
    rw [FileTree.Refused, hp]
    exact .inr ((FileTree.walkParts_of_enters he ["a.py"]).trans (walk_winding 39 39))
  have hd : (windingProject 39).Rooted := by decide
  refine ⟨hd, hr, listed_nil.mpr ⟨by decide, ⟨_, _, hl, rfl⟩, ?_⟩, ?_⟩
  · exact ⟨['a'], by decide, by decide, by decide⟩
  intro hm
  obtain ⟨names, last, hp, hx, hk⟩ := (mem_collect hd rfl hr).mp hm
  have hn : names ++ [last] = [] ++ ["a.py"] := by
    have hs : ∀ n ∈ [] ++ ["a.py"], FileName n := by decide
    exact Path.foldl_join_inj (p := "/p") (fun n hn => (hx.fileName n hn).toSegment)
      (fun n hn => (hs n hn).toSegment) hp.symm
  obtain ⟨rfl, hn⟩ := List.append_inj' hn rfl
  cases hn
  exact hk.link (.nil ["p"]) rfl hu

end Triage.Discovery
