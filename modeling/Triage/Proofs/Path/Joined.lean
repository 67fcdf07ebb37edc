import Mathlib.Data.List.Basic
import Triage.Setup

set_option autoImplicit true

namespace Triage.Path

open Text

/-- What counts as a component of its own when it is joined to a path. -/
structure Segment (s : String) : Prop where
  ne_empty : s ≠ ""
  no_slash : '/' ∉ s.toList
  ne_here : s ≠ "."

/-- A path to which a name is joined without a slash. -/
def isOpen (p : String) : Bool := p.isEmpty || p.toList.getLast? = some '/'

theorem join_of_isOpen (h : isOpen p = true) (n : String) : join p n = p ++ n := if_pos h

theorem join_of_not_isOpen (h : isOpen p = false) (n : String) : join p n = p ++ "/" ++ n :=
  if_neg (Bool.eq_false_iff.mp h)

/-- The pieces of a path between slashes, up to where a name is joined to it. -/
def stem (p : String) : List (List Char) :=
  if isOpen p then (splitAt '/' p.toList).dropLast else splitAt '/' p.toList

theorem stem_of_not_isOpen (h : isOpen p = false) : stem p = splitAt '/' p.toList :=
  if_neg (Bool.eq_false_iff.mp h)

theorem cases_of_isOpen (h : isOpen p = true) :
    p.toList = [] ∧ stem p = [] ∨ ∃ q, p.toList = q ++ ['/'] ∧ stem p = splitAt '/' q := by
  rw [stem, if_pos h]
  rcases List.eq_nil_or_concat p.toList with hp | ⟨q, c, hp⟩
  · exact .inl ⟨hp, by rw [hp]; rfl⟩
  · have hc : c = '/' := by
      simpa [isOpen, ← String.toList_inj, hp, Bool.eq_false_iff, String.isEmpty_iff] using h
    rw [hp, hc, List.concat_eq_append]
    exact .inr ⟨q, rfl, by rw [splitAt_append, splitAt_nil, List.dropLast_concat]⟩

theorem splitAt_of_isOpen (h : isOpen p = true) : splitAt '/' p.toList = stem p ++ [[]] := by
  rcases cases_of_isOpen h with ⟨hp, hs⟩ | ⟨q, hp, hs⟩
  · rw [hp, hs]
    rfl
  · rw [hp, hs, splitAt_append, splitAt_nil]

theorem not_isOpen_append (p : String) (hn : Segment n) : isOpen (p ++ n) = false := by
  have hl : n.toList ≠ [] := fun h => hn.ne_empty (String.toList_inj.mp h)
  have he : (p ++ n).isEmpty = false := by
    rw [← Bool.not_eq_true, String.isEmpty_iff, ← String.toList_inj, String.toList_append]
    simp [hl]
  have hg : (p ++ n).toList.getLast? ≠ some '/' := by
    rw [String.toList_append, List.getLast?_append]
    intro h
    rcases Option.or_eq_some_iff.mp h with h | ⟨h, -⟩
    · exact hn.no_slash (List.mem_of_getLast? h)
    · exact hl (List.getLast?_eq_none_iff.mp h)
  simp only [isOpen, he, hg, decide_false, Bool.or_self]

theorem not_isOpen_join (p : String) (hn : Segment n) : isOpen (join p n) = false := by
  cases h : isOpen p with
  | true =>
    rw [join_of_isOpen h]
    exact not_isOpen_append p hn
  | false =>
    rw [join_of_not_isOpen h]
    exact not_isOpen_append _ hn

theorem ne_empty_of_not_isOpen (h : isOpen p = false) : p ≠ "" := by
  rintro rfl
  cases h

theorem splitAt_join (p : String) (hn : '/' ∉ n.toList) :
    splitAt '/' (join p n).toList = stem p ++ [n.toList] := by
  cases h : isOpen p with
  | false =>
    rw [join_of_not_isOpen h, stem_of_not_isOpen h, String.toList_append, String.toList_append,
      show "/".toList = ['/'] from rfl, List.append_assoc, List.singleton_append, splitAt_append,
      splitAt_of_not_mem hn]
  | true =>
    rw [join_of_isOpen h, String.toList_append]
    rcases cases_of_isOpen h with ⟨hp, hs⟩ | ⟨q, hp, hs⟩
    · rw [hp, hs, List.nil_append, List.nil_append, splitAt_of_not_mem hn]
    · rw [hp, hs, List.append_assoc, List.singleton_append, splitAt_append, splitAt_of_not_mem hn]

theorem stem_foldl_join {ns : List String} (hn : ∀ n ∈ ns, Segment n) (p : String) :
    stem (ns.foldl join p) = stem p ++ ns.map String.toList := by
  induction ns generalizing p with
  | nil => exact (List.append_nil _).symm
  | cons n ns ih =>
    have hs := hn n List.mem_cons_self
    rw [List.foldl_cons, ih (fun m hm => hn m (List.mem_cons_of_mem _ hm)),
      stem_of_not_isOpen (not_isOpen_join p hs), splitAt_join p hs.no_slash, List.append_assoc]
    rfl

theorem mem_toList_join (hc : c ≠ '/') :
    c ∈ (join p n).toList ↔ c ∈ p.toList ∨ c ∈ n.toList := by
  cases h : isOpen p with
  | true => rw [join_of_isOpen h, String.toList_append, List.mem_append]
  | false =>
    rw [join_of_not_isOpen h, String.toList_append, String.toList_append, List.mem_append,
      List.mem_append]
    simp [hc]

theorem foldl_join_inj {ns ms : List String} (hn : ∀ n ∈ ns, Segment n) (hm : ∀ n ∈ ms, Segment n)
    (h : ns.foldl join p = ms.foldl join p) : ns = ms := by
  have hs := congrArg stem h
  rw [stem_foldl_join hn, stem_foldl_join hm, List.append_cancel_left_eq] at hs
  exact (List.map_inj_right fun _ _ => String.toList_inj.mp).mp hs

theorem not_isOpen_foldl_join {ns : List String} (hn : ∀ n ∈ ns, Segment n) (hne : ns ≠ [])
    (p : String) : isOpen (ns.foldl join p) = false := by
  rcases List.eq_nil_or_concat ns with rfl | ⟨ms, n, rfl⟩
  · exact absurd rfl hne
  · rw [List.concat_eq_append, List.foldl_append]
    exact not_isOpen_join _ (hn n (by simp))

theorem exists_toList_foldl_join (ns : List String) (p : String) :
    ∃ r, (ns.foldl join p).toList = p.toList ++ r := by
  induction ns generalizing p with
  | nil => exact ⟨[], (List.append_nil _).symm⟩
  | cons n ns ih =>
    obtain ⟨r, hr⟩ := ih (join p n)
    rw [List.foldl_cons, hr]
    cases h : isOpen p with
    | true => exact ⟨n.toList ++ r, by simp [join_of_isOpen h]⟩
    | false => exact ⟨'/' :: n.toList ++ r, by simp [join_of_not_isOpen h]⟩

theorem isAbsolute_foldl_join (h : root ≠ "") (ns : List String) :
    isAbsolute (ns.foldl join root) = isAbsolute root := by
  obtain ⟨r, hr⟩ := exists_toList_foldl_join ns root
  have hl : root.toList ≠ [] := fun he => h (String.toList_inj.mp he)
  rw [isAbsolute, hr, List.head?_append_of_ne_nil _ hl, isAbsolute]

theorem kept?_ofPart? (hn : Segment n) :
    (Component.ofPart? n.toList).bind Component.kept? = some n := by
  have h₁ : ¬(n.toList = [] ∨ n.toList = ['.']) := by
    rintro (h | h)
    · exact hn.ne_empty (String.toList_inj.mp h)
    · exact hn.ne_here (String.toList_inj.mp h)
  unfold Component.ofPart?
  rw [if_neg h₁]
  split
  · next h =>
    have h : n.toList = "..".toList := h
    rw [String.toList_inj.mp h]
    rfl
  · rw [String.ofList_toList]
    rfl

theorem kept_of_names {ns : List String} (hn : ∀ n ∈ ns, Segment n) :
    ((ns.map String.toList).filterMap Component.ofPart?).filterMap Component.kept? = ns := by
  rw [List.filterMap_map, List.filterMap_filterMap]
  exact (List.filterMap_congr fun n hm => kept?_ofPart? (hn n hm)).trans List.filterMap_some

def IsStart (start : String) : Prop := start = "/" ∨ start = "//"

theorem IsStart.isOpen (h : IsStart start) : isOpen start = true := by
  rcases h with rfl | rfl <;> decide

theorem IsStart.kept (h : IsStart start) :
    ((stem start).filterMap Component.ofPart?).filterMap Component.kept? = [] := by
  rcases h with rfl | rfl <;> decide

theorem exists_toList_of_isStart {ns : List String} (hs : IsStart start)
    (hn : ∀ n ∈ ns, Segment n) (hne : ns ≠ []) :
    ∃ c r, c ≠ '/' ∧ (ns.foldl join start).toList = start.toList ++ c :: r := by
  obtain ⟨n, ms, rfl⟩ := List.exists_cons_of_ne_nil hne
  have hn := hn n List.mem_cons_self
  obtain ⟨c, cs, hc⟩ := List.exists_cons_of_ne_nil (l := n.toList)
    fun h => hn.ne_empty (String.toList_inj.mp h)
  obtain ⟨r, hr⟩ := exists_toList_foldl_join ms (join start n)
  refine ⟨c, cs ++ r, ?_, ?_⟩
  · rintro rfl
    exact hn.no_slash (hc ▸ List.mem_cons_self)
  · rw [List.foldl_cons, hr, join_of_isOpen hs.isOpen, String.toList_append, hc,
      List.append_assoc, List.cons_append]

theorem IsStart.startOf (h : IsStart start) (hc : c ≠ '/') (r : List Char) :
    startOf (start.toList ++ c :: r) = start := by
  rcases h with rfl | rfl
  · change Path.startOf ('/' :: c :: r) = "/"
    unfold Path.startOf
    split <;> simp_all
  · change Path.startOf ('/' :: '/' :: c :: r) = "//"
    unfold Path.startOf
    split <;> simp_all

theorem absolute?_foldl_join {ns : List String} (hs : IsStart start) (hn : ∀ n ∈ ns, Segment n)
    (hne : ns ≠ []) (dir : String) :
    absolute? dir (ns.foldl join start) = some (ns.foldl join start) := by
  have ho := not_isOpen_foldl_join hn hne start
  have hp : splitAt '/' (ns.foldl join start).toList = stem start ++ ns.map String.toList := by
    rw [← stem_of_not_isOpen ho, stem_foldl_join hn]
  obtain ⟨c, r, hc, ht⟩ := exists_toList_of_isStart hs hn hne
  have ha : isAbsolute (ns.foldl join start) = true := by
    rcases hs with rfl | rfl <;> simp [isAbsolute, ht]
  have hk : (components (ns.foldl join start)).filterMap Component.kept? = ns := by
    simp only [components, ha, if_true, hp, List.filterMap_append]
    rw [hs.kept, kept_of_names hn]
    rfl
  have hr : Path.startOf (ns.foldl join start).toList = start := by
    rw [ht]
    exact hs.startOf hc r
  simp only [isOpen, Bool.or_eq_false_iff, decide_eq_false_iff_not] at ho
  simp only [absolute?, ho, ha, hk, hr, Bool.false_eq_true, if_false, if_true]

theorem segment_of_ofPart? {part : List Char} (hp : '/' ∉ part)
    (h : (Component.ofPart? part).bind Component.kept? = some n) : Segment n := by
  unfold Component.ofPart? at h
  split at h
  · cases h
  · next hd =>
    obtain ⟨he, hd⟩ := not_or.mp hd
    split at h
    · cases h
      exact ⟨by decide, by decide, by decide⟩
    · cases h
      refine ⟨fun h => he ?_, by rwa [String.toList_ofList], fun h => hd ?_⟩
      · simpa using congrArg String.toList h
      · simpa using congrArg String.toList h

theorem segment_of_mem_components (h : n ∈ (components p).filterMap Component.kept?) :
    Segment n := by
  obtain ⟨c, hc, hk⟩ := List.mem_filterMap.mp h
  simp only [components] at hc
  rcases List.mem_append.mp hc with hc | hc
  · split at hc
    · cases List.eq_of_mem_singleton hc
      cases hk
    · split at hc
      · cases List.eq_of_mem_singleton hc
        cases hk
      · cases hc
  · obtain ⟨part, hp, ho⟩ := List.mem_filterMap.mp hc
    exact segment_of_ofPart? (not_mem_of_mem_splitAt hp) (by rw [ho]; exact hk)

/-- A path that is absolute, but for a slash at its end. -/
def Resolved (p : String) : Prop :=
  ∃ (start : String) (ns : List String), IsStart start ∧ (∀ n ∈ ns, Segment n) ∧
    (p = ns.foldl join start ∨ p = join (ns.foldl join start) "")

theorem join_empty_join (p n : String) : join (join p "") n = join p n := by
  cases h : isOpen p with
  | true => rw [join_of_isOpen h, String.append_empty]
  | false =>
    have ho : isOpen (p ++ "/" ++ "") = true := by simp [isOpen]
    rw [join_of_not_isOpen h, join_of_isOpen ho, join_of_not_isOpen h, String.append_empty]

theorem startOf_isStart (p : List Char) : IsStart (startOf p) := by
  unfold startOf
  split
  · exact .inl rfl
  · exact .inr rfl
  · exact .inl rfl

theorem append_intercalate {ns : List String} (hn : ∀ m ∈ n :: ns, Segment m) (p : String) :
    p ++ "/".intercalate (n :: ns) = ns.foldl join (p ++ n) := by
  induction ns generalizing n p with
  | nil => rw [String.intercalate_singleton, List.foldl_nil]
  | cons m ns ih =>
    have ho := not_isOpen_append p (hn n List.mem_cons_self)
    have hm : ∀ k ∈ m :: ns, Segment k := fun k hk => hn k (List.mem_cons_of_mem _ hk)
    rw [String.intercalate_cons_cons, List.foldl_cons, join_of_not_isOpen ho, ← ih hm]
    simp only [String.append_assoc]

theorem path_eq_foldl_join {here : Location} (hh : ∀ n ∈ here, Segment n) :
    here.path = here.foldl join "/" := by
  cases here with
  | nil => rfl
  | cons n ns => exact append_intercalate hh "/"

theorem resolved_of_absolute? {here : Location} (hh : ∀ n ∈ here, Segment n)
    (h : absolute? here.path p = some q) : Resolved q := by
  rw [path_eq_foldl_join hh] at h
  unfold absolute? at h
  split at h
  · cases h
  · have hn : ∀ n ∈ (components p).filterMap Component.kept?, Segment n := fun n =>
      segment_of_mem_components
    obtain ⟨start, ns, hs, hns, hw⟩ : ∃ (start : String) (ns : List String),
        IsStart start ∧ (∀ n ∈ ns, Segment n) ∧ ((components p).filterMap Component.kept?).foldl
          join (if isAbsolute p then startOf p.toList else here.foldl join "/") =
            ns.foldl join start := by
      cases isAbsolute p with
      | true => exact ⟨_, _, startOf_isStart p.toList, hn, rfl⟩
      | false =>
        refine ⟨"/", here ++ (components p).filterMap Component.kept?, .inl rfl, ?_, ?_⟩
        · exact fun n hm => (List.mem_append.mp hm).elim (hh n) (hn n)
        · rw [List.foldl_append]
          rfl
    simp only [hw, Option.some.injEq] at h
    refine ⟨start, ns, hs, hns, ?_⟩
    split at h
    · exact .inr h.symm
    · exact .inl h.symm

theorem Resolved.absolute? {ns : List String} (h : Resolved root) (hn : ∀ n ∈ ns, Segment n)
    (hne : ns ≠ []) (dir : String) :
    absolute? dir (ns.foldl join root) = some (ns.foldl join root) := by
  obtain ⟨start, ms, hs, hm, hr⟩ := h
  have hf : ns.foldl join root = (ms ++ ns).foldl join start := by
    rw [List.foldl_append]
    rcases hr with rfl | rfl
    · rfl
    · obtain ⟨n, ns, rfl⟩ := List.exists_cons_of_ne_nil hne
      rw [List.foldl_cons, join_empty_join, List.foldl_cons]
  rw [hf]
  refine absolute?_foldl_join hs ?_ (List.append_ne_nil_of_right_ne_nil _ hne) dir
  exact fun n h => (List.mem_append.mp h).elim (hm n) (hn n)

end Triage.Path
