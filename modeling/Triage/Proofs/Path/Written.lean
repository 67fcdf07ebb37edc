import Mathlib.Data.String.Basic
import Triage.Proofs.FileTree.Absolute
import Triage.Proofs.Text.Infix

set_option autoImplicit true

namespace Triage.Path

open Text

/-- A start, the names with one slash between them, and a slash at the end or none. -/
def Written (names : List String) (p : String) : Prop :=
  ∃ start tail, IsStart start ∧ (tail = "" ∨ tail = "/" ∧ names ≠ []) ∧
    (∀ n ∈ names, Segment n) ∧ p = start ++ "/".intercalate names ++ tail

theorem foldl_join_eq (hs : IsStart start) (hn : ∀ n ∈ ns, Segment n) :
    ns.foldl join start = start ++ "/".intercalate ns := by
  cases ns with
  | nil => rw [List.foldl_nil, String.intercalate_nil, String.append_empty]
  | cons n ns => rw [List.foldl_cons, join_of_isOpen hs.isOpen, append_intercalate hn]

theorem names_of_isStart (hs : IsStart start) (hn : ∀ n ∈ ns, Segment n) :
    names (ns.foldl join start) = ns := by
  rw [names_foldl_join hn, hs.names, List.nil_append]

theorem Resolved.cases (h : Resolved p) : ∃ start, IsStart start ∧ (∀ n ∈ names p, Segment n) ∧
    (p = (names p).foldl join start ∨
      names p ≠ [] ∧ p = (names p).foldl join start ++ "/") := by
  obtain ⟨start, ns, hs, hn, hp⟩ := h
  have hm : names p = ns := by
    rcases hp with rfl | rfl
    · exact names_of_isStart hs hn
    · rw [names_join_empty, names_of_isStart hs hn]
  rw [hm]
  refine ⟨start, hs, hn, ?_⟩
  rcases hp with hp | hp
  · exact .inl hp
  · rcases eq_or_ne ns [] with rfl | hne
    · rw [List.foldl_nil, join_of_isOpen hs.isOpen, String.append_empty] at hp
      exact .inl hp
    · rw [join_of_not_isOpen (not_isOpen_foldl_join hn hne start), String.append_empty] at hp
      exact .inr ⟨hne, hp⟩

theorem Resolved.written (h : Resolved p) : Written (names p) p := by
  obtain ⟨start, hs, hn, hp⟩ := h.cases
  rw [foldl_join_eq hs hn] at hp
  rcases hp with hp | ⟨hne, hp⟩
  · exact ⟨start, "", hs, .inl rfl, hn, by rwa [String.append_empty]⟩
  · exact ⟨start, "/", hs, .inr ⟨rfl, hne⟩, hn, hp⟩

def endedNames (p : String) : List String :=
  names p ++ if p.toList.getLast? = some '/' then [""] else []

theorem getLast?_of_not_isOpen (h : isOpen p = false) : p.toList.getLast? ≠ some '/' := by
  simp only [isOpen, Bool.or_eq_false_iff, decide_eq_false_iff_not] at h
  exact h.2

theorem endedNames_of_not_isOpen (h : isOpen p = false) : endedNames p = names p := by
  rw [endedNames, if_neg (getLast?_of_not_isOpen h), List.append_nil]

theorem absolute?_eq_some : absolute? dir p = some q ↔ p ≠ "" ∧
    (endedNames p).foldl join (if isAbsolute p then startOf p.toList else dir) = q := by
  simp only [absolute?, endedNames, names, List.foldl_append, String.isEmpty_iff]
  by_cases he : p = ""
  · rw [if_pos he]
    constructor
    · intro h
      cases h
    · intro h
      exact absurd he h.1
  · rw [if_neg he, Option.some.injEq, and_iff_right he]
    split <;> rfl

theorem exists_absolute? (h : p ≠ "") (dir : String) : ∃ q, absolute? dir p = some q :=
  ⟨_, absolute?_eq_some.mpr ⟨h, rfl⟩⟩

theorem ne_empty_of_isAbsolute (h : isAbsolute p = true) : p ≠ "" := by
  rintro rfl
  cases h

theorem IsStart.startOf_self (h : IsStart start) : Path.startOf start.toList = start := by
  rcases h with rfl | rfl <;> decide

theorem IsStart.getLast? (h : IsStart start) : start.toList.getLast? = some '/' := by
  rcases h with rfl | rfl <;> decide

theorem IsStart.startOf_foldl_join {ns : List String} (hs : IsStart start)
    (hn : ∀ n ∈ ns, Segment n) (hne : ns ≠ []) (r : List Char) :
    Path.startOf ((ns.foldl join start).toList ++ r) = start := by
  obtain ⟨c, cs, hc, ht⟩ := exists_toList_of_isStart hs hn hne
  rw [ht, List.append_assoc, List.cons_append, hs.startOf hc]

theorem Resolved.absolute?_self (h : Resolved p) (dir : String) :
    Path.absolute? dir p = some p := by
  rw [absolute?_eq_some, if_pos h.isAbsolute, endedNames, List.foldl_append]
  refine ⟨ne_empty_of_isAbsolute h.isAbsolute, ?_⟩
  obtain ⟨start, hs, hn, hp⟩ := h.cases
  generalize names p = ns at hn hp ⊢
  rcases eq_or_ne ns [] with rfl | hne
  · have hp : p = start := hp.resolve_right fun h => h.1 rfl
    rw [hp, hs.getLast?, if_pos rfl, hs.startOf_self]
    exact (join_of_isOpen hs.isOpen "").trans String.append_empty
  · have ho := not_isOpen_foldl_join hn hne start
    have hst := hs.startOf_foldl_join hn hne
    rcases hp with rfl | ⟨-, rfl⟩
    · have hst := hst []
      rw [List.append_nil] at hst
      rw [if_neg (getLast?_of_not_isOpen ho), hst]
      rfl
    · rw [String.toList_append, show "/".toList = ['/'] from rfl, List.getLast?_concat,
        if_pos rfl, hst]
      exact (join_of_not_isOpen ho "").trans String.append_empty

theorem toList_join_sublist (p n : String) :
    (join p n).toList.Sublist (p.toList ++ '/' :: n.toList) := by
  cases h : isOpen p with
  | true =>
    rw [join_of_isOpen h, String.toList_append]
    exact (List.sublist_cons_self '/' n.toList).append_left p.toList
  | false =>
    rw [join_of_not_isOpen h, String.toList_append, String.toList_append, List.append_assoc]
    exact List.Sublist.refl _

theorem toList_foldl_join_sublist {ns : List String} {pieces : List (List Char)}
    (h : (ns.map String.toList).Sublist pieces) (p : String) :
    (ns.foldl join p).toList.Sublist (p.toList ++ pieces.flatMap ('/' :: ·)) := by
  induction pieces generalizing ns p with
  | nil =>
    rw [List.map_eq_nil_iff.mp (List.sublist_nil.mp h), List.flatMap_nil, List.append_nil]
    exact List.Sublist.refl _
  | cons piece pieces ih =>
    rw [List.flatMap_cons]
    cases ns with
    | nil => exact List.sublist_append_left _ _
    | cons n ns =>
      cases h with
      | cons _ h =>
        refine (ih h p).trans (List.Sublist.append_left ?_ _)
        exact List.sublist_append_right _ _
      | cons_cons _ h =>
        rw [← List.append_assoc]
        exact (ih h (join p n)).trans ((toList_join_sublist p n).append_right _)

theorem intercalate_cons (sep : Char) (piece : List Char) (pieces : List (List Char)) :
    List.intercalate [sep] (piece :: pieces) = piece ++ pieces.flatMap (sep :: ·) := by
  induction pieces generalizing piece with
  | nil => simp
  | cons q pieces ih =>
    rw [List.intercalate_cons_cons, ih, List.append_assoc]
    rfl

theorem toList_foldl_join_sublist_of_isOpen {ns : List String} {piece : List Char}
    {pieces : List (List Char)} (ho : isOpen p = true)
    (h : (ns.map String.toList).Sublist (piece :: pieces)) :
    (ns.foldl join p).toList.Sublist (p.toList ++ List.intercalate ['/'] (piece :: pieces)) := by
  cases ns with
  | nil => exact List.sublist_append_left _ _
  | cons n ns =>
    have hfirst {pieces : List (List Char)} (h : (ns.map String.toList).Sublist pieces) :
        ((n :: ns).foldl join p).toList.Sublist
          (p.toList ++ List.intercalate ['/'] (n.toList :: pieces)) := by
      rw [List.foldl_cons, join_of_isOpen ho, intercalate_cons, ← List.append_assoc,
        ← String.toList_append]
      exact toList_foldl_join_sublist h (p ++ n)
    induction pieces generalizing piece with
    | nil =>
      cases h with
      | cons _ h => cases h
      | cons_cons _ h => exact hfirst h
    | cons q pieces ih =>
      cases h with
      | cons _ h =>
        rw [List.intercalate_cons_cons]
        refine (ih h).trans (List.Sublist.append_left ?_ _)
        exact List.sublist_append_right _ _
      | cons_cons _ h => exact hfirst h

theorem intercalate_splitAt (sep : Char) (s : List Char) :
    List.intercalate [sep] (splitAt sep s) = s := by
  induction s with
  | nil => rfl
  | cons c s ih =>
    obtain ⟨p, ps, hp⟩ := List.exists_cons_of_ne_nil (splitAt_ne_nil sep s)
    rw [hp, intercalate_cons] at ih
    rw [splitAt_cons, hp, cutBefore]
    split
    next hc =>
      rw [intercalate_cons, List.flatMap_cons, List.cons_append, ih, hc]
      rfl
    next => rw [intercalate_cons, List.cons_append, ih]

theorem namesOf_sublist (pieces : List (List Char)) :
    ((namesOf pieces).map String.toList).Sublist pieces := by
  rw [namesOf, List.filterMap_filterMap]
  induction pieces with
  | nil => exact List.Sublist.refl _
  | cons piece pieces ih =>
    rw [List.filterMap_cons, kept?_ofPart?_eq]
    split
    next => exact ih.cons piece
    next n hn =>
      obtain ⟨-, hn⟩ := Option.ite_none_left_eq_some.mp hn
      rw [← Option.some.inj hn, List.map_cons, String.toList_ofList]
      exact ih.cons_cons piece

theorem exists_eq_startOf_append (ha : isAbsolute p = true) :
    ∃ rest, p.toList = (startOf p.toList).toList ++ rest := by
  obtain ⟨rest, hr⟩ := List.head?_eq_some_iff.mp (of_decide_eq_true ha)
  rw [hr]
  unfold startOf
  split
  next => exact ⟨rest, rfl⟩
  next r _ h => exact ⟨r, h⟩
  next => exact ⟨rest, rfl⟩

theorem namesOf_splitAt_cons (rest : List Char) :
    namesOf (splitAt '/' ('/' :: rest)) = namesOf (splitAt '/' rest) := by
  rw [← List.nil_append ('/' :: rest), splitAt_append, namesOf_append]
  rfl

theorem IsStart.namesOf_append (h : IsStart start) (rest : List Char) :
    namesOf (splitAt '/' (start.toList ++ rest)) = namesOf (splitAt '/' rest) := by
  rcases h with rfl | rfl
  · exact namesOf_splitAt_cons rest
  · exact (namesOf_splitAt_cons ('/' :: rest)).trans (namesOf_splitAt_cons rest)

theorem namesOf_concat_sublist {rest : List Char} (h : rest = [] ∨ rest.getLast? = some '/') :
    ((namesOf (splitAt '/' rest) ++ [""]).map String.toList).Sublist (splitAt '/' rest) := by
  rcases h with rfl | h
  · exact List.Sublist.refl _
  · obtain ⟨r, rfl⟩ := List.getLast?_eq_some_iff.mp h
    rw [splitAt_append, splitAt_nil, namesOf_append, show namesOf [[]] = [] from rfl,
      List.append_nil, List.map_append]
    exact (namesOf_sublist _).append_right [[]]

theorem endedNames_sublist {start : String} (hs : IsStart start ∨ start = "") {rest : List Char}
    (hr : p.toList = start.toList ++ rest) :
    ((endedNames p).map String.toList).Sublist (splitAt '/' rest) := by
  have hn : names p = namesOf (splitAt '/' rest) := by
    rw [names_eq, hr]
    rcases hs with hs | rfl
    · exact hs.namesOf_append rest
    · rfl
  rw [endedNames, hn]
  split
  next hl =>
    apply namesOf_concat_sublist
    rcases eq_or_ne rest [] with he | he
    · exact .inl he
    · rw [hr, List.getLast?_append_of_ne_nil _ he] at hl
      exact .inr hl
  next =>
    rw [List.append_nil]
    exact namesOf_sublist _

/-- A path that is made absolute has no characters but its own and, if it was not absolute, a slash
and those of the directory. -/
theorem toList_absolute?_sublist (h : absolute? dir p = some q) :
    q.toList.Sublist (if isAbsolute p then p.toList else dir.toList ++ '/' :: p.toList) := by
  obtain ⟨-, rfl⟩ := absolute?_eq_some.mp h
  split
  next ha =>
    obtain ⟨rest, hr⟩ := exists_eq_startOf_append ha
    have hs := startOf_isStart p.toList
    obtain ⟨piece, pieces, hp⟩ := List.exists_cons_of_ne_nil (splitAt_ne_nil '/' rest)
    have hsub := toList_foldl_join_sublist_of_isOpen hs.isOpen
      (hp ▸ endedNames_sublist (.inl hs) hr)
    rwa [← hp, intercalate_splitAt, ← hr] at hsub
  next =>
    obtain ⟨piece, pieces, hp⟩ := List.exists_cons_of_ne_nil (splitAt_ne_nil '/' p.toList)
    have hsub := toList_foldl_join_sublist (hp ▸ endedNames_sublist (.inr rfl) rfl) dir
    rwa [List.flatMap_cons, List.cons_append, ← intercalate_cons, ← hp,
      intercalate_splitAt] at hsub

theorem utf8ByteSize_absolute?_le (ha : isAbsolute p = true) (h : absolute? dir p = some q) :
    q.utf8ByteSize ≤ p.utf8ByteSize := by
  have hsub := toList_absolute?_sublist h
  rw [if_pos ha] at hsub
  rw [← String.ofList_toList (s := q), ← String.ofList_toList (s := p), String.utf8ByteSize_ofList,
    String.utf8ByteSize_ofList]
  exact String.utf8Len_le_of_sublist hsub

theorem not_mem_absolute? (hc : c ≠ '/') (hd : c ∉ dir.toList) (hp : c ∉ p.toList)
    (h : absolute? dir p = some q) : c ∉ q.toList := by
  intro hm
  have hm := (toList_absolute?_sublist h).subset hm
  split at hm
  · exact hp hm
  · rcases List.mem_append.mp hm with hm | hm
    · exact hd hm
    · rcases List.mem_cons.mp hm with hm | hm
      · exact hc hm
      · exact hp hm

end Triage.Path
