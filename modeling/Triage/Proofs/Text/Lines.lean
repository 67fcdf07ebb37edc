import Mathlib.Data.List.TakeWhile
import Triage.Text.Blank

set_option autoImplicit true

namespace Triage.Text

theorem trimStart_append (ha : ∀ c ∈ a, isBlank c = true) (s : List Char) :
    trimStart (a ++ s) = trimStart s :=
  List.dropWhile_append_of_pos ha

theorem trimEnd_append (hb : ∀ c ∈ b, isBlank c = true) (s : List Char) :
    trimEnd (s ++ b) = trimEnd s := by
  rw [trimEnd, trimEnd, List.reverse_append,
    List.dropWhile_append_of_pos fun c hc => hb c (List.mem_reverse.mp hc)]

theorem trimStart_eq_nil : trimStart s = [] ↔ ∀ c ∈ s, isBlank c = true :=
  List.dropWhile_eq_nil_iff

theorem trim_append_append (ha : ∀ c ∈ a, isBlank c = true) (hb : ∀ c ∈ b, isBlank c = true)
    (s : List Char) : trim (a ++ s ++ b) = trim s := by
  rw [trim, List.append_assoc, trimStart_append ha]
  by_cases hs : ∀ c ∈ s, isBlank c = true
  · rw [trimStart_append hs, trimStart_eq_nil.mpr hb, trim, trimStart_eq_nil.mpr hs]
  · -- Something of the text is left, and the white space behind it stays where it is for now.
    have hd : trimStart (s ++ b) = trimStart s ++ b := by
      rw [trimStart, List.dropWhile_append, if_neg]
      · rfl
      · rw [List.isEmpty_iff]
        exact fun h => hs (trimStart_eq_nil.mp h)
    rw [hd, trimEnd_append hb]
    rfl

def endsBlank (s : List Char) : Bool := s.getLast?.any isBlank

theorem endsBlank_append (a b : List Char) :
    endsBlank (a ++ b) = if b = [] then endsBlank a else endsBlank b := by
  rcases List.eq_nil_or_concat b with rfl | ⟨b, c, rfl⟩
  · simp
  · simp [endsBlank]

theorem endsBlank_of_forall (h : ∀ c ∈ s, isBlank c = false) : endsBlank s = false := by
  rw [endsBlank, Option.any_eq_false]
  exact fun c hc => by simpa using h c (List.mem_of_getLast? hc)

theorem endsBlank_trim (s : List Char) : endsBlank (trim s) = false := by
  rw [endsBlank, trim, trimEnd, List.getLast?_reverse, Option.any_eq_false]
  intro c hc
  have hd := List.head?_dropWhile_not isBlank (trimStart s).reverse
  rw [hc] at hd
  simpa using hd

theorem trim_eq_self (hh : s.head?.any isBlank = false) (hl : endsBlank s = false) :
    trim s = s := by
  have hs : trimStart s = s := by
    cases s with
    | nil => rfl
    | cons c s => exact List.dropWhile_cons_of_neg (by simpa using hh)
  rw [trim, hs]
  rcases List.eq_nil_or_concat s with rfl | ⟨s, c, rfl⟩
  · rfl
  · have hc : isBlank c = false := by simpa [endsBlank] using hl
    simp [trimEnd, hc]

theorem trim_of_forall (h : ∀ c ∈ s, isBlank c = false) : trim s = s := by
  refine trim_eq_self ?_ (endsBlank_of_forall h)
  rw [Option.any_eq_false]
  exact fun c hc => by simpa using h c (List.mem_of_head? hc)

theorem splitAt_append_of_not_mem (ha : sep ∉ a) (hs : splitAt sep s = p :: ps) :
    splitAt sep (a ++ s) = (a ++ p) :: ps := by
  induction a with
  | nil => exact hs
  | cons c a ih =>
    obtain ⟨hc, ha⟩ := not_or.mp (mt List.mem_cons.mpr ha)
    rw [List.cons_append, splitAt_cons, ih ha]
    exact if_neg (Ne.symm hc)

theorem splitAt_intercalate (h : ∀ p ∈ ps, sep ∉ p) (hne : ps ≠ []) :
    splitAt sep (List.intercalate [sep] ps) = ps := by
  induction ps with
  | nil => exact absurd rfl hne
  | cons p ps ih =>
    have hp := splitAt_of_not_mem (h p List.mem_cons_self)
    cases ps with
    | nil => rwa [List.intercalate_singleton]
    | cons q qs =>
      have ih := ih (fun r hr => h r (List.mem_cons_of_mem _ hr)) (List.cons_ne_nil q qs)
      rw [List.intercalate_cons_cons, List.append_assoc, List.singleton_append, splitAt_append, hp,
        ih, List.singleton_append]

theorem map_ofList_splitAt_intercalate {s : String} {ps : List String} (hs : s.toList = [sep])
    (h : ∀ p ∈ ps, sep ∉ p.toList) (hne : ps ≠ []) :
    (splitAt sep (s.intercalate ps).toList).map String.ofList = ps := by
  have hp : ∀ p ∈ ps.map String.toList, sep ∉ p := List.forall_mem_map.mpr h
  have hn : ps.map String.toList ≠ [] := mt List.map_eq_nil_iff.mp hne
  rw [String.toList_intercalate, hs, splitAt_intercalate hp hn, List.map_map]
  exact List.map_id'' (fun p => String.ofList_toList) ps

theorem mem_intercalate {sep : List Char} (h : c ∈ List.intercalate sep ps) :
    c ∈ sep ∨ ∃ p ∈ ps, c ∈ p := by
  induction ps with
  | nil => exact absurd h List.not_mem_nil
  | cons p ps ih =>
    cases ps with
    | nil => exact .inr ⟨p, List.mem_cons_self, by simpa using h⟩
    | cons q ps =>
      rw [List.intercalate_cons_cons, List.mem_append, List.mem_append] at h
      rcases h with (h | h) | h
      · exact .inr ⟨p, List.mem_cons_self, h⟩
      · exact .inl h
      · exact (ih h).imp_right fun ⟨r, hr, hc⟩ => ⟨r, List.mem_cons_of_mem p hr, hc⟩

theorem trim_dropReturn (s : List Char) : trim (dropReturn s) = trim s := by
  unfold dropReturn
  split
  next h =>
    obtain ⟨r, rfl⟩ := List.getLast?_eq_some_iff.mp h
    rw [List.dropLast_concat]
    have hb : ∀ c ∈ ['\r'], isBlank c = true := List.forall_mem_singleton.mpr rfl
    exact (trim_append_append (a := []) (by simp) hb r).symm
  next => rfl

/-- Trimming leaves nothing of the line endings, so that only an empty piece behind the last line
feed tells the lines of a text from the pieces between its line feeds. -/
theorem filter_trim_lines {p : List Char → Bool} (hp : p [] = false) (s : List Char) :
    ((lines s).map trim).filter p = ((splitAt '\n' s).map trim).filter p := by
  unfold lines
  generalize splitAt '\n' s = ps
  fun_induction linesOfPieces ps with
  | case1 => rfl
  | case2 q hq =>
    rw [List.isEmpty_iff.mp hq]
    simp [show trim [] = [] from rfl, hp]
  | case3 => rfl
  | case4 q r ps ih =>
    rw [List.map_cons, trim_dropReturn, List.map_cons, List.filter_cons, List.filter_cons, ih]

theorem lines_of_not_mem (hn : '\n' ∉ l) (hne : l ≠ []) (hl : endsBlank l = false)
    (he : e = [] ∨ e = ['\n'] ∨ e = ['\r', '\n']) : lines (l ++ e) = [l] := by
  have hr : l.getLast? ≠ some '\r' := fun hr => absurd hl (by rw [endsBlank, hr]; decide)
  rcases he with rfl | rfl | rfl
  · rw [List.append_nil, lines, splitAt_of_not_mem hn]
    simp [linesOfPieces, hne]
  · rw [lines, splitAt_append, splitAt_of_not_mem hn]
    simp [linesOfPieces, dropReturn, hr]
  · have hm : '\n' ∉ l ++ ['\r'] := by simp [hn]
    rw [show l ++ ['\r', '\n'] = l ++ ['\r'] ++ '\n' :: [] by simp, lines, splitAt_append,
      splitAt_of_not_mem hm]
    simp [linesOfPieces, dropReturn]

theorem splitOnce?_append (hc : c ∉ t) (q u : List Char) :
    splitOnce? (c :: q) (t ++ (c :: q ++ u)) = some (t, u) := by
  induction t with
  | nil =>
    rw [List.nil_append, List.cons_append, splitOnce?, ← List.cons_append, stripPrefix?_append]
  | cons d t ih =>
    obtain ⟨hd, ht⟩ := not_or.mp (mt List.mem_cons.mpr hc)
    rw [List.cons_append, splitOnce?, stripPrefix?, if_neg hd, ih ht]
    rfl

theorem splitLast?_append (hc : c ∉ t) (h q : List Char) :
    splitLast? (q ++ [c]) (h ++ (q ++ [c]) ++ t) = some (h, t) := by
  have hr : (h ++ (q ++ [c]) ++ t).reverse = t.reverse ++ (c :: q.reverse ++ h.reverse) := by simp
  rw [splitLast?, hr, List.reverse_concat, splitOnce?_append (mt List.mem_reverse.mp hc)]
  simp

theorem stripPrefix?_eq_none : stripPrefix? p s = none ↔ ¬p <+: s := by
  constructor
  · rintro h ⟨t, rfl⟩
    simp at h
  · intro h
    rw [Option.eq_none_iff_forall_ne_some]
    exact fun t ht => h ⟨t, (eq_append_of_stripPrefix? ht).symm⟩

theorem stripSuffix?_eq_some : stripSuffix? q s = some t ↔ s = t ++ q := by
  rw [stripSuffix?, Option.map_eq_some_iff]
  constructor
  · rintro ⟨r, hr, rfl⟩
    simpa using congrArg List.reverse (eq_append_of_stripPrefix? hr)
  · rintro rfl
    exact ⟨t.reverse, by simp, List.reverse_reverse t⟩

theorem eq_append_of_splitOnce? (h : splitOnce? p s = some (a, b)) : s = a ++ p ++ b := by
  fun_induction splitOnce? p s generalizing a with
  | case1 hp =>
    cases h
    rw [List.isEmpty_iff.mp hp]
    rfl
  | case2 => cases h
  | case3 c s t ht =>
    cases h
    rw [eq_append_of_stripPrefix? ht, List.nil_append]
  | case4 c s hn ih =>
    obtain ⟨⟨a', b'⟩, hs, he⟩ := Option.map_eq_some_iff.mp h
    cases he
    rw [ih hs, List.cons_append, List.cons_append]

theorem splitOnce?_eq_none : splitOnce? p s = none ↔ ¬p <:+: s := by
  constructor
  · intro h
    fun_induction splitOnce? p s with
    | case1 => cases h
    | case2 hp => simpa using hp
    | case3 => cases h
    | case4 c s hn ih =>
      rw [List.infix_cons_iff, not_or]
      exact ⟨stripPrefix?_eq_none.mp hn, ih (Option.map_eq_none_iff.mp h)⟩
  · intro h
    rw [Option.eq_none_iff_forall_ne_some]
    exact fun ⟨a, b⟩ hs => h ⟨a, b, (eq_append_of_splitOnce? hs).symm⟩

theorem not_infix_of_splitOnce? (hp : p ≠ []) (h : splitOnce? p s = some (a, b)) :
    ¬p <:+: a ++ p.dropLast := by
  fun_induction splitOnce? p s generalizing a with
  | case1 he => exact absurd (List.isEmpty_iff.mp he) hp
  | case2 => cases h
  | case3 c s t ht =>
    cases h
    intro hi
    have hl := hi.length_le
    have hn := List.length_pos_iff.mpr hp
    rw [List.nil_append, List.length_dropLast] at hl
    omega
  | case4 c s hn ih =>
    obtain ⟨⟨a', b'⟩, hs, he⟩ := Option.map_eq_some_iff.mp h
    cases he
    rw [List.cons_append, List.infix_cons_iff, not_or]
    refine ⟨fun hc => stripPrefix?_eq_none.mp hn (hc.trans ?_), ih hs⟩
    rw [eq_append_of_splitOnce? hs, List.append_assoc, ← List.cons_append, ← List.cons_append]
    exact (List.prefix_append_right_inj _).mpr
      ((List.dropLast_prefix p).trans (List.prefix_append p b))

theorem splitLast?_eq_none : splitLast? p s = none ↔ ¬p <:+: s := by
  rw [splitLast?, Option.map_eq_none_iff, splitOnce?_eq_none, List.reverse_infix]

theorem eq_append_of_splitLast? (h : splitLast? p s = some (a, b)) : s = a ++ p ++ b := by
  obtain ⟨⟨t, u⟩, hs, he⟩ := Option.map_eq_some_iff.mp h
  cases he
  have hr := congrArg List.reverse (eq_append_of_splitOnce? hs)
  simpa using hr

theorem not_infix_of_splitLast? (hp : p ≠ []) (h : splitLast? p s = some (a, b)) :
    ¬p <:+: p.tail ++ b := by
  obtain ⟨⟨t, u⟩, hs, he⟩ := Option.map_eq_some_iff.mp h
  cases he
  have hn := not_infix_of_splitOnce? (by simpa using hp) hs
  rw [← List.reverse_infix] at hn
  simpa using hn

end Triage.Text
