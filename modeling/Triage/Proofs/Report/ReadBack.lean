import Triage.Proofs.Report.Counts
import Triage.Proofs.Report.Order
import Triage.Proofs.Text.Digits
import Triage.Proofs.Text.Lines
import Triage.Report.Reader

set_option autoImplicit true

namespace Triage.Report
open Text

def groupMarks (r : Report) (s : Status) : List Mark :=
  if r.count s = 0 then [] else .heading s (r.count s) :: (r.byStatus s).map (.file ·.file)

def marks (r : Report) : List Mark := Status.all.flatMap r.groupMarks

theorem splitAt_line (h : '\n' ∉ t.toList) (rest : List Char) :
    splitAt '\n' (line t ++ rest) = t.toList :: splitAt '\n' rest := by
  rw [line, List.append_assoc, List.singleton_append, splitAt_append, splitAt_of_not_mem h,
    List.singleton_append]

theorem splitAt_lines {ts : List String} (h : ∀ t ∈ ts, '\n' ∉ t.toList) (rest : List Char) :
    splitAt '\n' (ts.flatMap line ++ rest) = ts.map String.toList ++ splitAt '\n' rest := by
  induction ts with
  | nil => rfl
  | cons t ts ih =>
    rw [List.flatMap_cons, List.append_assoc, splitAt_line (h t List.mem_cons_self),
      ih fun u hu => h u (List.mem_cons_of_mem t hu), List.map_cons, List.cons_append]

namespace Mark

theorem ofText_line (h : '\n' ∉ t.toList) (rest : List Char) :
    ofText (line t ++ rest) = (ofLine? t.toList).toList ++ ofText rest := by
  rw [ofText, splitAt_line h, List.filterMap_cons]
  cases ofLine? t.toList <;> rfl

theorem ofText_append (a b : List Char) : ofText (a ++ '\n' :: b) = ofText a ++ ofText b := by
  rw [ofText, splitAt_append, List.filterMap_append, ofText, ofText]

theorem exists_name_eq_cons (s : Status) :
    ∃ c l, s.name.toList = c :: l ∧ c ≠ ' ' ∧ c ≠ '-' ∧ ' ' ∉ s.name.toList := by
  cases s <;> exact ⟨_, _, rfl, by decide⟩

theorem headingOf?_cons_of (h : c = ' ' ∨ c = '-') (l : List Char) (s : Status) :
    headingOf? (c :: l) s = none := by
  obtain ⟨d, n, hn, hs, hd, -⟩ := exists_name_eq_cons s
  have hc : d ≠ c := by
    rintro rfl
    exact h.elim hs hd
  rw [headingOf?, hn, List.cons_append, stripPrefix?, if_neg hc, Option.map_none]

theorem ofLine?_of_indented (l : List Char) : ofLine? (detailIndent ++ l) = none := by
  have hi : detailIndent ++ l = ' ' :: ' ' :: ' ' :: (List.replicate 3 ' ' ++ l) := rfl
  rw [hi, ofLine?, show stripPrefix? [' ', ' ', '/'] _ = none from rfl]
  exact List.findSome?_eq_none_iff.mpr fun s _ => headingOf?_cons_of (.inl rfl) _ s

theorem ofLine?_of_dashes (n : Nat) : ofLine? (List.replicate n '-') = none := by
  cases n with
  | zero => decide
  | succ n =>
    rw [List.replicate_succ, ofLine?, show stripPrefix? [' ', ' ', '/'] _ = none from rfl]
    exact List.findSome?_eq_none_iff.mpr fun s _ => headingOf?_cons_of (.inr rfl) _ s

theorem ofLine?_file (h : f.toList.head? = some '/') : ofLine? ("  " ++ f).toList = some (file f) := by
  obtain ⟨p, hp⟩ := List.head?_eq_some_iff.mp h
  rw [String.toList_append, hp, show "  ".toList = [' ', ' '] from rfl]
  show some (file (String.ofList ('/' :: p))) = _
  rw [← hp, String.ofList_toList]

theorem toList_heading (s : Status) (n : Nat) :
    (s!"{s.name} ({n}):").toList =
      s.name.toList ++ ' ' :: '(' :: (Nat.toDigits 10 n ++ [')', ':']) := by
  show (s.name ++ " (" ++ toString n ++ "):").toList = _
  have ho : " (".toList = [' ', '('] := rfl
  have hc : "):".toList = [')', ':'] := rfl
  simp only [String.toList_append, Nat.toString_eq_repr, Nat.toList_repr, ho, hc, List.append_assoc,
    List.cons_append, List.nil_append]

theorem headingOf?_heading (s : Status) (n : Nat) :
    headingOf? (s!"{s.name} ({n}):").toList s = some (heading s n) := by
  have ha : s.name.toList ++ ' ' :: '(' :: (Nat.toDigits 10 n ++ [')', ':']) =
      s.name.toList ++ [' ', '('] ++ (Nat.toDigits 10 n ++ [')', ':']) := by simp
  have hd : ∀ c ∈ Nat.toDigits 10 n, c.isDigit = true :=
    fun c hc => Nat.isDigit_of_mem_toDigits (by decide) (by decide) hc
  rw [headingOf?, toList_heading, ha, stripPrefix?_append, Option.map_some,
    List.takeWhile_append_of_pos hd]
  simp [Nat.ofDigitChars_ten_toDigits]

theorem eq_of_headingOf?_heading {n : Nat} (h : headingOf? (s!"{s.name} ({n}):").toList t = some m) :
    t = s := by
  obtain ⟨rest, hr, -⟩ := Option.map_eq_some_iff.mp h
  have he := eq_append_of_stripPrefix? hr
  rw [toList_heading, List.append_assoc] at he
  obtain ⟨-, -, -, -, -, hs⟩ := exists_name_eq_cons s
  obtain ⟨-, -, -, -, -, ht⟩ := exists_name_eq_cons t
  -- The name ends at the first space of the line.
  have ho := splitOnce?_singleton.mpr ⟨ht, he⟩
  rw [splitOnce?_singleton.mpr ⟨hs, rfl⟩] at ho
  have hn : s.name = t.name := String.toList_inj.mp (Prod.mk.inj (Option.some.inj ho)).1
  have hn := congrArg Status.ofName? hn
  rw [Status.ofName?_name, Status.ofName?_name] at hn
  exact (Option.some.inj hn).symm

theorem ofLine?_heading (s : Status) (n : Nat) :
    ofLine? (s!"{s.name} ({n}):").toList = some (heading s n) := by
  have hf : stripPrefix? [' ', ' ', '/'] (s!"{s.name} ({n}):").toList = none := by
    obtain ⟨c, l, hn, hc, -⟩ := exists_name_eq_cons s
    rw [toList_heading, hn, List.cons_append, stripPrefix?, if_neg (Ne.symm hc)]
  have hs : (Status.all.findSome? (headingOf? (s!"{s.name} ({n}):").toList)).isSome := by
    rw [List.findSome?_isSome_iff]
    exact ⟨s, Status.mem_all s, by rw [headingOf?_heading]; rfl⟩
  obtain ⟨m, hm⟩ := Option.isSome_iff_exists.mp hs
  obtain ⟨t, -, ht⟩ := List.exists_of_findSome?_eq_some hm
  cases eq_of_headingOf?_heading ht
  rw [ofLine?, hf, ← headingOf?_heading s n, ht]
  exact hm

end Mark

theorem splitAt_indented (h : splitAt '\n' t = p :: ps) :
    splitAt '\n' (t.flatMap fun c => if c = '\n' then '\n' :: detailIndent else [c]) =
      p :: ps.map (detailIndent ++ ·) := by
  induction t generalizing p ps with
  | nil =>
    cases h
    rfl
  | cons c t ih =>
    obtain ⟨q, qs, hq⟩ := List.exists_cons_of_ne_nil (splitAt_ne_nil '\n' t)
    have ih := ih hq
    rw [splitAt_cons, hq] at h
    rw [List.flatMap_cons]
    by_cases hc : c = '\n'
    · have hi := splitAt_append_of_not_mem (a := detailIndent) (by decide) ih
      rw [if_pos hc, List.cons_append, splitAt_cons, hi]
      simp only [cutBefore, hc, if_true, List.cons.injEq] at h ⊢
      obtain ⟨rfl, rfl⟩ := h
      exact ⟨rfl, rfl⟩
    · rw [if_neg hc, List.singleton_append, splitAt_cons, ih]
      simp only [cutBefore, hc, if_false, List.cons.injEq] at h ⊢
      obtain ⟨rfl, rfl⟩ := h
      exact ⟨rfl, rfl⟩

theorem splitAt_indentLines (t : List Char) :
    splitAt '\n' (indentLines t) = (splitAt '\n' t).map (detailIndent ++ ·) := by
  obtain ⟨p, ps, hp⟩ := List.exists_cons_of_ne_nil (splitAt_ne_nil '\n' t)
  rw [indentLines, splitAt_append_of_not_mem (by decide) (splitAt_indented hp), hp, List.map_cons]

theorem ofText_indentLines (t : List Char) : Mark.ofText (indentLines t) = [] := by
  rw [Mark.ofText, splitAt_indentLines, List.filterMap_map, List.filterMap_eq_nil_iff]
  exact fun l _ => Mark.ofLine?_of_indented l

theorem ofText_entry {f : Finding} (hf : f.file.toList.head? = some '/') (hn : '\n' ∉ f.file.toList)
    (rest : List Char) : Mark.ofText (entry f ++ rest) = .file f.file :: Mark.ofText rest := by
  have hl : '\n' ∉ ("  " ++ f.file).toList := by
    rw [String.toList_append, List.mem_append, not_or]
    exact ⟨by decide, hn⟩
  rw [entry, List.append_assoc, Mark.ofText_line hl, Mark.ofLine?_file hf]
  cases detail? f with
  | none => rfl
  | some t =>
    rw [List.append_assoc, List.singleton_append, Mark.ofText_append, ofText_indentLines]
    rfl

theorem ofText_entries {fs : List Finding}
    (h : ∀ f ∈ fs, f.file.toList.head? = some '/' ∧ '\n' ∉ f.file.toList) (rest : List Char) :
    Mark.ofText (fs.flatMap entry ++ rest) = fs.map (.file ·.file) ++ Mark.ofText rest := by
  induction fs with
  | nil => rfl
  | cons f fs ih =>
    obtain ⟨hf, hn⟩ := h f List.mem_cons_self
    rw [List.flatMap_cons, List.append_assoc, ofText_entry hf hn,
      ih fun g hg => h g (List.mem_cons_of_mem f hg), List.map_cons, List.cons_append]

theorem toList_dashes (n : Nat) : ("".pushn '-' n).toList = List.replicate n '-' := by
  rw [String.pushn_eq_repeat_push]
  induction n with
  | zero => rfl
  | succ n ih => rw [Nat.repeat, String.toList_push, ih, List.replicate_succ']

theorem not_mem_heading (s : Status) (n : Nat) : '\n' ∉ (s!"{s.name} ({n}):").toList := by
  have hs : '\n' ∉ s.name.toList := by cases s <;> decide
  have hn : '\n' ∉ Nat.toDigits 10 n := not_mem_toDigits (by decide)
  rw [Mark.toList_heading]
  simp [hs, hn]

/-- The files of a report have absolute names of one line. -/
def Plain (r : Report) : Prop :=
  ∀ f ∈ r.findings, f.file.toList.head? = some '/' ∧ '\n' ∉ f.file.toList

theorem Plain.ofText_group {r : Report} (h : r.Plain) (s : Status) (rest : List Char) :
    Mark.ofText (r.group s ++ rest) = r.groupMarks s ++ Mark.ofText rest := by
  unfold group groupMarks
  split
  next => rfl
  next =>
    have hd : '\n' ∉ ("".pushn '-' (r.heading s).length).toList := by
      rw [toList_dashes]
      exact fun hm => absurd (List.eq_of_mem_replicate hm) (by decide)
    have hf := fun f hf => h f (List.mem_of_mem_filter (l := r.findings) (p := (·.status = s)) hf)
    rw [List.append_assoc, List.append_assoc, List.append_assoc, heading,
      Mark.ofText_line (not_mem_heading s (r.count s)), Mark.ofLine?_heading, ← heading,
      Mark.ofText_line hd, toList_dashes, Mark.ofLine?_of_dashes, byStatus, ofText_entries hf,
      Mark.ofText_line (by decide)]
    rfl

theorem Plain.ofText_groups {r : Report} (h : r.Plain) : Mark.ofText r.groups = r.marks := by
  have hs : ∀ ss : List Status, Mark.ofText (ss.flatMap r.group) = ss.flatMap r.groupMarks := by
    intro ss
    induction ss with
    | nil => rfl
    | cons s ss ih => rw [List.flatMap_cons, h.ofText_group, ih, List.flatMap_cons]
  exact hs Status.all

def OneLine (t : String) : Prop := '\n' ∉ t.toList ∧ t.toList ≠ []

theorem OneLine.append (h : OneLine t) (hu : '\n' ∉ u.toList) : OneLine (t ++ u) := by
  rw [OneLine, String.toList_append, List.mem_append, not_or]
  exact ⟨⟨h.1, hu⟩, List.append_ne_nil_of_left_ne_nil h.2 _⟩

def titleLines : List String := ["Script Health Report", "===================="]

def statisticsLines (r : Report) : List String :=
  ["Summary Statistics:", "-------------------", s!"  Total files checked: {r.total}"] ++
  (Status.all.map fun s => s!"  {s.name}: {r.count s}") ++
  (if 0 < r.total then [s!"  Health rate: {r.healthRate}%"] else []) ++
  (if 0 < r.shortfall then [s!"  Unfinished checks: {r.shortfall}"] else [])

theorem statistics_eq (r : Report) : r.statistics =
    titleLines.flatMap line ++ (line "" ++ ((statisticsLines r).flatMap line ++ line "")) := by
  unfold statistics statisticsLines titleLines
  split <;> split <;> simp [List.flatMap_map]

theorem oneLine_of_mem_statisticsLines (r : Report) (h : t ∈ statisticsLines r) : OneLine t := by
  have hn : ∀ n : Nat, '\n' ∉ (toString n).toList := not_mem_toString (by decide)
  simp only [statisticsLines, List.mem_append, List.mem_cons, List.not_mem_nil, or_false,
    List.mem_map] at h
  rcases h with ((((rfl | rfl | rfl) | ⟨s, -, rfl⟩) | h) | h)
  · exact ⟨by decide, by decide⟩
  · exact ⟨by decide, by decide⟩
  · exact OneLine.append ⟨by decide, by decide⟩ (hn r.total)
  · have hs : '\n' ∉ s.name.toList := by cases s <;> decide
    have hi : OneLine "  " := ⟨by decide, by decide⟩
    exact ((hi.append hs).append (by decide)).append (hn (r.count s))
  · split at h
    · cases List.eq_of_mem_singleton h
      have hi : OneLine "  Health rate: " := ⟨by decide, by decide⟩
      exact (hi.append (Ratio.not_mem_fixed (by decide) (by decide) 2 _)).append (by decide)
    · cases h
  · split at h
    · cases List.eq_of_mem_singleton h
      exact OneLine.append ⟨by decide, by decide⟩ (hn r.shortfall)
    · cases h

theorem behindEmpty_append {ls : List (List Char)} (h : ∀ l ∈ ls, l ≠ []) (rest : List (List Char)) :
    behindEmpty (ls ++ [] :: rest) = rest := by
  have hd : ∀ l ∈ ls, (!l.isEmpty) = true := fun l hl => by simpa using h l hl
  rw [behindEmpty, List.dropWhile_append_of_pos hd]
  rfl

/-- The reader of a summary passes over the statistics, and reads the groups. -/
theorem read_summary (r : Report) : read r.summary = Mark.ofText r.groups := by
  have ht : ∀ t ∈ titleLines, OneLine t := by
    unfold OneLine
    decide
  have hs := fun t => oneLine_of_mem_statisticsLines (t := t) r
  have hne {ts : List String} (h : ∀ t ∈ ts, OneLine t) : ∀ l ∈ ts.map String.toList, l ≠ [] := by
    intro l hl
    obtain ⟨t, hm, rfl⟩ := List.mem_map.mp hl
    exact (h t hm).2
  have he : "".toList = [] := rfl
  rw [read, summary, String.toList_ofList, statistics_eq, List.append_assoc, List.append_assoc,
    List.append_assoc, splitAt_lines fun t hm => (ht t hm).1, splitAt_line (by decide), he,
    behindEmpty_append (hne ht), splitAt_lines fun t hm => (hs t hm).1, splitAt_line (by decide), he,
    behindEmpty_append (hne hs), Mark.ofText]

/-- The lines of a summary behind its statistics, read without regard to what is said about the files,
give a heading with its count for each status that occurs, in their order, and below it the files of
that status in the order of the report; so many as the heading says. -/
theorem headings_read_back (fs : List Finding) (n : Nat)
    (h : ∀ f ∈ fs, f.file.toList.head? = some '/' ∧ '\n' ∉ f.file.toList) :
    let r := (ofFindings fs).withShortfall n
    read r.summary = Status.all.flatMap (fun s =>
      if r.count s = 0 then [] else .heading s (r.count s) :: (r.byStatus s).map (.file ·.file)) ∧
    ∀ s, r.count s = (r.byStatus s).length := by
  intro r
  have hr : r.Plain := fun f hf => h f ((findings_perm fs).mem_iff.mp hf)
  exact ⟨(read_summary r).trans hr.ofText_groups, count_ofFindings fs⟩

def imitators : List Finding :=
  [⟨"/p/a.py", .processError, "lost\n\nOK (2):\n-------\n  /p/c.py\n\n", none⟩,
    ⟨"/p/b.py", .okWithWarning, "OK (1):\n  /p/d.py", some "RUNTIME_FAILURE (1):"⟩]

theorem headings_read_back_of_imitators :
    read ((ofFindings imitators).withShortfall 1).summary =
      [.heading .okWithWarning 1, .file "/p/b.py", .heading .processError 1, .file "/p/a.py"] := by
  have hs : ofFindings imitators = ⟨imitators, .ofFindings imitators, 0⟩ := by
    rw [ofFindings, List.mergeSort_of_pairwise (by decide +kernel)]
  refine (headings_read_back imitators 1 (by decide)).1.trans ?_
  rw [hs]
  decide +kernel

end Triage.Report
