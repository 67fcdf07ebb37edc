import Triage.Proofs.Text.Infix
import Triage.Proofs.Verdict.Failures

set_option autoImplicit true

namespace Triage.Verdict
open Text

variable {o : Outcome}

def unlocated (kind text : String) : String := s!"SYNTAX_ERR:{kind}:{text}"

theorem toList_unlocated (kind text : String) :
    (unlocated kind text).toList = failureSign ++ (kind.toList ++ ':' :: text.toList) := by
  show ("SYNTAX_ERR:" ++ kind ++ ":" ++ text).toList = _
  have hc : ":".toList = [':'] := rfl
  have hf : "SYNTAX_ERR:".toList = failureSign := rfl
  simp only [String.toList_append, hc, hf, List.append_assoc, List.cons_append, List.nil_append]

/-- What is said of a text, given with a colon in front, that was cut. -/
def spaced : List Char → List Char
  | [] => []
  | c :: text => c :: ' ' :: text

def placed (tail : List Char) : List Char :=
  match number? (trim tail) with
  | none => []
  | some n => s!" (line {n})".toList

theorem describe_of_not_infix {kind : List Char} (hk : ':' ∉ kind)
    (h : ¬lineSign <:+: ':' :: text) :
    describe (kind ++ ':' :: text) = kind ++ spaced (':' :: text) := by
  have hn : splitLast? lineSign (kind ++ ':' :: text) = none :=
    splitLast?_eq_none.mpr ((infix_append_of_not_mem hk _ _).not.mpr h)
  rw [describe, hn]
  show describeKind _ = _
  rw [describeKind_of_not_mem hk, List.append_assoc]
  rfl

/-- A kind has no colon in it, so the sign of a line cannot start before its end. -/
theorem exists_head_of_append {kind : List Char} (hk : ':' ∉ kind)
    (h : kind ++ u = front ++ lineSign ++ tail) :
    ∃ head, front = kind ++ head ∧ u = head ++ lineSign ++ tail := by
  rw [List.append_assoc] at h
  rcases List.append_eq_append_iff.mp h with ⟨head, hf, hu⟩ | ⟨rest, hr, hu⟩
  · exact ⟨head, hf, by rw [hu, List.append_assoc]⟩
  · cases rest with
    | nil => exact ⟨[], by simpa using hr.symm, by simpa using hu.symm⟩
    | cons c rest =>
      have hc : ':' = c := (List.cons.inj hu).1
      exact absurd (hr ▸ hc ▸ List.mem_append_right front List.mem_cons_self) hk

theorem describeKind_append {kind : List Char} (hk : ':' ∉ kind)
    (h : ':' :: text = head ++ lineSign ++ tail) :
    describeKind (kind ++ head) = kind ++ spaced head := by
  cases head with
  | nil =>
    have hn : splitOnce? [':'] kind = none := by
      rw [splitOnce?_eq_none]
      exact fun hi => hk (hi.subset (List.mem_singleton_self ':'))
    rw [spaced, List.append_nil, describeKind, hn]
  | cons c head =>
    obtain rfl : ':' = c := (List.cons.inj h).1
    rw [describeKind_of_not_mem hk, List.append_assoc]
    rfl

theorem describe_of_infix {kind : List Char} (hk : ':' ∉ kind) (h : lineSign <:+: ':' :: text) :
    ∃ head tail, ':' :: text = head ++ lineSign ++ tail ∧ ¬lineSign <:+: lineSign.tail ++ tail ∧
      describe (kind ++ ':' :: text) = kind ++ spaced head ++ placed tail := by
  have hs : splitLast? lineSign (kind ++ ':' :: text) ≠ none :=
    mt splitLast?_eq_none.mp (not_not.mpr ((infix_append_of_not_mem hk _ _).mpr h))
  obtain ⟨⟨front, tail⟩, hs⟩ := Option.ne_none_iff_exists'.mp hs
  obtain ⟨head, rfl, hu⟩ := exists_head_of_append hk (eq_append_of_splitLast? hs)
  refine ⟨head, tail, hu, not_infix_of_splitLast? (by decide) hs, ?_⟩
  simp only [describe, hs, describeKind_append hk hu, placed]
  cases number? (trim tail) with
  | none => exact (List.append_nil _).symm
  | some n => rfl

theorem spaced_ne (h : ':' :: text = head ++ lineSign ++ tail) :
    spaced head ++ placed tail ≠ spaced (':' :: text) := by
  intro he
  have hp : placed tail = [] ∨ ∃ rest, placed tail = ' ' :: rest := by
    unfold placed
    cases number? (trim tail) with
    | none => exact .inl rfl
    | some n =>
      refine .inr ⟨"(line ".toList ++ (toString n).toList ++ [')'], ?_⟩
      show (" (line " ++ toString n ++ ")").toList = _
      rw [String.toList_append, String.toList_append]
      rfl
  have hs : lineSign = ':' :: "line:".toList := rfl
  cases head with
  | nil =>
    rcases hp with hp | ⟨rest, hp⟩ <;> simp [spaced, hp] at he
  | cons c head =>
    obtain ⟨-, rfl⟩ := List.cons.inj h
    rcases hp with hp | ⟨rest, hp⟩ <;> simp [spaced, hp, hs] at he

theorem ofOutcome_of_unlocated {kind text : String} (ht : o.timedOut = false)
    (hk : ':' ∉ kind.toList) (hkn : '\n' ∉ kind.toList) (hu : kind ≠ "cannot_read")
    (hn : '\n' ∉ text.toList) (hr : trim text.toList = text.toList)
    (h : PrintedOnly o (unlocated kind text)) :
    ofOutcome o = defect (String.ofList (describe (kind.toList ++ ':' :: text.toList))) := by
  have hb : '\n' ∉ kind.toList ++ ':' :: text.toList := by simp [hkn, hn]
  have hl : endsBlank (kind.toList ++ ':' :: text.toList) = false := by
    have hc : (':' :: text.toList) = [':'] ++ text.toList := rfl
    rw [endsBlank_append, if_neg (List.cons_ne_nil _ _), hc, endsBlank_append]
    split
    · rfl
    · rw [← hr]
      exact endsBlank_trim text.toList
  have hu : kind.toList ≠ "cannot_read".toList := fun he => hu (String.toList_inj.mp he)
  rw [ofOutcome_of_printedOnly ht h (toList_unlocated kind text) hb hl, ofFailure_of_not_mem hk hu]

/-- The text of a failure without a place is kept whole if and only if nothing in it, or across the
colon in front of it, looks like the sign of a line.  Else it is cut at the last such sign: what
stands behind it is taken for the number of a line, and left out if it is none. -/
theorem unlocated_read_back_iff {kind text : String} (ht : o.timedOut = false)
    (hk : ':' ∉ kind.toList) (hkn : '\n' ∉ kind.toList) (hu : kind ≠ "cannot_read")
    (hn : '\n' ∉ text.toList) (hr : trim text.toList = text.toList)
    (h : PrintedOnly o (unlocated kind text)) :
    (ofOutcome o = defect s!"{kind}: {text}" ↔ ¬lineSign <:+: ':' :: text.toList) ∧
    (lineSign <:+: ':' :: text.toList → ∃ head tail,
      ':' :: text.toList = head ++ lineSign ++ tail ∧ ¬lineSign <:+: lineSign.tail ++ tail ∧
      ofOutcome o = defect (String.ofList (kind.toList ++ spaced head ++ placed tail))) := by
  have ho := ofOutcome_of_unlocated ht hk hkn hu hn hr h
  have hw : (s!"{kind}: {text}").toList = kind.toList ++ spaced (':' :: text.toList) := by
    show (kind ++ ": " ++ text).toList = _
    rw [String.toList_append, String.toList_append, List.append_assoc]
    rfl
  refine ⟨⟨fun hd hi => ?_, fun hi => ?_⟩, fun hi => ?_⟩
  · obtain ⟨head, tail, hs, -, hd'⟩ := describe_of_infix hk hi
    rw [ho, hd'] at hd
    have he := congrArg String.toList (defect.inj hd)
    rw [String.toList_ofList, hw, List.append_assoc] at he
    exact spaced_ne hs (List.append_cancel_left he)
  · rw [ho, describe_of_not_infix hk hi, ← hw, String.ofList_toList]
  · obtain ⟨head, tail, hs, hl, hd⟩ := describe_of_infix hk hi
    exact ⟨head, tail, hs, hl, by rw [ho, hd]⟩

def misplaced : Outcome := ⟨2, "SYNTAX_ERR:ValueError:bad mark:line:end\n", none, false⟩

theorem unlocated_read_back_of_misplaced :
    PrintedOnly misplaced (unlocated "ValueError" "bad mark:line:end") ∧
      ofOutcome misplaced ≠ defect "ValueError: bad mark:line:end" ∧
      ∃ head tail, ":bad mark:line:end".toList = head ++ lineSign ++ tail ∧
        ofOutcome misplaced =
          defect (String.ofList ("ValueError".toList ++ spaced head ++ placed tail)) := by
  have hp : PrintedOnly misplaced (unlocated "ValueError" "bad mark:line:end") :=
    ⟨"\n", by simp, by decide +kernel⟩
  have hi : lineSign <:+: ':' :: "bad mark:line:end".toList :=
    ⟨":bad mark".toList, "end".toList, by decide⟩
  obtain ⟨hw, hc⟩ := unlocated_read_back_iff rfl (by decide) (by decide) (by decide) (by decide)
    (by decide) hp
  obtain ⟨head, tail, hs, -, hd⟩ := hc hi
  exact ⟨hp, fun hd => hw.mp hd hi, head, tail, hs, hd⟩

/-- The text of a failure without a place is not always kept whole. -/
theorem not_always_whole :
    ¬∀ (o : Outcome) (kind text : String), o.timedOut = false → kind ≠ "" →
      (∀ c ∈ kind.toList, isBlank c = false ∧ c ≠ ':') → kind ≠ "cannot_read" →
      '\n' ∉ text.toList → trim text.toList = text.toList → PrintedOnly o (unlocated kind text) →
      ofOutcome o = defect s!"{kind}: {text}" := by
  intro h
  have hk : ∀ c ∈ "ValueError".toList, isBlank c = false ∧ c ≠ ':' := by
    have ha : "ValueError".toList.all (fun c => !isBlank c && c != ':') = true := by decide
    simpa using ha
  have hd := h misplaced "ValueError" "bad mark:line:end" rfl (by decide) hk (by decide)
    (by decide) (by decide) ⟨"\n", by simp, by decide +kernel⟩
  exact absurd hd (by decide +kernel)

end Triage.Verdict
