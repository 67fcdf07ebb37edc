import Triage.Proofs.Text.Digits
import Triage.Proofs.Verdict.Signs

set_option autoImplicit true

namespace Triage.Verdict
open Text

variable {o : Outcome}

def located (kind message number : String) : String :=
  s!"SYNTAX_ERR:{kind}:{message}:line:{number}"

def unread (reason : String) : String := s!"SYNTAX_ERR:cannot_read:{reason}"

/-- A check printed this one line, with or without a line ending. -/
def PrintedOnly (o : Outcome) (line : String) : Prop :=
  ∃ ending ∈ ["", "\n", "\r\n"], o.combined = line ++ ending

theorem toList_located (kind message number : String) :
    (located kind message number).toList =
      failureSign ++ (kind.toList ++ ':' :: message.toList ++ lineSign ++ number.toList) := by
  show ("SYNTAX_ERR:" ++ kind ++ ":" ++ message ++ ":line:" ++ number).toList = _
  have hc : ":".toList = [':'] := rfl
  have hf : "SYNTAX_ERR:".toList = failureSign := rfl
  have hl : ":line:".toList = lineSign := rfl
  simp only [String.toList_append, hc, hf, hl, List.append_assoc, List.cons_append, List.nil_append]

theorem toList_unread (reason : String) :
    (unread reason).toList = failureSign ++ (unreadableSign ++ reason.toList) := by
  show ("SYNTAX_ERR:cannot_read:" ++ reason).toList = _
  have hf : "SYNTAX_ERR:cannot_read:".toList = failureSign ++ unreadableSign := by decide
  rw [String.toList_append, hf, List.append_assoc]

theorem ofOutcome_of_printedOnly (ht : o.timedOut = false) (h : PrintedOnly o line)
    (hf : line.toList = failureSign ++ rest) (hn : '\n' ∉ rest) (hl : endsBlank rest = false) :
    ofOutcome o = ofFailure rest := by
  have hb : endsBlank (failureSign ++ rest) = false := by
    rw [endsBlank_append]
    split
    · decide
    · exact hl
  have hlines : lines o.combined.toList = [failureSign ++ rest] := by
    obtain ⟨e, he, ho⟩ := h
    rw [ho, String.toList_append, hf]
    refine lines_of_not_mem ?_ (List.append_ne_nil_of_left_ne_nil (by decide) _) hb ?_
    · rw [List.mem_append, not_or]
      exact ⟨by decide, hn⟩
    · simp only [List.mem_cons, List.not_mem_nil, or_false] at he
      rcases he with rfl | rfl | rfl <;> decide
  have hs : signs o = [failureSign ++ rest] := by
    rw [signs, hlines, List.map_singleton, trim_eq_self rfl hb,
      List.filter_cons_of_pos (isSign_iff.mpr (.inr ⟨rest, rfl⟩)), List.filter_nil]
  refine ofOutcome_of_head ht (fun hv => ?_) (by rw [hs]; rfl)
  rw [hs, List.mem_singleton] at hv
  exact absurd (List.isPrefixOf_iff_prefix.mpr ⟨rest, hv.symm⟩) (by decide)

variable {kind message number : String}

theorem describeKind_of_not_mem {kind : List Char} (hk : ':' ∉ kind) (text : List Char) :
    describeKind (kind ++ ':' :: text) = kind ++ [':', ' '] ++ text := by
  rw [describeKind, splitOnce?_singleton.mpr ⟨hk, rfl⟩]

theorem ofFailure_of_not_mem {kind : List Char} (hk : ':' ∉ kind) (hu : kind ≠ "cannot_read".toList)
    (text : List Char) :
    ofFailure (kind ++ ':' :: text) = defect (String.ofList (describe (kind ++ ':' :: text))) := by
  have hn : stripPrefix? unreadableSign (kind ++ ':' :: text) = none := by
    rw [Option.eq_none_iff_forall_ne_some]
    intro t ht
    have hs : unreadableSign = "cannot_read".toList ++ [':'] := by decide
    have he := eq_append_of_stripPrefix? ht
    rw [hs, List.append_assoc, List.singleton_append] at he
    -- What stands before the first colon of one text is the same, however the text is written.
    have ho := splitOnce?_singleton.mpr ⟨by decide, he⟩
    rw [splitOnce?_singleton.mpr ⟨hk, rfl⟩] at ho
    exact hu (Prod.mk.inj (Option.some.inj ho)).1
  rw [ofFailure, hn]

theorem describe_located (hk : ':' ∉ kind.toList) (hn : ':' ∉ number.toList) :
    describe (kind.toList ++ ':' :: message.toList ++ lineSign ++ number.toList) =
      (s!"{kind}: {message}" ++
        match number? (trim number.toList) with
        | none => ""
        | some n => s!" (line {n})").toList := by
  -- The message may have the sign of a line in it: the last one is the one that was printed last.
  have hs : splitLast? lineSign (kind.toList ++ ':' :: message.toList ++ lineSign ++ number.toList) =
      some (kind.toList ++ ':' :: message.toList, number.toList) :=
    splitLast?_append hn (kind.toList ++ ':' :: message.toList) ":line".toList
  have hd : kind.toList ++ [':', ' '] ++ message.toList = (s!"{kind}: {message}").toList := by
    show _ = (kind ++ ": " ++ message).toList
    rw [String.toList_append, String.toList_append]
    rfl
  simp only [describe, hs, describeKind_of_not_mem hk, hd]
  cases number? (trim number.toList) with
  | none => simp
  | some n => exact String.toList_append.symm

theorem number?_toDigits (hn : n < UInt64.size) : number? (Nat.toDigits 10 n) = some n := by
  have hd : (Nat.toDigits 10 n).all Char.isDigit = true :=
    List.all_eq_true.mpr fun c hc => Nat.isDigit_of_mem_toDigits (by decide) (by decide) hc
  have hv : (Nat.toDigits 10 n).foldl (fun n c => 10 * n + (c.toNat - 48)) 0 = n :=
    Nat.ofDigitChars_ten_toDigits
  obtain ⟨c, ds, hc⟩ := List.exists_cons_of_ne_nil (Nat.toDigits_ne_nil (n := n) (b := 10))
  rw [hc] at hd hv ⊢
  have hp : c ≠ '+' := by
    rintro rfl
    simp at hd
  unfold number?
  split
  next h => exact absurd (List.cons.inj h).1 hp
  next => simp [hd, hv, hn]

theorem ofOutcome_of_located (ht : o.timedOut = false) (hk : ':' ∉ kind.toList)
    (hkn : '\n' ∉ kind.toList) (hu : kind ≠ "cannot_read") (hm : '\n' ∉ message.toList)
    (hn : ':' ∉ number.toList) (hne : number.toList ≠ [])
    (hb : ∀ c ∈ number.toList, isBlank c = false) (h : PrintedOnly o (located kind message number)) :
    ofOutcome o = defect (s!"{kind}: {message}" ++
      match number? number.toList with
      | none => ""
      | some n => s!" (line {n})") := by
  have hbreak : '\n' ∉ kind.toList ++ ':' :: message.toList ++ lineSign ++ number.toList := by
    have hb : '\n' ∉ number.toList := fun hc => absurd (hb _ hc) (by decide)
    have hs : '\n' ∉ lineSign := by decide
    simp [hkn, hm, hb, hs]
  have hlast : endsBlank (kind.toList ++ ':' :: message.toList ++ lineSign ++ number.toList) =
      false := by
    rw [endsBlank_append, if_neg hne]
    exact endsBlank_of_forall hb
  have hu : kind.toList ≠ "cannot_read".toList := fun he => hu (String.toList_inj.mp he)
  rw [ofOutcome_of_printedOnly ht h (toList_located kind message number) hbreak hlast,
    List.append_assoc, List.append_assoc, List.cons_append, ofFailure_of_not_mem hk hu,
    ← List.cons_append, ← List.append_assoc, ← List.append_assoc, describe_located hk hn,
    trim_of_forall hb, String.ofList_toList]

theorem ofOutcome_of_unread {reason : String} (ht : o.timedOut = false) (hn : '\n' ∉ reason.toList)
    (hr : trim reason.toList = reason.toList) (h : PrintedOnly o (unread reason)) :
    ofOutcome o = unreadable reason := by
  have hl : endsBlank (unreadableSign ++ reason.toList) = false := by
    rw [endsBlank_append]
    split
    · decide
    · rw [← hr]
      exact endsBlank_trim reason.toList
  have hb : '\n' ∉ unreadableSign ++ reason.toList := by
    rw [List.mem_append, not_or]
    exact ⟨by decide, hn⟩
  rw [ofOutcome_of_printedOnly ht h (toList_unread reason) hb hl, ofFailure, stripPrefix?_append]
  exact congrArg unreadable String.ofList_toList

/-- Whatever stands in a message of one line, and be it a sign like those around it, a failure that a
check printed with its place is described by its kind, its message and its line, and one without a
known line by its kind and its message; the reason why a file could not be read is kept as it is. -/
theorem failure_read_back (ht : o.timedOut = false) :
    (∀ kind message : String, ':' ∉ kind.toList → '\n' ∉ kind.toList → kind ≠ "cannot_read" →
      '\n' ∉ message.toList →
      (∀ n < UInt64.size, PrintedOnly o (located kind message (toString n)) →
        ofOutcome o = defect s!"{kind}: {message} (line {n})") ∧
      (PrintedOnly o (located kind message "None") → ofOutcome o = defect s!"{kind}: {message}")) ∧
    ∀ reason : String, '\n' ∉ reason.toList → trim reason.toList = reason.toList →
      PrintedOnly o (unread reason) → ofOutcome o = unreadable reason := by
  refine ⟨?_, fun reason => ofOutcome_of_unread ht⟩
  intro kind message hk hkn hu hm
  constructor
  · intro n hn h
    have hd : (toString n).toList = Nat.toDigits 10 n := Nat.toList_repr
    have hc : ':' ∉ (toString n).toList := not_mem_toString (by decide) n
    have hne : (toString n).toList ≠ [] := by
      rw [hd]
      exact Nat.toDigits_ne_nil
    have hb : ∀ c ∈ (toString n).toList, isBlank c = false := by
      rw [hd]
      exact fun c => isBlank_of_mem_toDigits
    rw [ofOutcome_of_located ht hk hkn hu hm hc hne hb h, hd, number?_toDigits hn]
    exact congrArg defect (by simp only [String.append_assoc])
  · intro h
    have hb : ∀ c ∈ "None".toList, isBlank c = false := by
      have ha : "None".toList.all (!isBlank ·) = true := by decide
      simpa using ha
    rw [ofOutcome_of_located ht hk hkn hu hm (by decide) (by decide) hb h]
    exact congrArg defect String.append_empty

def imitation : Outcome :=
  ⟨2, "SYNTAX_ERR:SyntaxError:no number in x:line:9:line:line:7\r\n", none, false⟩

theorem failure_read_back_of_imitation :
    imitation.timedOut = false ∧
      PrintedOnly imitation (located "SyntaxError" "no number in x:line:9:line" (toString 7)) ∧
      ofOutcome imitation = defect "SyntaxError: no number in x:line:9:line (line 7)" := by
  have hp : PrintedOnly imitation
      (located "SyntaxError" "no number in x:line:9:line" (toString 7)) :=
    ⟨"\r\n", by simp, by decide +kernel⟩
  have h := (failure_read_back (o := imitation) rfl).1 "SyntaxError" "no number in x:line:9:line"
    (by decide) (by decide) (by decide) (by decide)
  exact ⟨rfl, hp, (h.1 7 (by decide) hp).trans (by decide +kernel)⟩

end Triage.Verdict
