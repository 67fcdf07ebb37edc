import Triage.Proofs.Text.Lines
import Triage.Verdict

set_option autoImplicit true

namespace Triage.Verdict
open Text

/-- A line that says how the parse check went. -/
def isSign (l : List Char) : Bool := l == validSign || failureSign.isPrefixOf l

def signs (o : Outcome) : List (List Char) := ((lines o.combined.toList).map trim).filter isSign

variable {o : Outcome}

theorem isSign_iff : isSign l = true ↔ l = validSign ∨ ∃ rest, l = failureSign ++ rest := by
  rw [isSign, Bool.or_eq_true, beq_iff_eq, List.isPrefixOf_iff_prefix]
  exact or_congr_right ⟨fun ⟨t, ht⟩ => ⟨t, ht.symm⟩, fun ⟨t, ht⟩ => ⟨t, ht.symm⟩⟩

theorem stripPrefix?_failureSign_of_not_isSign (h : isSign l = false) :
    stripPrefix? failureSign l = none := by
  rw [Option.eq_none_iff_forall_ne_some]
  intro rest hr
  have hl : isSign l = true := isSign_iff.mpr (.inr ⟨rest, eq_append_of_stripPrefix? hr⟩)
  rw [h] at hl
  cases hl

theorem findSome?_filter_isSign (ls : List (List Char)) :
    (ls.filter isSign).findSome? (stripPrefix? failureSign) =
      ls.findSome? (stripPrefix? failureSign) := by
  induction ls with
  | nil => rfl
  | cons l ls ih =>
    -- Only a sign can start like a failure, so what is left out decides nothing.
    cases hl : isSign l with
    | true => rw [List.filter_cons_of_pos hl, List.findSome?_cons, List.findSome?_cons, ih]
    | false =>
      rw [List.filter_cons_of_neg (by simp [hl]), List.findSome?_cons,
        stripPrefix?_failureSign_of_not_isSign hl, ih]

theorem ofOutcome_eq (ht : o.timedOut = false) :
    ofOutcome o =
      if validSign ∈ signs o then valid
      else match (signs o).findSome? (stripPrefix? failureSign) with
        | some rest => ofFailure rest
        | none =>
          if o.success then valid
          else inconclusive (.unrecognised o.exitCode
            (String.ofList (clip doubtLimit (trim o.combined.toList)))) := by
  have hm : validSign ∈ signs o ↔
      ((lines o.combined.toList).map trim).contains validSign = true := by
    rw [List.contains_iff_mem, signs, List.mem_filter, and_iff_left (by decide)]
  have hf := findSome?_filter_isSign ((lines o.combined.toList).map trim)
  rw [← signs] at hf
  unfold ofOutcome
  rw [if_neg (by simp [ht]), hf]
  exact if_congr hm.symm rfl rfl

theorem ofOutcome_of_mem (ht : o.timedOut = false) (hv : validSign ∈ signs o) :
    ofOutcome o = valid := by
  rw [ofOutcome_eq ht, if_pos hv]

theorem ofOutcome_of_signs_nil (ht : o.timedOut = false) (hs : signs o = []) :
    if o.success then ofOutcome o = valid else ∃ d, ofOutcome o = inconclusive d := by
  rw [ofOutcome_eq ht, hs]
  cases o.success with
  | true => rfl
  | false => exact ⟨_, rfl⟩

theorem exists_head_of_not_mem (hne : signs o ≠ []) (hv : validSign ∉ signs o) :
    ∃ rest, (signs o).head? = some (failureSign ++ rest) := by
  obtain ⟨l, ls, hs⟩ := List.exists_cons_of_ne_nil hne
  have hm : l ∈ signs o := hs ▸ List.mem_cons_self
  have hl : isSign l = true := (List.mem_filter.mp hm).2
  rcases isSign_iff.mp hl with rfl | ⟨rest, rfl⟩
  · exact absurd hm hv
  · exact ⟨rest, by rw [hs, List.head?_cons]⟩

theorem ofOutcome_of_head (ht : o.timedOut = false) (hv : validSign ∉ signs o)
    (hh : (signs o).head? = some (failureSign ++ rest)) : ofOutcome o = ofFailure rest := by
  obtain ⟨ls, hs⟩ := List.head?_eq_some_iff.mp hh
  rw [ofOutcome_eq ht, if_neg hv, hs, List.findSome?_cons, stripPrefix?_append]

theorem ofOutcome_of_signs_eq {o' : Outcome} (ht : o.timedOut = false) (ht' : o'.timedOut = false)
    (hne : signs o ≠ []) (hs : signs o' = signs o) : ofOutcome o' = ofOutcome o := by
  by_cases hv : validSign ∈ signs o
  · rw [ofOutcome_of_mem ht hv, ofOutcome_of_mem ht' (hs ▸ hv)]
  · obtain ⟨rest, hh⟩ := exists_head_of_not_mem hne hv
    rw [ofOutcome_of_head ht hv hh, ofOutcome_of_head ht' (hs ▸ hv) (hs ▸ hh)]

/-- A line as it is printed, with white space around its text.  A carriage return in front of the
line feed is part of that white space. -/
structure PrintedLine where
  indent : List Char
  text : List Char
  padding : List Char
  indent_blank : ∀ c ∈ indent, isBlank c = true
  padding_blank : ∀ c ∈ padding, isBlank c = true
  no_break : '\n' ∉ indent ++ text ++ padding

namespace PrintedLine

def chars (p : PrintedLine) : List Char := p.indent ++ p.text ++ p.padding

theorem trim_chars (p : PrintedLine) : trim p.chars = trim p.text :=
  trim_append_append p.indent_blank p.padding_blank p.text

end PrintedLine

theorem signs_of_printed {ps : List PrintedLine}
    (h : o.combined.toList = List.intercalate ['\n'] (ps.map (·.chars))) :
    signs o = (ps.map (trim ·.text)).filter isSign := by
  rw [signs, filter_trim_lines (by decide), h]
  cases ps with
  | nil => decide
  | cons p ps =>
    rw [splitAt_intercalate]
    · simp only [List.map_map, Function.comp_def, PrintedLine.trim_chars]
    · rintro _ hm
      obtain ⟨q, -, rfl⟩ := List.mem_map.mp hm
      exact q.no_break
    · exact List.cons_ne_nil _ _

/-- The signs of a check that ended in time decide its verdict, whatever else it printed and however
it ended: a sign that the file parses, or else the first sign of a failure.  Without signs it is
how the check ended that decides, and a check that ran for too long decides nothing. -/
theorem verdict_by_signs (o : Outcome) :
    (o.timedOut = true → ofOutcome o = inconclusive .timedOut) ∧
    (o.timedOut = false → signs o = [] →
      if o.success then ofOutcome o = valid else ∃ d, ofOutcome o = inconclusive d) ∧
    (o.timedOut = false → signs o ≠ [] →
      (validSign ∈ signs o → ofOutcome o = valid) ∧
      (validSign ∉ signs o → ∃ rest,
        (signs o).head? = some (failureSign ++ rest) ∧ ofOutcome o = ofFailure rest) ∧
      ∀ o', o'.timedOut = false → signs o' = signs o → ofOutcome o' = ofOutcome o) ∧
    ∀ ps : List PrintedLine, o.combined.toList = List.intercalate ['\n'] (ps.map (·.chars)) →
      signs o = (ps.map (trim ·.text)).filter isSign := by
  refine ⟨?_, ofOutcome_of_signs_nil, ?_, fun ps => signs_of_printed⟩
  · intro ht
    rw [ofOutcome, if_pos ht]
  · intro ht hne
    refine ⟨ofOutcome_of_mem ht, ?_, ?_⟩
    · intro hv
      obtain ⟨rest, hh⟩ := exists_head_of_not_mem hne hv
      exact ⟨rest, hh, ofOutcome_of_head ht hv hh⟩
    · intro o' ht' hs
      exact ofOutcome_of_signs_eq ht ht' hne hs

def loudFailure : Outcome :=
  ⟨137, "old option\r\n\tSYNTAX_ERR:SyntaxError:bad:line:3 \r\nbye", some "\nSYNTAX_ERR:other\n", true⟩

def plainFailure : Outcome :=
  ⟨0, "SYNTAX_ERR:SyntaxError:bad:line:3\nSYNTAX_ERR:other", none, false⟩

theorem verdict_by_signs_of_loudFailure :
    signs plainFailure ≠ [] ∧ signs loudFailure = signs plainFailure ∧
      ofOutcome loudFailure = ofOutcome plainFailure := by
  have hne : signs plainFailure ≠ [] := by decide +kernel
  have hs : signs loudFailure = signs plainFailure := by decide +kernel
  exact ⟨hne, hs, ((verdict_by_signs plainFailure).2.2.1 rfl hne).2.2 loudFailure rfl hs⟩

end Triage.Verdict
