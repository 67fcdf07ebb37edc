import Mathlib.Data.List.Basic
import Triage.Json.Layout
import Triage.Json.Value
import Triage.Proofs.Json.Quoted

set_option autoImplicit true

namespace Triage.Json

theorem skipSpace_append (h : ∀ c ∈ a, isSpace c = true) (s : List Char) :
    skipSpace (a ++ s) = skipSpace s := List.dropWhile_append_of_pos h

theorem skipSpace_cons (h : isSpace c = false) (s : List Char) : skipSpace (c :: s) = c :: s :=
  List.dropWhile_cons_of_neg (Bool.eq_false_iff.mp h)

theorem expect_cons (h : isSpace c = false) (s : List Char) : expect c (c :: s) = .ok s := by
  simp only [expect, skipSpace_cons h, if_true]

theorem readText_append (h : ∀ c ∈ a, isSpace c = true) (s : String) (rest : List Char) :
    readText (a ++ (quote s.toList ++ rest)) = .ok (s, rest) := by
  have hs : skipSpace (a ++ (quote s.toList ++ rest)) =
      '"' :: (s.toList.flatMap escapeChar ++ '"' :: rest) := by
    rw [skipSpace_append h, quote_append, skipSpace_cons rfl]
  simp only [readText, hs, readQuoted_flatMap, Except.map, String.ofList_toList]

theorem readText?_append (h : ∀ c ∈ a, isSpace c = true) (s : String) (rest : List Char) :
    readText? (a ++ (quote s.toList ++ rest)) = .ok (some s, rest) := by
  have hs : skipSpace (a ++ (quote s.toList ++ rest)) = quote s.toList ++ rest := by
    rw [skipSpace_append h, quote_append, skipSpace_cons rfl]
  have ht := readText_append (a := []) nofun s rest
  rw [List.nil_append] at ht
  unfold readText?
  rw [hs]
  split
  next r hr =>
    rw [quote_append] at hr
    cases hr
  · rw [ht]
    rfl

namespace Layout

structure Spaced (l : Layout) : Prop where
  lineBreak : ∀ depth, ∀ c ∈ l.lineBreak depth, isSpace c = true
  afterColon : ∀ c ∈ l.afterColon, isSpace c = true

theorem compact_spaced : compact.Spaced := ⟨nofun, nofun⟩

theorem indented_spaced : indented.Spaced where
  lineBreak depth c hc := by
    rcases List.mem_cons.mp hc with rfl | hc
    · rfl
    · cases List.eq_of_mem_replicate hc
      rfl
  afterColon c hc := by
    cases List.eq_of_mem_singleton hc
    rfl

variable {l : Layout}

def lead (l : Layout) (first : Bool) (depth : Nat) : List Char :=
  (if first then [] else [',']) ++ l.lineBreak (depth + 1)

/-- The text from some part on up to the closing bracket, and what follows. -/
def onward (l : Layout) (first : Bool) (closing : Char) (depth : Nat) :
    List (List Char) → List Char → List Char
  | [], rest => (if first then [] else l.lineBreak depth) ++ closing :: rest
  | p :: ps, rest => l.lead first depth ++ (p ++ l.onward false closing depth ps rest)

theorem onward_cons (l : Layout) (first : Bool) (closing : Char) (depth : Nat) (p : List Char)
    (ps : List (List Char)) (rest : List Char) :
    l.onward first closing depth (p :: ps) rest =
      l.lead first depth ++ (p ++ l.onward false closing depth ps rest) := rfl

theorem intercalate_append (l : Layout) (closing : Char) (depth : Nat) (ps : List (List Char))
    (p rest : List Char) :
    List.intercalate [','] ((p :: ps).map (l.lineBreak (depth + 1) ++ ·)) ++
        (l.lineBreak depth ++ closing :: rest) =
      l.onward true closing depth (p :: ps) rest := by
  induction ps generalizing p with
  | nil =>
    rw [List.map_singleton, List.intercalate_singleton, List.append_assoc]
    rfl
  | cons q ps ih =>
    rw [List.map_cons, List.map_cons, List.intercalate_cons_cons, ← List.map_cons]
    simp only [List.append_assoc, ih]
    rfl

theorem bracket_append (l : Layout) (opening closing : Char) (depth : Nat)
    (ps : List (List Char)) (rest : List Char) :
    l.bracket opening closing depth ps ++ rest =
      opening :: l.onward true closing depth ps rest := by
  cases ps with
  | nil => rfl
  | cons p ps =>
    rw [← intercalate_append]
    simp only [bracket, List.isEmpty_cons, Bool.false_eq_true, if_false, List.cons_append,
      List.append_assoc, List.nil_append]

theorem length_lt_onward (l : Layout) (first : Bool) (closing : Char) (depth : Nat)
    {ps : List (List Char)} (h : ∀ p ∈ ps, p ≠ []) (rest : List Char) :
    ps.length < (l.onward first closing depth ps rest).length := by
  induction ps generalizing first with
  | nil =>
    simp only [onward, List.length_append, List.length_cons, List.length_nil]
    omega
  | cons p ps ih =>
    have hp := List.length_pos_of_ne_nil (h p List.mem_cons_self)
    have hl := ih false fun q hq => h q (List.mem_cons_of_mem p hq)
    simp only [onward, List.length_append, List.length_cons]
    omega

theorem skipSpace_onward_nil (hl : l.Spaced) (first : Bool) (hc : isSpace closing = false)
    (depth : Nat) (rest : List Char) :
    skipSpace (l.onward first closing depth [] rest) = closing :: rest := by
  have hb : ∀ c ∈ (if first then [] else l.lineBreak depth), isSpace c = true := by
    split
    · exact nofun
    · exact hl.lineBreak depth
  rw [onward, skipSpace_append hb, skipSpace_cons hc]

theorem expect_onward_nil (hl : l.Spaced) (first : Bool) {c : Char} (hc : isSpace c = false)
    (depth : Nat) (rest : List Char) :
    expect c (l.onward first c depth [] rest) = .ok rest := by
  simp only [expect, skipSpace_onward_nil hl first hc, if_true]

theorem nextKey_onward_nil (hl : l.Spaced) (first : Bool) (depth : Nat) (rest : List Char) :
    nextKey first (l.onward first '}' depth [] rest) = .ok none := by
  rw [nextKey, skipSpace_onward_nil hl first (by decide)]
  rfl

theorem nextItem_onward_nil (hl : l.Spaced) (first : Bool) (depth : Nat) (rest : List Char) :
    nextItem first (l.onward first ']' depth [] rest) = .ok none := by
  rw [nextItem, skipSpace_onward_nil hl first (by decide)]
  rfl

theorem skipSpace_lead (hl : l.Spaced) (hc : isSpace c = false) (depth : Nat) (rest : List Char) :
    skipSpace (l.lead true depth ++ c :: rest) = c :: rest := by
  rw [show l.lead true depth = l.lineBreak (depth + 1) from rfl,
    skipSpace_append (hl.lineBreak _), skipSpace_cons hc]

theorem skipSpace_lead_false (l : Layout) (depth : Nat) (s : List Char) :
    skipSpace (l.lead false depth ++ s) = ',' :: (l.lead true depth ++ s) :=
  skipSpace_cons rfl _

theorem nextKey_lead (hl : l.Spaced) (first : Bool) (depth : Nat) (rest : List Char) :
    nextKey first (l.lead first depth ++ '"' :: rest) = .ok (some rest) := by
  have hs := skipSpace_lead hl (c := '"') (by decide) depth rest
  cases first with
  | true => simp [nextKey, hs]
  | false => simp [nextKey, skipSpace_lead_false, hs]

theorem nextItem_lead (hl : l.Spaced) (first : Bool) (depth : Nat) (rest : List Char) :
    nextItem first (l.lead first depth ++ '{' :: rest) = .ok (some ('{' :: rest)) := by
  have hs := skipSpace_lead hl (c := '{') (by decide) depth rest
  cases first with
  | true => simp [nextItem, hs]
  | false => simp [nextItem, skipSpace_lead_false, hs]

end Layout
end Triage.Json
