import Triage.Json.Quoted

set_option autoImplicit true

namespace Triage.Json

theorem hexValue?_hexDigit (h : n < 16) : hexValue? (hexDigit n) = some n := by
  have hd : ∀ n : Fin 16, hexValue? (hexDigit n) = some n.val := by decide
  exact hd ⟨n, h⟩

theorem unit?_hexDigit (h : n < 256) :
    unit? '0' '0' (hexDigit (n / 16)) (hexDigit (n % 16)) = some n := by
  have h₀ : hexValue? '0' = some 0 := by decide
  have h₁ := hexValue?_hexDigit (n := n / 16) (by omega)
  have h₂ := hexValue?_hexDigit (n := n % 16) (by omega)
  simp only [unit?, h₀, h₁, h₂, Option.bind_eq_bind, Option.bind_some, Option.pure_def,
    Option.some.injEq]
  omega

theorem escaped?_of_shortEscape? (h : shortEscape? c = some e) : escaped? e = some c := by
  unfold shortEscape? at h
  repeat' split at h
  all_goals cases h
  all_goals subst c; rfl

theorem ne_u_of_shortEscape? (h : shortEscape? c = some e) : e ≠ 'u' := by
  rintro rfl
  cases escaped?_of_shortEscape? h

theorem not_special_of_shortEscape? (h : shortEscape? c = none) : c ≠ '"' ∧ c ≠ '\\' := by
  constructor
  · rintro rfl
    cases h
  · rintro rfl
    cases h

def pieceOf (c : Char) : Piece :=
  if shortEscape? c = none ∧ c.toNat < 0x20 then .unit c.toNat else .char c

theorem piecesFrom_escapeChar (c : Char) (read : List Piece) (rest : List Char) :
    piecesFrom read (escapeChar c ++ rest) = piecesFrom (pieceOf c :: read) rest := by
  unfold escapeChar pieceOf
  split
  next e he =>
    simp only [List.cons_append, List.nil_append, he, reduceCtorEq, false_and, if_false]
    rw [piecesFrom, escaped?_of_shortEscape? he]
    exact fun _ _ _ _ _ hu => absurd hu (ne_u_of_shortEscape? he)
  next hs =>
    split
    next hc =>
      simp only [List.cons_append, List.nil_append, hs, hc, true_and, if_true]
      rw [piecesFrom, unit?_hexDigit (by omega)]
    next hc =>
      obtain ⟨hq, hb⟩ := not_special_of_shortEscape? hs
      simp only [List.cons_append, List.nil_append, hs, hc, true_and, if_false]
      rw [piecesFrom, if_neg hc]
      · exact hq
      · exact fun h => absurd h hb
      · exact fun _ _ _ _ _ h => absurd h hb
      · exact fun _ _ h => absurd h hb

theorem piecesFrom_flatMap (s : List Char) (read : List Piece) (rest : List Char) :
    piecesFrom read (s.flatMap escapeChar ++ '"' :: rest) =
      (read.reverse ++ s.map pieceOf, .ok rest) := by
  induction s generalizing read with
  | nil => rw [List.flatMap_nil, List.nil_append, piecesFrom, List.map_nil, List.append_nil]
  | cons c s ih =>
    rw [List.flatMap_cons, List.append_assoc, piecesFrom_escapeChar, ih, List.reverse_cons,
      List.append_assoc]
    rfl

/-- A control character is no half of a pair, so its unit is read as the character itself. -/
theorem joinFrom_pieceOf (c : Char) (read : List Char) (ps : List Piece) :
    joinFrom read (pieceOf c :: ps) = joinFrom (c :: read) ps := by
  unfold pieceOf
  split
  next hc =>
    have hl : isLowUnit c.toNat = false := by
      simp only [isLowUnit, Bool.and_eq_false_iff, decide_eq_false_iff_not]
      omega
    have hh : isHighUnit c.toNat = false := by
      simp only [isHighUnit, Bool.and_eq_false_iff, decide_eq_false_iff_not]
      omega
    rw [joinFrom.eq_def]
    simp only [hl, hh, Char.ofNat_toNat]
    rfl
  · rfl

theorem joinFrom_map_pieceOf (s read : List Char) :
    joinFrom read (s.map pieceOf) = .ok (some (read.reverse ++ s)) := by
  induction s generalizing read with
  | nil => rw [List.map_nil, joinFrom, List.append_nil]
  | cons c s ih =>
    rw [List.map_cons, joinFrom_pieceOf, ih, List.reverse_cons, List.append_assoc]
    rfl

theorem readQuoted_flatMap (s rest : List Char) :
    readQuoted (s.flatMap escapeChar ++ '"' :: rest) = .ok (s, rest) := by
  simp only [readQuoted, pieces, piecesFrom_flatMap, List.reverse_nil, List.nil_append,
    joinFrom_map_pieceOf]

theorem quote_append (s rest : List Char) :
    quote s ++ rest = '"' :: (s.flatMap escapeChar ++ '"' :: rest) := by
  simp only [quote, List.cons_append, List.append_assoc, List.nil_append]

end Triage.Json
